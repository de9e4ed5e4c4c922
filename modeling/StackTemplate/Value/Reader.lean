import StackTemplate.Text.Hex
import StackTemplate.Value.Basic

/-!
# Reading a value

`Value.read?` reads the text of one value, with blanks allowed between its parts.  The
entries of a mapping stay in the order of the text.

A number without point and exponent is a whole number when a 64-bit word can hold it; every
other number is a double, and so is `-0`.  A number out of the range of doubles is refused.

The recursion is bounded by the length of the text: every step of `readValue?` takes at
least one character.
-/

namespace StackTemplate

/-! ## 1. Numbers -/

namespace Number

/-- Digits without a superfluous leading zero. -/
def isPlainWhole (s : List Char) : Bool :=
  match s with
  | [] => false
  | ['0'] => true
  | c :: _ => c != '0' && s.all Char.isDigit

/-- The part of a literal from the point or the exponent mark on is well formed: a point is
followed by a digit. -/
def isPlainTail : List Char → Bool
  | '.' :: c :: _ => c.isDigit
  | '.' :: [] => false
  | _ => true

/-- The number of a literal: an optional `-`, digits, and optional fraction and exponent. -/
def ofLiteral? (s : List Char) : Option Number :=
  let (negative, body) := match s with
    | '-' :: r => (true, r)
    | _ => (false, s)
  let whole := body.takeWhile Char.isDigit
  let tail := body.dropWhile Char.isDigit
  if !isPlainWhole whole || !isPlainTail tail then none
  else
    let real := ((Numeral.read? s).bind Numeral.toDouble?).map Number.real
    if tail.isEmpty && !(negative && whole == ['0']) then
      match (Text.readInt? s).bind ofInt? with
      | some n => some n
      | none => real
    else real

end Number

namespace Value
namespace Reader

/-! ## 2. Strings -/

/-- The value of four hexadecimal digits. -/
def hexUnit? (a b c d : Char) : Option Nat := do
  let high := (← Text.hexDigit? a) * 16 + (← Text.hexDigit? b)
  let low := (← Text.hexDigit? c) * 16 + (← Text.hexDigit? d)
  return high * 256 + low

/-- The character that a letter after a backslash stands for. -/
def letterEscape? : Char → Option Char
  | '"' => some '"'
  | '\\' => some '\\'
  | '/' => some '/'
  | 'b' => some '\x08'
  | 'f' => some '\x0c'
  | 'n' => some '\n'
  | 'r' => some '\r'
  | 't' => some '\t'
  | _ => none

/-- The text between the quotes and what follows the closing quote. -/
def readBody? : List Char → Option (List Char × List Char)
  | [] => none
  | '"' :: rest => some ([], rest)
  | '\\' :: c :: rest => (readBody? rest).map fun (body, r) => ('\\' :: c :: body, r)
  | c :: rest =>
    if c.toNat < 0x20 then none else (readBody? rest).map fun (body, r) => (c :: body, r)

/-- The characters that the text between the quotes stands for.  A character beyond U+FFFF
is written as two units, and half of such a pair stands for nothing. -/
def unescape? : List Char → Option (List Char)
  | [] => some []
  | '\\' :: 'u' :: a :: b :: c :: d :: rest =>
    match hexUnit? a b c d with
    | none => none
    | some high =>
      if 0xD800 ≤ high && high < 0xDC00 then
        match rest with
        | '\\' :: 'u' :: e :: f :: g :: h :: rest =>
          match hexUnit? e f g h with
          | none => none
          | some low =>
            if 0xDC00 ≤ low && low < 0xE000 then
              (unescape? rest).map
                (Char.ofNat (0x10000 + (high - 0xD800) * 0x400 + (low - 0xDC00)) :: ·)
            else none
        | _ => none
      else if 0xDC00 ≤ high && high < 0xE000 then none
      else (unescape? rest).map (Char.ofNat high :: ·)
  | '\\' :: c :: rest =>
    match letterEscape? c with
    | none => none
    | some x => (unescape? rest).map (x :: ·)
  | ['\\'] => none
  | c :: rest => (unescape? rest).map (c :: ·)

/-- A string, after its opening quote. -/
def readString? (s : List Char) : Option (String × List Char) :=
  (readBody? s).bind fun (body, rest) =>
    (unescape? body).map fun cs => (String.ofList cs, rest)

/-! ## 3. Values -/

/-- The characters between the parts of a value. -/
def isGap (c : Char) : Bool := c == ' ' || c == '\t' || c == '\n' || c == '\r'

def skipGap (s : List Char) : List Char := s.dropWhile isGap

/-- The characters a number is made of. -/
def isNumberChar (c : Char) : Bool :=
  c.isDigit || c == '-' || c == '+' || c == '.' || c == 'e' || c == 'E'

mutual

/-- One value at the front of the text, and the rest of the text. -/
def readValue? : Nat → List Char → Option (Value × List Char)
  | 0, _ => none
  | bound + 1, s =>
    match skipGap s with
    | 'n' :: 'u' :: 'l' :: 'l' :: rest => some (.null, rest)
    | 't' :: 'r' :: 'u' :: 'e' :: rest => some (.boolean true, rest)
    | 'f' :: 'a' :: 'l' :: 's' :: 'e' :: rest => some (.boolean false, rest)
    | '"' :: rest => (readString? rest).map fun (text, rest) => (.string text, rest)
    | '[' :: rest =>
      match skipGap rest with
      | ']' :: rest => some (.list [], rest)
      | rest => (readItems? bound rest).map fun (items, rest) => (.list items, rest)
    | '\x7b' :: rest =>
      match skipGap rest with
      | '\x7d' :: rest => some (.mapping [], rest)
      | rest => (readEntries? bound rest).map fun (entries, rest) => (.mapping entries, rest)
    | rest =>
      (Number.ofLiteral? (rest.takeWhile isNumberChar)).map fun n =>
        (.number n, rest.dropWhile isNumberChar)

/-- The items of a list up to its closing bracket. -/
def readItems? : Nat → List Char → Option (List Value × List Char)
  | 0, _ => none
  | bound + 1, s =>
    match readValue? bound s with
    | none => none
    | some (v, rest) =>
      match skipGap rest with
      | ',' :: rest => (readItems? bound rest).map fun (items, rest) => (v :: items, rest)
      | ']' :: rest => some ([v], rest)
      | _ => none

/-- The entries of a mapping up to its closing brace. -/
def readEntries? : Nat → List Char → Option (Entries × List Char)
  | 0, _ => none
  | bound + 1, s =>
    match skipGap s with
    | '"' :: rest =>
      match readString? rest with
      | none => none
      | some (key, rest) =>
        match skipGap rest with
        | ':' :: rest =>
          match readValue? bound rest with
          | none => none
          | some (v, rest) =>
            match skipGap rest with
            | ',' :: rest =>
              (readEntries? bound rest).map fun (entries, rest) => ((key, v) :: entries, rest)
            | '\x7d' :: rest => some ([(key, v)], rest)
            | _ => none
        | _ => none
    | _ => none

end

end Reader

/-- The value that a whole text stands for. -/
def read? (s : String) : Option Value :=
  let chars := s.toList
  match Reader.readValue? (2 * chars.length + 2) chars with
  | some (v, rest) => if (Reader.skipGap rest).isEmpty then some v else none
  | none => none

end Value
end StackTemplate
