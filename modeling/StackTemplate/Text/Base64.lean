/-!
# Base64

Three octets make four characters of the standard alphabet.  The last group is filled up
with `=`.
-/

namespace StackTemplate
namespace Base64

/-- The character for a value below 64. -/
def symbol (n : Nat) : Char :=
  if n < 26 then Char.ofNat ('A'.toNat + n)
  else if n < 52 then Char.ofNat ('a'.toNat + (n - 26))
  else if n < 62 then Char.ofNat ('0'.toNat + (n - 52))
  else if n = 62 then '+'
  else '/'

/-- The text of a run of octets. -/
def encode : List UInt8 → List Char
  | [] => []
  | [a] =>
    let n := a.toNat <<< 16
    [symbol (n >>> 18), symbol (n >>> 12 % 64), '=', '=']
  | [a, b] =>
    let n := a.toNat <<< 16 + b.toNat <<< 8
    [symbol (n >>> 18), symbol (n >>> 12 % 64), symbol (n >>> 6 % 64), '=']
  | a :: b :: c :: rest =>
    let n := a.toNat <<< 16 + b.toNat <<< 8 + c.toNat
    symbol (n >>> 18) :: symbol (n >>> 12 % 64) :: symbol (n >>> 6 % 64) ::
      symbol (n % 64) :: encode rest

/-- The text of the UTF-8 octets of a string. -/
def encodeString (s : String) : String := String.ofList (encode s.toUTF8.toList)

end Base64
end StackTemplate
