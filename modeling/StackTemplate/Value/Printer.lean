import StackTemplate.Value.Basic

/-!
# The text of a value

`Value.text` writes a value on one line without blanks, mappings in the order of their
entries.  In strings the quote, the backslash and the characters below U+0020 are escaped,
the common ones by a letter and the others by four lower-case hexadecimal digits; every
other character stands for itself.
-/

namespace StackTemplate
namespace Value

/-- A character as it stands between the quotes of a string. -/
def escaped (c : Char) : List Char :=
  if c = '"' then ['\\', '"']
  else if c = '\\' then ['\\', '\\']
  else if c = '\x08' then ['\\', 'b']
  else if c = '\x0c' then ['\\', 'f']
  else if c = '\n' then ['\\', 'n']
  else if c = '\r' then ['\\', 'r']
  else if c = '\t' then ['\\', 't']
  else if c.toNat < 0x20 then
    ['\\', 'u', '0', '0', Nat.digitChar (c.toNat / 16), Nat.digitChar (c.toNat % 16)]
  else [c]

/-- A string between quotes. -/
def quoted (s : String) : String :=
  String.ofList ('"' :: s.toList.flatMap escaped ++ ['"'])

mutual

/-- The text of a value. -/
def text : Value → String
  | .null => "null"
  | .boolean b => if b then "true" else "false"
  | .number n => n.text
  | .string s => quoted s
  | .list items => "[" ++ ",".intercalate (itemTexts items) ++ "]"
  | .mapping entries => "\x7b" ++ ",".intercalate (entryTexts entries) ++ "\x7d"

def itemTexts : List Value → List String
  | [] => []
  | v :: rest => v.text :: itemTexts rest

def entryTexts : Entries → List String
  | [] => []
  | (key, v) :: rest => (quoted key ++ ":" ++ v.text) :: entryTexts rest

end

end Value
end StackTemplate
