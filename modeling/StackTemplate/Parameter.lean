import StackTemplate.Error
import StackTemplate.Text.Affix
import StackTemplate.Text.Cut

/-!
# Parameters

A parameter is declared with a type and perhaps a default; the caller supplies plain text.
The supplied text, or else the text of the default, is read by the declared type (section 13
of the specification).

Lists are written with commas between the items.  Nothing is trimmed or dropped, so the empty
text is a list of one empty item.
-/

namespace StackTemplate

/-- How the text of a parameter is understood. -/
inductive ParameterType where
  | string
  | number
  | stringList
  | numberList
deriving DecidableEq

namespace ParameterType

/-- The type that a declaration names (`parse`).  A type of one resource or of a list of
resources counts as text or as a list of texts. -/
def ofDeclared? (declared : String) : Option ParameterType :=
  if declared = "String" then some .string
  else if declared = "Number" then some .number
  else if declared = "CommaDelimitedList" then some .stringList
  else if declared = "List<Number>" then some .numberList
  else if Text.startsWith "List<AWS::" declared && Text.endsWith ">" declared then some .stringList
  else if Text.startsWith "AWS::" declared then some .string
  else none

end ParameterType

namespace Parameter

/-- The items between the commas, as they are written (`split_list`). -/
def items (raw : String) : List String := Text.splitString "," raw

/-- The number a text stands for (`parse_number`). -/
def number (parameter raw : String) : Except ResolutionError Value :=
  match Number.ofText? raw.toList with
  | some n => .ok (.number n)
  | none => .error (.invalidParameterValue parameter raw)

/-- The value of a text under a type (`coerce`). -/
def interpret (parameter raw : String) : ParameterType → Except ResolutionError Value
  | .string => .ok (.string raw)
  | .number => number parameter raw
  | .stringList => .ok (.list ((items raw).map .string))
  | .numberList => ((items raw).mapM (number parameter)).map .list

/-- The text of an item of a default: strings as they are, other values in their text. -/
def itemText : Value → String
  | .string s => s
  | v => v.text

/-- The text of a default; absent, null and mappings have none. -/
def defaultText? : Option Value → Option String
  | some (.string s) => some s
  | some (.number n) => some n.text
  | some (.boolean b) => some (if b then "true" else "false")
  | some (.list vs) => some (",".intercalate (vs.map itemText))
  | _ => none

/-- The type word of a declaration. -/
def declaredType (declaration : Value) : String :=
  (declaration.getString? "Type").getD "<missing>"

/-- The value of a declared parameter (`coerce_parameter`).  The supplied text wins over the
default. -/
def value (name : String) (declaration : Value) (supplied : Option String) :
    Except ResolutionError Value :=
  let declared := declaredType declaration
  match ParameterType.ofDeclared? declared with
  | none => .error (.unsupportedParameterType name declared)
  | some type =>
    match supplied with
    | some raw => interpret name raw type
    | none =>
      match defaultText? (declaration.get? "Default") with
      | some raw => interpret name raw type
      | none => .error (.missingParameterValue name)

end Parameter
end StackTemplate
