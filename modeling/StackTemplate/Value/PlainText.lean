import StackTemplate.Value.Basic

/-!
# The plain text of a value

The text that a value contributes to a longer text: a string as it is, nothing for null,
booleans and numbers in their usual form, and the items of a list with commas between them.
A mapping has no plain text, and neither has a list that contains one at any depth.  This is
what a placeholder of `Fn::Sub` is replaced by (`stringify`).
-/

namespace StackTemplate
namespace Value

mutual

/-- The plain text of a value. -/
def plainText? : Value → Option String
  | .null => some ""
  | .boolean b => some (if b then "true" else "false")
  | .number n => some n.text
  | .string s => some s
  | .list items => (plainTexts? items).map (",".intercalate ·)
  | .mapping _ => none

/-- The plain texts of all items. -/
def plainTexts? : List Value → Option (List String)
  | [] => some []
  | v :: rest =>
    match plainText? v, plainTexts? rest with
    | some t, some ts => some (t :: ts)
    | _, _ => none

end

end Value
end StackTemplate
