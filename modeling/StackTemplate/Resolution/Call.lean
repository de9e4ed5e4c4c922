import StackTemplate.Placeholder
import StackTemplate.Resolution.Stack
import StackTemplate.Text.Base64
import StackTemplate.Value.Equality
import StackTemplate.Value.PlainText

/-!
# Calls

What each intrinsic function does with its argument.  A function gets the argument as it is
written and asks for the values of the parts it needs, in a fixed order; the first part that
fails ends the call.  No function ever passes over a failure: both operands of `Fn::Or` and
both branches of `Fn::If` are always resolved.

The functions are those of section 4.2 of the specification, under the keys of section 11.
-/

namespace StackTemplate

/-! ## 1. Parts of arguments -/

namespace Intrinsic

/-- The call fails because of its argument. -/
def reject {α : Type} (f : Intrinsic) (fault : ArgumentFault) : Plan α :=
  .fail (.invalidArguments f fault)

/-- The value of a part that must be a string (`resolve_string`). -/
def askString (f : Intrinsic) (role : ArgumentRole) (v : Value) : Plan String := do
  match ← Plan.ask v with
  | .string s => return s
  | found => f.reject (.notString role found.kind)

/-- The value of a part that must be a boolean (`resolve_bool`). -/
def askBoolean (f : Intrinsic) (v : Value) : Plan Bool := do
  match ← Plan.ask v with
  | .boolean b => return b
  | found => f.reject (.notBoolean found.kind)

/-- The value of an argument that must be a list of `count` strings (`string_args`). -/
def askStrings (f : Intrinsic) (count : Nat) (arg : Value) : Plan (Vector String count) := do
  match (← Plan.ask arg).asVector? count with
  | some texts => return texts
  | none => f.reject (.notStrings count)

/-- The texts of the strings among the items, in order.  Nulls are passed over, and the first
item of another kind is the fault. -/
def joinTexts : List Value → Except ValueKind (List String)
  | [] => .ok []
  | .string s :: rest => (joinTexts rest).map (s :: ·)
  | .null :: rest => joinTexts rest
  | v :: _ => .error v.kind

/-- The integer that an index stands for: an integer, or a signed numeral with blanks around
it, in the range of a signed 64-bit word. -/
def indexOf? : Value → Option Int
  | .number n => n.asIndex?
  | .string s => Text.readWord? (Text.trim s.toList)
  | _ => none

/-- The item at an index, and null at any index that is out of range. -/
def itemAt (items : List Value) (i : Int) : Value :=
  if i < 0 then .null else items[i.toNat]?.getD .null

end Intrinsic

namespace Stack

open Plan (ask)
open Intrinsic (joinTexts indexOf? itemAt)

/-! ## 2. The functions -/

/-- `Ref`: the argument resolves to a name. -/
def callRef (stack : Stack) (arg : Value) : Plan Value := do
  stack.reference (← Intrinsic.ref.askString .name arg)

/-- `Fn::GetAtt`: a string as it is written is cut at its first point; any other argument
resolves to a resource and an attribute. -/
def callGetAtt (stack : Stack) (arg : Value) : Plan Value :=
  match arg with
  | .string _ => do
    let dotted ← Intrinsic.getAtt.askString .argument arg
    match Text.cutString? "." dotted with
    | some (resource, attr) => stack.attributeOf resource attr
    | none => Intrinsic.getAtt.reject (.notDotted dotted)
  | _ => do
    let parts ← Intrinsic.getAtt.askStrings 2 arg
    stack.attributeOf parts[0] parts[1]

/-- `Fn::FindInMap`: the entry of a look-up table. -/
def callFindInMap (stack : Stack) (arg : Value) : Plan Value := do
  let path ← Intrinsic.findInMap.askStrings 3 arg
  stack.tableEntry path[0] path[1] path[2]

/-- The items to be joined without a delimiter: the whole argument is the list (`join_list`). -/
def joinWhole (arg : Value) : Plan (String × List Value) := do
  match ← ask arg with
  | .list items => return ("", items)
  | found => Intrinsic.join.reject (.notList found.kind)

/-- The delimiter and the items of a join.  A list of two items whose second one resolves to
a list is a delimiter and the items; any other argument is itself the list of items. -/
def joinParts (arg : Value) : Plan (String × List Value) :=
  match arg with
  | .list [delimiter, list] => do
    match ← ask list with
    | .list items => return (← Intrinsic.join.askString .delimiter delimiter, items)
    | _ => joinWhole arg
  | _ => joinWhole arg

/-- `Fn::Join`: the strings with the delimiter between them; nulls are left out. -/
def callJoin (arg : Value) : Plan Value := do
  let (delimiter, items) ← joinParts arg
  match joinTexts items with
  | .ok texts => return .string (delimiter.intercalate texts)
  | .error found => Intrinsic.join.reject (.itemNotString found)

/-- `Fn::Select`: the item at an index, and null out of range. -/
def callSelect (arg : Value) : Plan Value :=
  match arg with
  | .list [index, list] => do
    match indexOf? (← ask index) with
    | none => Intrinsic.select.reject .indexNotInteger
    | some i =>
      match ← ask list with
      | .list items => return itemAt items i
      | _ => Intrinsic.select.reject .secondNotList
  | _ => Intrinsic.select.reject (.notArguments 2)

/-- `Fn::Split`: the fields of a text between the delimiters. -/
def callSplit (arg : Value) : Plan Value := do
  let parts ← Intrinsic.split.askStrings 2 arg
  return .list ((Text.splitString parts[0] parts[1]).map .string)

/-- The text for a placeholder (`placeholder_value`).  The variables of the call come first,
then the pseudo parameters, then `resource.attribute`, and then whatever a reference stands
for. -/
def placeholderText (stack : Stack) (bindings : Entries) (name : String) : Plan String := do
  let value ← match bindings.lookup name with
    | some v => ask v
    | none =>
      match PseudoParameter.ofName? name with
      | some pseudo => pure (stack.context.pseudoValue pseudo)
      | none =>
        match Text.cutString? "." name with
        | some (resource, attr) => stack.attributeOf resource attr
        | none => stack.reference name
  match value.plainText? with
  | some text => return text
  | none => Intrinsic.sub.reject (.placeholderIsMapping name)

/-- `Fn::Sub`: a template with its placeholders filled in.  The variables are read as they
are written, and one that is no placeholder is never resolved. -/
def callSub (stack : Stack) (arg : Value) : Plan Value :=
  let fill (template : Value) (bindings : Entries) : Plan Value := do
    let text ← Intrinsic.sub.askString .template template
    return .string (← Placeholder.render text (stack.placeholderText bindings))
  match arg with
  | .list [template, .mapping bindings] => fill template bindings
  | .list _ => Intrinsic.sub.reject .notTemplate
  | _ => fill arg []

/-- `Fn::Base64`: the encoded octets of a text (`encode_base64`). -/
def callBase64 (arg : Value) : Plan Value := do
  return .string (Base64.encodeString (← Intrinsic.base64.askString .argument arg))

/-- `Fn::Equals`: structural equality. -/
def callEquals (arg : Value) : Plan Value :=
  match arg with
  | .list [a, b] => do
    let x ← ask a
    let y ← ask b
    return .boolean (x.same y)
  | _ => Intrinsic.equals.reject (.notArguments 2)

/-- `Fn::And` and `Fn::Or`: both operands, and then `op`. -/
def callBoolean (f : Intrinsic) (op : Bool → Bool → Bool) (arg : Value) : Plan Value :=
  match arg with
  | .list [a, b] => do
    let x ← f.askBoolean a
    let y ← f.askBoolean b
    return .boolean (op x y)
  | _ => f.reject (.notArguments 2)

/-- `Fn::Not`: the operand passed on or inverted, as the settings say. -/
def callNot (stack : Stack) (arg : Value) : Plan Value :=
  match arg with
  | .list [operand] =>
    match stack.config.negation with
    | .passthrough => ask operand
    | .invert => do return .boolean (!(← Intrinsic.not.askBoolean operand))
  | _ => Intrinsic.not.reject (.notArguments 1)

/-- `Fn::If`: both branches are resolved, and the condition picks one. -/
def callIf (stack : Stack) (arg : Value) : Plan Value :=
  match arg with
  | .list [name, ifTrue, ifFalse] => do
    let name ← Intrinsic.ifElse.askString .conditionName name
    let whenTrue ← ask ifTrue
    let whenFalse ← ask ifFalse
    return if ← stack.condition name then whenTrue else whenFalse
  | _ => Intrinsic.ifElse.reject (.notArguments 3)

/-- `Condition`: whether a declared condition holds. -/
def callCondition (stack : Stack) (arg : Value) : Plan Value := do
  return .boolean (← stack.condition (← Intrinsic.condition.askString .conditionName arg))

/-- What a function does with its argument. -/
def call (stack : Stack) : Intrinsic → Value → Plan Value
  | .ref, arg => stack.callRef arg
  | .getAtt, arg => stack.callGetAtt arg
  | .findInMap, arg => stack.callFindInMap arg
  | .join, arg => callJoin arg
  | .select, arg => callSelect arg
  | .split, arg => callSplit arg
  | .sub, arg => stack.callSub arg
  | .base64, arg => callBase64 arg
  | .getAzs, _ => .fail (.notImplemented .getAzs)
  | .importValue, _ => .fail (.notImplemented .importValue)
  | .equals, arg => callEquals arg
  | .and, arg => callBoolean .and and arg
  | .or, arg => callBoolean .or or arg
  | .not, arg => stack.callNot arg
  | .ifElse, arg => stack.callIf arg
  | .condition, arg => stack.callCondition arg

end Stack
end StackTemplate
