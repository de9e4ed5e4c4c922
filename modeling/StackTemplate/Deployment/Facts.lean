import StackTemplate.Text.Blank
import StackTemplate.Text.Cut
import StackTemplate.Value.Basic

/-!
# Deployment facts

What the caller says about the deployment: the account, the region, the name of the stack
and the addresses that are notified.  Facts are read from a value or from the environment
and written back as a value; whether they are complete is asked only when a deployment
context is built from them.
-/

namespace StackTemplate

/-- The values of environment variables. -/
abbrev Environment := String → Option String

/-- The caller's facts about a deployment. -/
structure Facts where
  accountId : String
  region : String
  stackName : String
  notificationArns : List String
deriving DecidableEq

/-- The facts that a deployment cannot do without. -/
inductive RequiredFact where
  | accountId | region | stackName
deriving DecidableEq

namespace RequiredFact

/-- The word for a fact in messages. -/
def word : RequiredFact → String
  | .accountId => "account_id"
  | .region => "region"
  | .stackName => "stack_name"

end RequiredFact

namespace Facts

/-- The first required fact that is blank, in the order account, region, stack name. -/
def firstBlank? (f : Facts) : Option RequiredFact :=
  if Text.isBlankText f.accountId then some .accountId
  else if Text.isBlankText f.region then some .region
  else if Text.isBlankText f.stackName then some .stackName
  else none

/-! ## Reading and writing -/

/-- Facts from a mapping, where only `notificationArns` may be absent, or from a list of the
three or four values in order. -/
def ofValue? : Value → Option Facts
  | .mapping entries => do
    let accountId ← (← entries.lookup "accountId").asString?
    let region ← (← entries.lookup "region").asString?
    let stackName ← (← entries.lookup "stackName").asString?
    let arns ← match entries.lookup "notificationArns" with
      | some v => v.asStrings?
      | none => some []
    return ⟨accountId, region, stackName, arns⟩
  | .list [.string accountId, .string region, .string stackName] =>
    some ⟨accountId, region, stackName, []⟩
  | .list [.string accountId, .string region, .string stackName, arns] =>
    arns.asStrings?.map fun arns => ⟨accountId, region, stackName, arns⟩
  | _ => none

/-- The mapping that `ofValue?` reads back. -/
def toValue (f : Facts) : Value :=
  .mapping [
    ("accountId", .string f.accountId),
    ("region", .string f.region),
    ("stackName", .string f.stackName),
    ("notificationArns", .list (f.notificationArns.map .string))]

/-- Facts from the environment (`from_env`).  An absent variable counts as empty; the
notification addresses are separated by commas, trimmed, and dropped when empty. -/
def ofEnvironment (env : Environment) : Facts :=
  let read (name : String) : String := (env name).getD ""
  { accountId := read "TEMPLATE_DEREF_ACCOUNT_ID"
    region := read "TEMPLATE_DEREF_REGION"
    stackName := read "TEMPLATE_DEREF_STACK_NAME"
    notificationArns :=
      (Text.splitString "," (read "TEMPLATE_DEREF_NOTIFICATION_ARNS")).filterMap
        fun field =>
          let arn := Text.trimmed field
          if arn.isEmpty then none else some arn }

end Facts
end StackTemplate
