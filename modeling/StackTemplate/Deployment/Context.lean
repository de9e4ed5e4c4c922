import StackTemplate.Deployment.Facts
import StackTemplate.Identity.Uuid
import StackTemplate.Instant
import StackTemplate.Text.Affix

/-!
# The deployment context

A context fixes everything a template can ask about its deployment: the facts, the instant
of its creation and one correlation token.  Every identifier that is made up for a resource
is derived from the token and a name, so two look-ups in one context agree.

The pseudo parameters are the built-in names for these values (sections 4.3 and 12 of the
specification).
-/

namespace StackTemplate

/-- Why facts do not make a context. -/
inductive ContextError where
  | missingFact (fact : RequiredFact)
deriving DecidableEq

namespace ContextError

/-- The message for a cause. -/
def message : ContextError → String
  | .missingFact fact =>
    String.join ["Deployment context is missing required field '", fact.word, "'"]

end ContextError

/-- The environment in which a template is resolved. -/
structure Context where
  facts : Facts
  token : Uuid
  createdAt : Instant

namespace Context

/-- A context for complete facts (`with_correlation_token`). -/
def make (facts : Facts) (token : Uuid) (createdAt : Instant) : Except ContextError Context :=
  match facts.firstBlank? with
  | some fact => .error (.missingFact fact)
  | none => .ok ⟨facts, token, createdAt⟩

/-- The first part of all resource names, which depends on the region (`partition`). -/
def partition (c : Context) : String :=
  if Text.startsWith "cn-" c.facts.region then "aws-cn"
  else if Text.startsWith "us-gov-" c.facts.region then "aws-us-gov"
  else "aws"

/-- The domain of the service addresses (`url_suffix`). -/
def urlSuffix (c : Context) : String :=
  if Text.startsWith "cn-" c.facts.region then "amazonaws.com.cn" else "amazonaws.com"

/-- The name of the stack as a resource (`stack_id`). -/
def stackId (c : Context) : String :=
  String.join ["arn:", c.partition, ":cloudformation:", c.facts.region, ":", c.facts.accountId,
    ":stack/", c.facts.stackName, "/", c.token.text]

/-- The identifier made up for a name (`physical_id`). -/
def identifierFor (c : Context) (name : String) : Uuid := c.token.named name

end Context

/-! ## Pseudo parameters -/

/-- The built-in names. -/
inductive PseudoParameter where
  | accountId | region | stackName | stackId | notificationArns | noValue | partition
  | urlSuffix
deriving DecidableEq

namespace PseudoParameter

/-- All pseudo parameters. -/
def all : List PseudoParameter :=
  [.accountId, .region, .stackName, .stackId, .notificationArns, .noValue, .partition,
    .urlSuffix]

/-- The name in references. -/
def name : PseudoParameter → String
  | .accountId => "AWS::AccountId"
  | .region => "AWS::Region"
  | .stackName => "AWS::StackName"
  | .stackId => "AWS::StackId"
  | .notificationArns => "AWS::NotificationARNs"
  | .noValue => "AWS::NoValue"
  | .partition => "AWS::Partition"
  | .urlSuffix => "AWS::URLSuffix"

/-- The pseudo parameter with this name (`from_name`). -/
def ofName? (name : String) : Option PseudoParameter := all.find? (·.name == name)

theorem mem_all (p : PseudoParameter) : p ∈ all := by cases p <;> decide

theorem name_of_ofName? {name : String} {p : PseudoParameter} (h : ofName? name = some p) :
    p.name = name := by
  simpa using List.find?_some h

end PseudoParameter

/-- The value of a pseudo parameter (`pseudo_value`).  The one without a value is null. -/
def Context.pseudoValue (c : Context) : PseudoParameter → Value
  | .accountId => .string c.facts.accountId
  | .region => .string c.facts.region
  | .stackName => .string c.facts.stackName
  | .stackId => .string c.stackId
  | .notificationArns => .list (c.facts.notificationArns.map .string)
  | .noValue => .null
  | .partition => .string c.partition
  | .urlSuffix => .string c.urlSuffix

end StackTemplate
