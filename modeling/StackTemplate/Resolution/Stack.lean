import StackTemplate.Deployment.Config
import StackTemplate.Parameter
import StackTemplate.Resolution.Plan
import StackTemplate.Resource.Values

/-!
# Stacks

A stack is a template together with all it is resolved against: the deployment context, the
texts supplied for its parameters, and the settings.  This module says what the names of a
stack mean: what a reference stands for, what an attribute of a resource is, what a look-up
table has, and whether a condition holds.  Each is a plan, because a resource's display name
and a condition's expression have to be resolved.
-/

namespace StackTemplate

/-- A template and what it is resolved against. -/
structure Stack where
  template : Template
  context : Context
  /-- The texts supplied for parameters. -/
  supplied : List (String × String)
  config : Config

namespace Stack

/-- The values of a declared resource, by its kind and display name (`return_values`). -/
def valuesOf (stack : Stack) (r : Resource) : Plan ResourceValues :=
  match ResourceKind.ofTypeName? r.typeName with
  | none => .fail (.unsupportedKind r.name r.typeName)
  | some kind =>
    .name r kind.namingProperties fun name => .done (kind.values name stack.context)

/-- What a reference stands for (`reference`).  A pseudo parameter comes before a declared
parameter, and that before a resource. -/
def reference (stack : Stack) (name : String) : Plan Value :=
  match PseudoParameter.ofName? name with
  | some pseudo => .done (stack.context.pseudoValue pseudo)
  | none =>
    match stack.template.parameter? name with
    | some declaration =>
      .ofExcept (Parameter.value name declaration (stack.supplied.lookup name))
    | none =>
      match stack.template.resource? name with
      | some r => do return .string (← stack.valuesOf r).reference
      | none => .fail (.unresolvedReference name)

/-- An attribute of a declared resource (`attribute`). -/
def attributeOf (stack : Stack) (resource attr : String) : Plan Value :=
  match stack.template.resource? resource with
  | none => .fail (.unknownResource resource)
  | some r => do
    match (← stack.valuesOf r).attribute? attr with
    | some text => return .string text
    | none => .fail (.unknownAttribute resource r.typeName attr)

/-- The entry of a look-up table, as it is written. -/
def tableEntry (stack : Stack) (mapping key attr : String) : Plan Value :=
  match stack.template.mappingEntry? mapping key attr with
  | some v => .done v
  | none => .fail (.mappingLookup mapping key attr)

/-- Whether a declared condition holds (`condition`). -/
def condition (stack : Stack) (name : String) : Plan Bool :=
  match stack.template.condition? name with
  | none => .fail (.unknownCondition name)
  | some expression => do
    match ← Plan.ask expression with
    | .boolean b => return b
    | found => .fail (.conditionNotBoolean name found)

end Stack
end StackTemplate
