import StackTemplate.Deployment.Context
import StackTemplate.Intrinsic.Basic
import StackTemplate.Value.Printer

/-!
# Errors of resolution

Every way in which a resolution can fail, by cause, and the message for each.  A key that
calls no function is data and never a cause: each of these means that a known construct was
misused, or that a name it uses is not declared (sections 7 and 15 of the specification).
-/

namespace StackTemplate

/-- The part that an argument plays in a call. -/
inductive ArgumentRole where
  | name | argument | delimiter | template | conditionName
deriving DecidableEq

namespace ArgumentRole

/-- The words for a part in messages. -/
def word : ArgumentRole → String
  | .name => "name"
  | .argument => "argument"
  | .delimiter => "delimiter"
  | .template => "template"
  | .conditionName => "condition name"

end ArgumentRole

/-- What is wrong with the argument of a call: the reason in an `InvalidArguments`. -/
inductive ArgumentFault where
  /-- Not a list of `count` items as it is written. -/
  | notArguments (count : Nat)
  /-- Does not resolve to a list of `count` strings. -/
  | notStrings (count : Nat)
  | notString (role : ArgumentRole) (found : ValueKind)
  | notBoolean (found : ValueKind)
  /-- A string that should name a resource and an attribute has no point. -/
  | notDotted (text : String)
  /-- An item to be joined is neither a string nor the no-value. -/
  | itemNotString (found : ValueKind)
  | notList (found : ValueKind)
  | indexNotInteger
  | secondNotList
  /-- A list that is not a template string with a mapping of variables. -/
  | notTemplate
  /-- The value of a placeholder has no text. -/
  | placeholderIsMapping (name : String)
deriving DecidableEq

namespace ArgumentFault

/-- The message for a fault, without the function's name. -/
def message : ArgumentFault → String
  | .notArguments count => String.join ["expected a list of ", count.repr, " arguments"]
  | .notStrings count => String.join ["expected a list of ", count.repr, " strings"]
  | .notString role found => String.join [role.word, " must be a string, got ", found.word]
  | .notBoolean found => String.join ["operand must be a boolean, got ", found.word]
  | .notDotted text => String.join ["'", text, "' is not resource.attribute"]
  | .itemNotString found => String.join ["list element must be a string, got ", found.word]
  | .notList found => String.join ["expected a list, got ", found.word]
  | .indexNotInteger => "index is not an integer"
  | .secondNotList => "second argument is not a list"
  | .notTemplate => "expected a string or [string, \x7bvariables\x7d]"
  | .placeholderIsMapping name =>
    String.join ["placeholder '$\x7b", name, "\x7d' resolved to a mapping"]

end ArgumentFault

/-- Why a resource has no display name: the reason in an `InvalidResourceName`. -/
inductive NameFault where
  /-- The name is asked for while it is being resolved. -/
  | refersToItself
  /-- The name property resolves to something else than a string. -/
  | notString (found : Value)

namespace NameFault

/-- The message for a fault, without the resource's name. -/
def message : NameFault → String
  | .refersToItself => "name refers to itself"
  | .notString found => String.join ["resolved to a non-string: ", found.text]

end NameFault

/-- Why a value cannot be resolved (`ResolveError`). -/
inductive ResolutionError where
  | invalidArguments (function : Intrinsic) (fault : ArgumentFault)
  | unresolvedReference (name : String)
  | unknownResource (name : String)
  | unsupportedKind (resource typeName : String)
  | unknownAttribute (resource typeName attr : String)
  | invalidName (resource : String) (fault : NameFault)
  | mappingLookup (mapping key attr : String)
  | unknownCondition (name : String)
  | conditionNotBoolean (condition : String) (found : Value)
  | unsupportedParameterType (parameter declared : String)
  | invalidParameterValue (parameter value : String)
  | missingParameterValue (parameter : String)
  | notImplemented (function : Intrinsic)
  | depthExceeded (limit : Nat)
  | context (error : ContextError)

namespace ResolutionError

/-- The message for a cause. -/
def message : ResolutionError → String
  | .invalidArguments function fault => String.join [function.name, ": ", fault.message]
  | .unresolvedReference name =>
    String.join ["Unresolved reference: '", name,
      "' is not a parameter, resource or pseudo parameter"]
  | .unknownResource name => String.join ["Unknown resource: '", name, "'"]
  | .unsupportedKind resource typeName =>
    String.join ["Unsupported resource kind '", typeName, "' for resource '", resource, "'"]
  | .unknownAttribute resource typeName attr =>
    String.join ["Resource '", resource, "' of kind '", typeName, "' has no attribute '", attr,
      "'"]
  | .invalidName resource fault =>
    String.join ["Invalid name for resource '", resource, "': ", fault.message]
  | .mappingLookup mapping key attr =>
    String.join ["Mapping lookup failed: [", mapping, "][", key, "][", attr, "]"]
  | .unknownCondition name => String.join ["Unknown condition: '", name, "'"]
  | .conditionNotBoolean condition found =>
    String.join ["Condition '", condition, "' did not evaluate to a boolean (got ", found.text,
      ")"]
  | .unsupportedParameterType parameter declared =>
    String.join ["Parameter '", parameter, "' has unsupported type '", declared, "'"]
  | .invalidParameterValue parameter value =>
    String.join ["Parameter '", parameter, "' value '", value, "' is invalid: not a number"]
  | .missingParameterValue parameter =>
    String.join ["Parameter '", parameter, "' has no supplied value and no default"]
  | .notImplemented function => String.join [function.name, " is not implemented"]
  | .depthExceeded limit =>
    String.join ["Resolution exceeded the maximum nesting depth of ", limit.repr]
  | .context error => error.message

/-- The resource is of a kind whose values cannot be made up. -/
def isUnsupportedKind : ResolutionError → Bool
  | .unsupportedKind _ _ => true
  | _ => false

end ResolutionError
end StackTemplate
