import StackTemplate.Value.Basic

/-!
# Intrinsic functions

A template calls a function by a mapping with exactly one entry, whose key is the function's
name and whose value is the argument.  Every other mapping is data.  The names are in section
11 of the specification, and what the functions do is in section 4.2.

A function may leave some arguments unclaimed; a mapping with such an argument is data too.
Only `Condition` does so: its name is also a common key of policy documents, so it claims a
name or a call that may compute one, and nothing else.
-/

namespace StackTemplate

/-- An intrinsic function. -/
inductive Intrinsic where
  | ref
  | getAtt
  | findInMap
  | join
  | select
  | split
  | sub
  | base64
  | getAzs
  | importValue
  | equals
  | and
  | or
  | not
  | ifElse
  | condition
deriving DecidableEq

namespace Intrinsic

def all : List Intrinsic :=
  [.ref, .getAtt, .findInMap, .join, .select, .split, .sub, .base64, .getAzs, .importValue,
    .equals, .and, .or, .not, .ifElse, .condition]

/-- The key that calls the function. -/
def name : Intrinsic → String
  | .ref => "Ref"
  | .getAtt => "Fn::GetAtt"
  | .findInMap => "Fn::FindInMap"
  | .join => "Fn::Join"
  | .select => "Fn::Select"
  | .split => "Fn::Split"
  | .sub => "Fn::Sub"
  | .base64 => "Fn::Base64"
  | .getAzs => "Fn::GetAZs"
  | .importValue => "Fn::ImportValue"
  | .equals => "Fn::Equals"
  | .and => "Fn::And"
  | .or => "Fn::Or"
  | .not => "Fn::Not"
  | .ifElse => "Fn::If"
  | .condition => "Condition"

/-- The shapes of argument that the function understands. -/
def signature : Intrinsic → String
  | .ref => "name"
  | .getAtt => "[resource, attribute] | \"resource.attribute\""
  | .findInMap => "[mapping, key, attribute]"
  | .join => "[delimiter, [values...]] | [values...]"
  | .select => "[index, [values...]]"
  | .split => "[delimiter, string]"
  | .sub => "string | [string, \x7bvariables\x7d]"
  | .base64 => "string"
  | .getAzs => "region"
  | .importValue => "export name"
  | .equals => "[a, b]"
  | .and => "[a, b]"
  | .or => "[a, b]"
  | .not => "[a]"
  | .ifElse => "[condition, if_true, if_false]"
  | .condition => "condition"

/-- What the function gives, in a few words. -/
def description : Intrinsic → String
  | .ref => "Pseudo parameter, parameter value or resource reference"
  | .getAtt => "Synthesized attribute of a resource"
  | .findInMap => "Lookup in the Mappings section"
  | .join => "Concatenate strings; no-value elements are dropped"
  | .select => "Element at a zero-based index"
  | .split => "Literal split into a list"
  | .sub => "Substitute $\x7b...\x7d placeholders"
  | .base64 => "Standard base64 of the UTF-8 bytes"
  | .getAzs => "Availability zones (not implemented)"
  | .importValue => "Cross-stack import (not implemented)"
  | .equals => "Structural equality"
  | .and => "Boolean AND, both sides evaluated"
  | .or => "Boolean OR, both sides evaluated"
  | .not => "Operand value (passthrough) or its inversion, per configuration"
  | .ifElse => "Branch on a declared condition"
  | .condition => "Boolean value of a declared condition"

/-- The function that a key calls. -/
def ofName? (key : String) : Option Intrinsic := all.find? (·.name == key)

/-- The function takes this argument; a call with any other argument is data.  This is
`name_argument` for `Condition`, and `any_argument` for every other function. -/
def claims : Intrinsic → Value → Bool
  | .condition, .string _ => true
  | .condition, .mapping [(key, _)] => (ofName? key).isSome
  | .condition, _ => false
  | _, _ => true

/-- The function and the argument of a mapping that is a call (`single_entry`, `claims`). -/
def ofCall? : Entries → Option (Intrinsic × Value)
  | [(key, arg)] =>
    match ofName? key with
    | some f => if f.claims arg then some (f, arg) else none
    | none => none
  | _ => none

theorem mem_all (f : Intrinsic) : f ∈ all := by cases f <;> decide

theorem ofName?_name (f : Intrinsic) : ofName? f.name = some f := by cases f <;> decide

theorem name_of_ofName? {key : String} {f : Intrinsic} (h : ofName? key = some f) :
    f.name = key := by
  simpa using List.find?_some h

/-- A mapping is a call iff it has one entry, whose key names a function that claims the
entry's value. -/
theorem ofCall?_eq_some_iff {entries : Entries} {f : Intrinsic} {arg : Value} :
    ofCall? entries = some (f, arg) ↔ entries = [(f.name, arg)] ∧ f.claims arg = true := by
  constructor
  · intro h
    match entries, h with
    | [(key, v)], h =>
      rw [ofCall?] at h
      split at h
      · next g hg =>
        split at h
        · next hc =>
          cases h
          exact ⟨by rw [name_of_ofName? hg], hc⟩
        · cases h
      · cases h
  · rintro ⟨rfl, hc⟩
    simp [ofCall?, ofName?_name, hc]

end Intrinsic
end StackTemplate
