import StackTemplate.Resolution.Resolve

/-!
# Operations on a stack

What a caller can ask of a stack: to resolve the document or any value, what a name stands
for, whether a condition holds, what a function gives, and the values of a resource.  All
operations on one session share its name cells, so `Stack.after` follows the session through
a run of operations, of which any may fail.

`evaluateDocument` is the short way: one document, one new session, one result (sections 4.5
and 19 of the specification).
-/

namespace StackTemplate

/-- The operations on a stack. -/
inductive Operation where
  /-- Resolve the whole document. -/
  | document
  | resolve (v : Value)
  | reference (name : String)
  | attributeOf (resource attr : String)
  | condition (name : String)
  /-- Call a function by its key, with an argument as it is written. -/
  | call (key : String) (arg : Value)
  /-- The values of a declared resource. -/
  | values (name : String)

/-- What an operation gives. -/
inductive Answer where
  | value (v : Value)
  | values (values : ResourceValues)
  /-- There is no such function or resource. -/
  | nothing

namespace Operation

/-- The plan of an operation. -/
def plan (stack : Stack) : Operation → Plan Answer
  | .document => .value <$> Plan.ask stack.template.document
  | .resolve v => .value <$> Plan.ask v
  | .reference name => .value <$> stack.reference name
  | .attributeOf resource attr => .value <$> stack.attributeOf resource attr
  | .condition name => (fun b => .value (.boolean b)) <$> stack.condition name
  | .call key arg =>
    match Intrinsic.ofName? key with
    | some f => .value <$> stack.call f arg
    | none => pure .nothing
  | .values name =>
    match stack.template.resource? name with
    | some r => .values <$> stack.valuesOf r
    | none => pure .nothing

end Operation

namespace Stack

/-- Carry out an operation in a session. -/
def operate (stack : Stack) (op : Operation) : Run Session Answer :=
  stack.perform (op.plan stack)

/-- The session after a run of operations, whatever their outcomes. -/
def after (stack : Stack) (ops : List Operation) (s : Session) : Session :=
  ops.foldl (fun s op => (stack.operate op s).2) s

/-- The whole document, resolved in a new session (`resolve_template`). -/
def resolvedDocument (stack : Stack) : Except ResolutionError Value :=
  (stack.resolve stack.template.document Session.start).1

end Stack

/-- Resolve a document in one step (`dereference_with`): make the context from the facts and
resolve in a new session. -/
def evaluateDocument (document : Value) (facts : Facts) (supplied : List (String × String))
    (config : Config) (token : Uuid) (now : Instant) : Except ResolutionError Value :=
  match Context.make facts token now with
  | .error e => .error (.context e)
  | .ok context => (Stack.mk ⟨document⟩ context supplied config).resolvedDocument

end StackTemplate
