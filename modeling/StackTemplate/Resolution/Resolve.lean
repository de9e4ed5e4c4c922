import StackTemplate.Resolution.Call

/-!
# Resolution

To resolve a value is to replace every call in it by what the call gives.  A scalar stands
for itself; a list and a mapping that is no call are resolved part by part (section 4.1 of the
specification).

Every value that is resolved takes one level of depth while it is being worked on, whether it
is reached through lists and mappings, through the argument of a call, through a name or
through a condition.  The levels that are left bound the recursion, so a cyclic template ends
with an error instead of never.
-/

namespace StackTemplate
namespace Stack

/-- What it takes to resolve a value: the requests for its parts. -/
def plan (stack : Stack) : Value → Plan Value
  | .list items => .list <$> items.mapM Plan.ask
  | .mapping entries =>
    match Intrinsic.ofCall? entries with
    | some (f, arg) => stack.call f arg
    | none => .mapping <$> entries.mapM fun (key, v) => (key, ·) <$> Plan.ask v
  | scalar => pure scalar

/-- Resolve a value (`resolve`) when `levels` levels are left of the nesting limit of section
16. -/
def resolveWithin (stack : Stack) : Nat → Value → Run Session Value
  | 0, _ => throw (.depthExceeded stack.config.maxDepth)
  | levels + 1, v => Session.deeper ((stack.plan v).run (stack.resolveWithin levels))

/-- The levels that are left in a session. -/
def levelsLeft (stack : Stack) (s : Session) : Nat := stack.config.maxDepth - s.depth

/-- Resolve a value in a session. -/
def resolve (stack : Stack) (v : Value) : Run Session Value := fun s =>
  stack.resolveWithin (stack.levelsLeft s) v s

/-- Carry out a plan in a session.  The plan itself takes no level. -/
def perform {α : Type} (stack : Stack) (plan : Plan α) : Run Session α := fun s =>
  plan.run (stack.resolveWithin (stack.levelsLeft s)) s

end Stack
end StackTemplate
