import StackTemplate.Resolution.Session

/-!
# Plans

What a call does is a plan: it ends with a value or an error, or it makes a request and goes
on with the answer.  There are two requests: the value of a part of the template, and the
display name of a resource.

A plan says nothing about depth or about names that are already known.  `Plan.run` answers
its requests in a session, given a way to resolve values, so all that holds of any plan in a
session holds of every intrinsic function.
-/

namespace StackTemplate

/-- A computation that asks for values and display names. -/
inductive Plan (α : Type) where
  | done (result : α)
  | fail (error : ResolutionError)
  /-- The value of a part of the template. -/
  | resolve (v : Value) (next : Value → Plan α)
  /-- The display name of a resource, from the properties `keys`. -/
  | name (r : Resource) (keys : List String) (next : String → Plan α)

namespace Plan

variable {α β : Type}

/-- One plan after another. -/
protected def bind : Plan α → (α → Plan β) → Plan β
  | .done a, f => f a
  | .fail e, _ => .fail e
  | .resolve v next, f => .resolve v fun w => (next w).bind f
  | .name r keys next, f => .name r keys fun n => (next n).bind f

instance : Monad Plan where
  pure := .done
  bind := Plan.bind

/-- Ask for the value of a part of the template. -/
def ask (v : Value) : Plan Value := .resolve v .done

/-- An outcome that is known without asking. -/
def ofExcept : Except ResolutionError α → Plan α
  | .ok a => .done a
  | .error e => .fail e

/-- Carry out a plan, resolving values by `answer`. -/
def run (answer : Value → Run Session Value) : Plan α → Run Session α
  | .done a => pure a
  | .fail e => throw e
  | .resolve v next => answer v >>= fun w => (next w).run answer
  | .name r keys next =>
    r.displayName (Session.place r.name) keys answer >>= fun n => (next n).run answer

protected theorem bind_done (x : Plan α) : x.bind .done = x := by
  induction x with
  | done a => rfl
  | fail e => rfl
  | resolve v next ih => simp [Plan.bind, ih]
  | name r keys next ih => simp [Plan.bind, ih]

protected theorem bind_assoc {γ : Type} (x : Plan α) (f : α → Plan β) (g : β → Plan γ) :
    (x.bind f).bind g = x.bind fun a => (f a).bind g := by
  induction x with
  | done a => rfl
  | fail e => rfl
  | resolve v next ih => simp [Plan.bind, ih]
  | name r keys next ih => simp [Plan.bind, ih]

instance : LawfulMonad Plan :=
  LawfulMonad.mk' Plan (fun x => Plan.bind_done x) (fun _ _ => rfl)
    (fun x f g => Plan.bind_assoc x f g)

/-- Carrying out one plan after another is carrying out the one and then the other. -/
theorem run_bind (answer : Value → Run Session Value) (x : Plan α) (f : α → Plan β) :
    (x >>= f).run answer = x.run answer >>= fun a => (f a).run answer := by
  change (x.bind f).run answer = _
  induction x with
  | done a => simp [Plan.bind, run]
  | fail e => rfl
  | resolve v next ih => simp [Plan.bind, run, ih]
  | name r keys next ih => simp [Plan.bind, run, ih]

end Plan
end StackTemplate
