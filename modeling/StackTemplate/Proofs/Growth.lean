import StackTemplate.Proofs.NameCell
import StackTemplate.Resolution.Operation

/-!
# A session only grows

Whatever is carried out in a session, and whether it ends with a value or an error, the
session afterwards is the session before with perhaps more display names: the depth and the
marks of names being worked out are back where they were, and no known name is lost.

The one step that writes is the display name of a resource.  `displayName_cases` says once
what it can do: a known name is given, a name that is being worked out is an error, and any
other is worked out.

* `naming`: working out a name is itself a plan, so what holds of plans holds of names.
* `Session.Grows`: the order between the session before and the session after.
* `perform_grows`: every plan, hence every operation, only lets the session grow.
-/

namespace StackTemplate

/-! ## 1. Names as plans -/

namespace Resource

/-- How a display name is worked out: the first of the properties `keys` that is present is
resolved, and a string is the name. -/
def naming (r : Resource) (keys : List String) : Plan String :=
  match r.firstProperty? keys with
  | none => .done r.name
  | some property => .resolve property fun
    | .string name => .done name
    | .null => .done r.name
    | found => .fail (.invalidName r.name (.notString found))

/-- Working out a name is carrying out its plan. -/
theorem nameFrom_eq_run (r : Resource) (keys : List String)
    (answer : Value → Run Session Value) :
    r.nameFrom keys answer = (r.naming keys).run answer := by
  unfold nameFrom naming
  cases r.firstProperty? keys with
  | none => rfl
  | some property =>
    simp only [Plan.run]
    congr 1
    funext v
    cases v <;> rfl

end Resource

namespace Session

/-- The session in which the name of the resource `name` is being worked out. -/
def mark (s : Session) (name : String) : Session := s.setCell name ⟨none, true⟩

/-- The session after the name of the resource `name` has been worked out, or could not be. -/
def close (s : Session) (name : String) (outcome : Except ResolutionError String) : Session :=
  s.setCell name ⟨outcome.toOption, false⟩

@[simp] theorem setCell_cells (s : Session) (name other : String) (cell : NameCell) :
    (s.setCell name cell).cells other = if other = name then cell else s.cells other := rfl

/-! ## 2. The order of growth -/

/-- The session `s'` is `s` with perhaps more display names. -/
structure Grows (s s' : Session) : Prop where
  depth : s'.depth = s.depth
  pending : ∀ name, (s'.cells name).pending = (s.cells name).pending
  known : ∀ name display, (s.cells name).known = some display →
    (s'.cells name).known = some display
  /-- The cell of a name that is being worked out is not written. -/
  guarded : ∀ name, (s.cells name).pending = true → s'.cells name = s.cells name

theorem Grows.refl (s : Session) : s.Grows s :=
  ⟨rfl, fun _ => rfl, fun _ _ h => h, fun _ _ => rfl⟩

theorem Grows.trans {s s₁ s₂ : Session} (h : s.Grows s₁) (h' : s₁.Grows s₂) : s.Grows s₂ where
  depth := h'.depth.trans h.depth
  pending name := (h'.pending name).trans (h.pending name)
  known name display hd := h'.known name display (h.known name display hd)
  guarded name hp := by
    have hp₁ : (s₁.cells name).pending = true := (h.pending name).trans hp
    exact (h'.guarded name hp₁).trans (h.guarded name hp)

/-- Working out a name, from the mark to the end, is growth if everything between is. -/
theorem Grows.close {s s₁ : Session} {name : String} (hc : s.cells name = .fresh)
    (h : (s.mark name).Grows s₁) (outcome : Except ResolutionError String) :
    s.Grows (s₁.close name outcome) where
  depth := h.depth
  pending other := by
    by_cases ho : other = name
    · subst ho
      simp [Session.close, hc, NameCell.fresh]
    · have := h.pending other
      simpa [Session.close, Session.mark, ho] using this
  known other display hd := by
    by_cases ho : other = name
    · subst ho
      rw [hc] at hd
      cases hd
    · have := h.known other display (by simpa [Session.mark, ho] using hd)
      simpa [Session.close, ho] using this
  guarded other hp := by
    by_cases ho : other = name
    · subst ho
      rw [hc] at hp
      cases hp
    · have := h.guarded other (by simpa [Session.mark, ho] using hp)
      simpa [Session.close, Session.mark, ho] using this

end Session

/-- One level deeper and back again. -/
theorem Session.Grows.deeper {s s' : Session} (h : { s with depth := s.depth + 1 }.Grows s') :
    s.Grows { s' with depth := s'.depth - 1 } where
  depth := by
    have hd : s'.depth = s.depth + 1 := h.depth
    rw [hd, Nat.add_sub_cancel]
  pending := h.pending
  known := h.known
  guarded := h.guarded

/-- The run only lets the session grow. -/
def Run.Grows {α : Type} (x : Run Session α) : Prop := ∀ s : Session, s.Grows (x s).2

theorem Run.Grows.pure {α : Type} (a : α) : Run.Grows (Pure.pure a) := fun s => .refl s

theorem Run.Grows.throw {α : Type} (e : ResolutionError) :
    Run.Grows (MonadExcept.throw e : Run Session α) := fun s => .refl s

theorem Run.Grows.bind {α β : Type} {x : Run Session α} {f : α → Run Session β}
    (hx : Run.Grows x) (hf : ∀ a, Run.Grows (f a)) : Run.Grows (x >>= f) := by
  intro s
  have hs := hx s
  rcases h : x s with ⟨e | a, s₁⟩
  · rw [Run.bind_error h]
    rw [h] at hs
    exact hs
  · rw [Run.bind_ok h]
    rw [h] at hs
    exact hs.trans (hf a s₁)

theorem Session.deeper_grows {α : Type} {body : Run Session α} (h : Run.Grows body) :
    Run.Grows (Session.deeper body) :=
  fun s => (h { s with depth := s.depth + 1 }).deeper

/-! ## 3. What asking for a display name can do -/

namespace Resource

variable {answer : Value → Run Session Value} (r : Resource) (keys : List String) {s : Session}

/-- A known name is given at once. -/
theorem displayName_of_known {name : String} (hk : (s.cells r.name).known = some name) :
    r.displayName (Session.place r.name) keys answer s = (.ok name, s) :=
  r.displayName_eq_of_known keys hk

/-- A name that is being worked out refers to itself. -/
theorem displayName_of_pending (hk : (s.cells r.name).known = none)
    (hp : (s.cells r.name).pending = true) :
    r.displayName (Session.place r.name) keys answer s =
      (.error (.invalidName r.name .refersToItself), s) :=
  r.displayName_eq_of_pending keys hk hp

/-- Any other name is worked out with the mark set, after which the mark is gone and the name,
if there is one, is known. -/
theorem displayName_of_fresh (hc : s.cells r.name = .fresh)
    (hn : (s.mark r.name).Grows ((r.naming keys).run answer (s.mark r.name)).2)
    {outcome : Except ResolutionError String} {s₁ : Session}
    (hrun : (r.naming keys).run answer (s.mark r.name) = (outcome, s₁)) :
    r.displayName (Session.place r.name) keys answer s = (outcome, s₁.close r.name outcome) := by
  -- the mark keeps every nested request from writing the cell
  have hcell : (Session.place r.name).look s₁ = ⟨none, true⟩ := by
    rw [hrun] at hn
    have hguard := hn.guarded r.name (by simp [Session.mark])
    exact hguard.trans (by simp [Session.mark])
  rw [← nameFrom_eq_run] at hrun
  exact r.displayName_eq_of_free keys (congrArg NameCell.known hc) (congrArg NameCell.pending hc)
    hrun hcell

/-- **Asking for a display name** does one of the three. -/
theorem displayName_cases (s : Session)
    (hn : s.cells r.name = .fresh →
      (s.mark r.name).Grows ((r.naming keys).run answer (s.mark r.name)).2) :
    (∃ name, (s.cells r.name).known = some name ∧
      r.displayName (Session.place r.name) keys answer s = (.ok name, s)) ∨
    ((s.cells r.name).known = none ∧ (s.cells r.name).pending = true ∧
      r.displayName (Session.place r.name) keys answer s =
        (.error (.invalidName r.name .refersToItself), s)) ∨
    (s.cells r.name = .fresh ∧ ∃ outcome s₁,
      (r.naming keys).run answer (s.mark r.name) = (outcome, s₁) ∧
      r.displayName (Session.place r.name) keys answer s =
        (outcome, s₁.close r.name outcome)) := by
  rcases hc : s.cells r.name with ⟨known, pending⟩
  cases known with
  | some name => exact Or.inl ⟨name, rfl, r.displayName_of_known keys (by rw [hc])⟩
  | none =>
    cases pending with
    | true =>
      exact Or.inr (Or.inl ⟨rfl, rfl, r.displayName_of_pending keys (by rw [hc]) (by rw [hc])⟩)
    | false => exact Or.inr (Or.inr ⟨rfl, _, _, rfl, r.displayName_of_fresh keys hc (hn hc) rfl⟩)

end Resource

theorem Resource.displayName_grows {answer : Value → Run Session Value} (r : Resource)
    (keys : List String) (hn : Run.Grows ((r.naming keys).run answer)) :
    Run.Grows (r.displayName (Session.place r.name) keys answer) := by
  intro s
  rcases r.displayName_cases keys s (fun _ => hn _) with
    ⟨name, -, h⟩ | ⟨-, -, h⟩ | ⟨hc, outcome, s₁, hrun, h⟩
  · rw [h]
    exact .refl s
  · rw [h]
    exact .refl s
  · rw [h]
    have hs := hn (s.mark r.name)
    rw [hrun] at hs
    exact hs.close hc outcome

/-! ## 4. Plans, resolution and operations -/

namespace Plan

variable {α : Type} {answer : Value → Run Session Value}

/-- Asking for a value is resolving it. -/
theorem run_ask (answer : Value → Run Session Value) (v : Value) :
    (ask v).run answer = answer v :=
  bind_pure (answer v)

/-- One plan after another, when the first ends with a value. -/
theorem run_bind_ok {β : Type} {x : Plan α} {f : α → Plan β} {s s₁ : Session} {a : α}
    (h : x.run answer s = (.ok a, s₁)) : (x >>= f).run answer s = (f a).run answer s₁ := by
  rw [run_bind, Run.bind_ok h]

theorem naming_run_grows (h : ∀ v, Run.Grows (answer v)) (r : Resource) (keys : List String) :
    Run.Grows ((r.naming keys).run answer) := by
  unfold Resource.naming
  cases r.firstProperty? keys with
  | none => exact .pure _
  | some property =>
    refine Run.Grows.bind (h property) fun v => ?_
    cases v with
    | string name => exact .pure _
    | null => exact .pure _
    | boolean | number | list | mapping => exact .throw _

/-- A plan only lets the session grow, if resolving a value does. -/
theorem run_grows (h : ∀ v, Run.Grows (answer v)) (plan : Plan α) :
    Run.Grows (plan.run answer) := by
  induction plan with
  | done a => exact .pure a
  | fail e => exact .throw e
  | resolve v next ih => exact Run.Grows.bind (h v) ih
  | name r keys next ih =>
    exact Run.Grows.bind (r.displayName_grows keys (naming_run_grows h r keys)) ih

end Plan

namespace Stack

theorem resolveWithin_grows (stack : Stack) (levels : Nat) (v : Value) :
    Run.Grows (stack.resolveWithin levels v) := by
  induction levels generalizing v with
  | zero => exact .throw _
  | succ levels ih => exact Session.deeper_grows (Plan.run_grows ih (stack.plan v))

/-- **Carrying out a plan only lets the session grow.** -/
theorem perform_grows {α : Type} (stack : Stack) (plan : Plan α) (s : Session) :
    s.Grows (stack.perform plan s).2 :=
  Plan.run_grows (stack.resolveWithin_grows _) plan s

/-- ...and so does a run of operations, whatever their outcomes. -/
theorem after_grows (stack : Stack) (ops : List Operation) (s : Session) :
    s.Grows (stack.after ops s) := by
  induction ops generalizing s with
  | nil => exact .refl s
  | cons op ops ih => exact (stack.perform_grows (op.plan stack) s).trans (ih _)

end Stack
end StackTemplate
