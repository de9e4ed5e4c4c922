import Mathlib.Data.List.Forall2

/-!
# Steps that may fail

A function that may fail is used on the items of a list one after another.  The whole succeeds if
it succeeds on every item, and then the results are those of the items, in order; otherwise it
fails on a first item, and the error of that item is the error of the whole.

* `mapM_ok_iff`: the results, item by item.
* `mapM_error_iff`: the first item that fails.
-/

namespace StackTemplate

variable {α β ε : Type} {f : α → Except ε β} {items : List α}

theorem map_ok_iff {x : Except ε α} {g : α → β} {y : β} :
    x.map g = .ok y ↔ ∃ a, y = g a ∧ x = .ok a := by
  cases x <;> simp [Except.map, eq_comm]

theorem map_error_iff {x : Except ε α} {g : α → β} {e : ε} : x.map g = .error e ↔ x = .error e := by
  cases x <;> simp [Except.map]

/-- **All succeed**, with these results in order. -/
theorem mapM_ok_iff {results : List β} :
    items.mapM f = .ok results ↔ List.Forall₂ (fun x y => f x = .ok y) items results := by
  induction items generalizing results with
  | nil => cases results <;> simp [pure, Except.pure]
  | cons x rest ih =>
    rw [List.mapM_cons, List.forall₂_cons_left_iff]
    simp only [← ih]
    cases f x with
    | error e => simp [bind, Except.bind]
    | ok y => cases rest.mapM f <;> simp [bind, Except.bind, pure, Except.pure, eq_comm]

/-- What holds of every value of `f` holds of all results. -/
theorem forall_of_mapM_ok {p : β → Prop} (hf : ∀ x y, f x = .ok y → p y) {results : List β}
    (h : items.mapM f = .ok results) : ∀ y ∈ results, p y := by
  rw [mapM_ok_iff] at h
  induction h with
  | nil => simp
  | cons hx _ ih => exact List.forall_mem_cons.mpr ⟨hf _ _ hx, ih⟩

/-- The results of one list after another come one after the other. -/
theorem exists_of_forall₂_append {R : α → β → Prop} {first second : List α} {results : List β}
    (h : List.Forall₂ R (first ++ second) results) :
    ∃ ys zs, results = ys ++ zs ∧ List.Forall₂ R first ys ∧ List.Forall₂ R second zs := by
  induction first generalizing results with
  | nil => exact ⟨[], results, rfl, .nil, h⟩
  | cons x rest ih =>
    obtain ⟨y, others, hx, hothers, rfl⟩ := List.forall₂_cons_left_iff.mp h
    obtain ⟨ys, zs, rfl, hrest, hsecond⟩ := ih hothers
    exact ⟨y :: ys, zs, rfl, .cons hx hrest, hsecond⟩

/-- All succeed if each does. -/
theorem exists_mapM_ok_iff :
    (∃ results, items.mapM f = .ok results) ↔ ∀ x ∈ items, ∃ y, f x = .ok y := by
  simp only [mapM_ok_iff]
  induction items with
  | nil => simp
  | cons x rest ih =>
    rw [List.forall_mem_cons, ← ih]
    constructor
    · rintro ⟨_, h⟩
      obtain ⟨y, results, hx, hrest, rfl⟩ := List.forall₂_cons_left_iff.mp h
      exact ⟨⟨y, hx⟩, results, hrest⟩
    · rintro ⟨⟨y, hx⟩, results, hrest⟩
      exact ⟨y :: results, .cons hx hrest⟩

/-- **One fails**: those before it succeed, and its error is the error of the whole. -/
theorem mapM_error_iff {e : ε} :
    items.mapM f = .error e ↔ ∃ before x after, items = before ++ x :: after ∧
      (∀ y ∈ before, ∃ result, f y = .ok result) ∧ f x = .error e := by
  constructor
  · intro h
    induction items with
    | nil => cases h
    | cons x rest ih =>
      rw [List.mapM_cons] at h
      cases hx : f x with
      | error e' =>
        rw [hx] at h
        cases h
        exact ⟨[], x, rest, rfl, by simp, hx⟩
      | ok y =>
        rw [hx] at h
        cases hrest : rest.mapM f with
        | ok results =>
          rw [hrest] at h
          cases h
        | error e' =>
          rw [hrest] at h
          cases h
          obtain ⟨before, failing, after, rfl, hbefore, hfails⟩ := ih hrest
          exact ⟨x :: before, failing, after, rfl, List.forall_mem_cons.mpr ⟨⟨y, hx⟩, hbefore⟩,
            hfails⟩
  · rintro ⟨before, x, after, rfl, hbefore, hx⟩
    obtain ⟨results, hresults⟩ := exists_mapM_ok_iff.mpr hbefore
    rw [List.mapM_append, hresults, List.mapM_cons, hx]
    rfl

end StackTemplate
