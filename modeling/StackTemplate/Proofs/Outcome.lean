import Mathlib.Data.List.Forall2
import Mathlib.Data.Set.Insert
import StackTemplate.Proofs.Limit

/-!
# What a plan gives, without depth and without memory

A session has a limit on depth and remembers names, and both show only in how far a run gets.
`Stack.Gives` says what a plan gives when neither is there: every value is resolved and every
name worked out anew, as often as it is asked for.  What has to stay is the set of names that
are being worked out, because asking for one of those is an error.

* `Gives.unique`: a plan gives at most one outcome, and never that the depth was exceeded.
* `gives_bind_iff`: one plan after another, for proofs about the functions one by one.
* `Gives.anti`: a value is given under fewer names being worked out as well.  An error is not,
  because it may be about one of these names; `Gives.refersToItself_anti` is what remains.
-/

namespace StackTemplate

/-! ## 1. The relation -/

/-- **What a plan gives** while the names in `busy` are being worked out. -/
inductive Stack.Gives (stack : Stack) :
    {α : Type} → Set String → Plan α → Except ResolutionError α → Prop
  | done {α : Type} {busy : Set String} (a : α) : Gives stack busy (.done a) (.ok a)
  | fail {α : Type} {busy : Set String} {e : ResolutionError}
      (h : ∀ limit, e ≠ .depthExceeded limit) :
      Gives stack busy (.fail e : Plan α) (.error e)
  | resolve {α : Type} {busy : Set String} {v w : Value} {next : Value → Plan α}
      {outcome : Except ResolutionError α} (hv : Gives stack busy (stack.plan v) (.ok w))
      (hn : Gives stack busy (next w) outcome) : Gives stack busy (.resolve v next) outcome
  | resolveError {α : Type} {busy : Set String} {v : Value} {next : Value → Plan α}
      {e : ResolutionError} (hv : Gives stack busy (stack.plan v) (.error e)) :
      Gives stack busy (.resolve v next) (.error e)
  | name {α : Type} {busy : Set String} {r : Resource} {keys : List String} {name : String}
      {next : String → Plan α} {outcome : Except ResolutionError α} (hr : r.name ∉ busy)
      (hk : Gives stack (insert r.name busy) (r.naming keys) (.ok name))
      (hn : Gives stack busy (next name) outcome) :
      Gives stack busy (.name r keys next) outcome
  | nameError {α : Type} {busy : Set String} {r : Resource} {keys : List String}
      {next : String → Plan α} {e : ResolutionError} (hr : r.name ∉ busy)
      (hk : Gives stack (insert r.name busy) (r.naming keys) (.error e)) :
      Gives stack busy (.name r keys next) (.error e)
  /-- A name is asked for while it is being worked out. -/
  | busy {α : Type} {busy : Set String} {r : Resource} {keys : List String}
      {next : String → Plan α} (hr : r.name ∈ busy) :
      Gives stack busy (.name r keys next) (.error (.invalidName r.name .refersToItself))

namespace Stack

variable {stack : Stack} {α β : Type} {busy busy' : Set String}

/-! ## 2. One equation for each form of plan -/

@[simp] theorem gives_done_iff {a : α} {outcome : Except ResolutionError α} :
    stack.Gives busy (.done a) outcome ↔ outcome = .ok a := by
  constructor
  · intro h
    cases h
    rfl
  · rintro rfl
    exact .done a

@[simp] theorem gives_pure_iff {a : α} {outcome : Except ResolutionError α} :
    stack.Gives busy (pure a) outcome ↔ outcome = .ok a :=
  gives_done_iff

@[simp] theorem gives_fail_ok_iff {e : ResolutionError} {a : α} :
    stack.Gives busy (.fail e) (.ok a) ↔ False := by
  constructor
  · intro h
    cases h
  · exact False.elim

theorem gives_resolve_iff {v : Value} {next : Value → Plan α}
    {outcome : Except ResolutionError α} :
    stack.Gives busy (.resolve v next) outcome ↔
      (∃ w, stack.Gives busy (stack.plan v) (.ok w) ∧ stack.Gives busy (next w) outcome) ∨
      ∃ e, outcome = .error e ∧ stack.Gives busy (stack.plan v) (.error e) := by
  constructor
  · intro h
    cases h with
    | resolve hv hn => exact Or.inl ⟨_, hv, hn⟩
    | resolveError hv => exact Or.inr ⟨_, rfl, hv⟩
  · rintro (⟨w, hv, hn⟩ | ⟨e, rfl, hv⟩)
    · exact .resolve hv hn
    · exact .resolveError hv

/-- Asking for a value gives what resolving it gives. -/
@[simp] theorem gives_ask_iff {v : Value} {outcome : Except ResolutionError Value} :
    stack.Gives busy (Plan.ask v) outcome ↔ stack.Gives busy (stack.plan v) outcome := by
  rw [Plan.ask, gives_resolve_iff]
  constructor
  · rintro (⟨w, hv, hn⟩ | ⟨e, rfl, hv⟩)
    · rw [gives_done_iff] at hn
      exact hn ▸ hv
    · exact hv
  · intro h
    cases outcome with
    | ok w => exact Or.inl ⟨w, h, .done w⟩
    | error e => exact Or.inr ⟨e, rfl, h⟩

/-- One plan after another: the first gives a value and the second goes on with it, or the
first fails and that is the end. -/
theorem gives_bind_iff {x : Plan α} {f : α → Plan β} {outcome : Except ResolutionError β} :
    stack.Gives busy (x >>= f) outcome ↔
      (∃ a, stack.Gives busy x (.ok a) ∧ stack.Gives busy (f a) outcome) ∨
      ∃ e, outcome = .error e ∧ stack.Gives busy x (.error e) := by
  change stack.Gives busy (x.bind f) outcome ↔ _
  induction x with
  | done a =>
    constructor
    · intro h
      exact Or.inl ⟨a, .done a, h⟩
    · rintro (⟨b, hb, h⟩ | ⟨e, -, he⟩)
      · cases hb
        exact h
      · cases he
  | fail e =>
    constructor
    · intro h
      cases h with
      | fail he => exact Or.inr ⟨e, rfl, .fail he⟩
    · rintro (⟨b, hb, -⟩ | ⟨e', rfl, he⟩)
      · cases hb
      · cases he with
        | fail he => exact .fail he
  | resolve v next ih =>
    constructor
    · intro h
      cases h with
      | resolve hv hn =>
        rcases (ih _).mp hn with ⟨a, ha, hf⟩ | ⟨e, rfl, he⟩
        · exact Or.inl ⟨a, .resolve hv ha, hf⟩
        · exact Or.inr ⟨e, rfl, .resolve hv he⟩
      | resolveError hv => exact Or.inr ⟨_, rfl, .resolveError hv⟩
    · rintro (⟨a, ha, hf⟩ | ⟨e, rfl, he⟩)
      · cases ha with
        | resolve hv hn => exact .resolve hv ((ih _).mpr (Or.inl ⟨a, hn, hf⟩))
      · cases he with
        | resolve hv hn => exact .resolve hv ((ih _).mpr (Or.inr ⟨e, rfl, hn⟩))
        | resolveError hv => exact .resolveError hv
  | name r keys next ih =>
    constructor
    · intro h
      cases h with
      | name hr hk hn =>
        rcases (ih _).mp hn with ⟨a, ha, hf⟩ | ⟨e, rfl, he⟩
        · exact Or.inl ⟨a, .name hr hk ha, hf⟩
        · exact Or.inr ⟨e, rfl, .name hr hk he⟩
      | nameError hr hk => exact Or.inr ⟨_, rfl, .nameError hr hk⟩
      | busy hr => exact Or.inr ⟨_, rfl, .busy hr⟩
    · rintro (⟨a, ha, hf⟩ | ⟨e, rfl, he⟩)
      · cases ha with
        | name hr hk hn => exact .name hr hk ((ih _).mpr (Or.inl ⟨a, hn, hf⟩))
      · cases he with
        | name hr hk hn => exact .name hr hk ((ih _).mpr (Or.inr ⟨e, rfl, hn⟩))
        | nameError hr hk => exact .nameError hr hk
        | busy hr => exact .busy hr

/-- A plan that gives a value gives a value at each of its steps. -/
theorem gives_bind_ok_iff {x : Plan α} {f : α → Plan β} {b : β} :
    stack.Gives busy (x >>= f) (.ok b) ↔
      ∃ a, stack.Gives busy x (.ok a) ∧ stack.Gives busy (f a) (.ok b) := by
  rw [gives_bind_iff]
  constructor
  · rintro (h | ⟨e, he, -⟩)
    · exact h
    · cases he
  · exact Or.inl

/-- A plan that gives an error gives it at the first of its steps that fails. -/
theorem gives_bind_error_iff {x : Plan α} {f : α → Plan β} {e : ResolutionError} :
    stack.Gives busy (x >>= f) (.error e) ↔
      stack.Gives busy x (.error e) ∨
      ∃ a, stack.Gives busy x (.ok a) ∧ stack.Gives busy (f a) (.error e) := by
  rw [gives_bind_iff]
  constructor
  · rintro (h | ⟨e', he, h⟩)
    · exact Or.inr h
    · cases he
      exact Or.inl h
  · rintro (h | h)
    · exact Or.inr ⟨e, rfl, h⟩
    · exact Or.inl h

/-- One plan after another. -/
theorem Gives.bind {x : Plan α} {f : α → Plan β} {a : α} {outcome : Except ResolutionError β}
    (hx : stack.Gives busy x (.ok a)) (hf : stack.Gives busy (f a) outcome) :
    stack.Gives busy (x >>= f) outcome :=
  gives_bind_iff.mpr (Or.inl ⟨a, hx, hf⟩)

theorem Gives.bind_error {x : Plan α} {e : ResolutionError} (hx : stack.Gives busy x (.error e))
    (f : α → Plan β) : stack.Gives busy (x >>= f) (.error e) :=
  gives_bind_iff.mpr (Or.inr ⟨e, rfl, hx⟩)

/-- A plan gives something only if its first step does. -/
theorem exists_gives_of_bind {x : Plan α} {f : α → Plan β} {outcome : Except ResolutionError β}
    (h : stack.Gives busy (x >>= f) outcome) : ∃ outcome', stack.Gives busy x outcome' := by
  rcases gives_bind_iff.mp h with ⟨a, ha, -⟩ | ⟨e, -, he⟩
  · exact ⟨_, ha⟩
  · exact ⟨_, he⟩

theorem gives_map_ok_iff {x : Plan α} {f : α → β} {b : β} :
    stack.Gives busy (f <$> x) (.ok b) ↔ ∃ a, stack.Gives busy x (.ok a) ∧ b = f a := by
  rw [map_eq_pure_bind, gives_bind_ok_iff]
  simp only [gives_pure_iff, Except.ok.injEq]

theorem gives_map_error_iff {x : Plan α} {f : α → β} {e : ResolutionError} :
    stack.Gives busy (f <$> x) (.error e) ↔ stack.Gives busy x (.error e) := by
  rw [map_eq_pure_bind, gives_bind_iff]
  constructor
  · rintro (⟨a, -, h⟩ | ⟨e', he, h⟩)
    · cases h
    · cases he
      exact h
  · intro h
    exact Or.inr ⟨e, rfl, h⟩

theorem gives_map_iff {x : Plan α} {f : α → β} {outcome : Except ResolutionError β} :
    stack.Gives busy (f <$> x) outcome ↔
      ∃ outcome', stack.Gives busy x outcome' ∧ outcome = outcome'.map f := by
  rw [map_eq_pure_bind, gives_bind_iff]
  simp only [gives_pure_iff]
  constructor
  · rintro (⟨a, ha, rfl⟩ | ⟨e, rfl, he⟩)
    · exact ⟨.ok a, ha, rfl⟩
    · exact ⟨.error e, he, rfl⟩
  · rintro ⟨e | a, h, rfl⟩
    · exact Or.inr ⟨e, rfl, h⟩
    · exact Or.inl ⟨a, h, rfl⟩

/-- A list of plans gives values only if each of them does. -/
theorem gives_of_gives_mapM {f : α → Plan β} {items : List α} {results : List β}
    (h : stack.Gives busy (items.mapM f) (.ok results)) :
    ∀ x ∈ items, ∃ y, stack.Gives busy (f x) (.ok y) := by
  induction items generalizing results with
  | nil => simp
  | cons x rest ih =>
    rw [List.mapM_cons, gives_bind_ok_iff] at h
    obtain ⟨y, hy, h⟩ := h
    obtain ⟨ys, hys, -⟩ := gives_bind_ok_iff.mp h
    intro z hz
    rcases List.mem_cons.mp hz with rfl | hz
    · exact ⟨y, hy⟩
    · exact ih hys z hz

/-- ...and it does give values if each of them does, with what holds of each. -/
theorem gives_mapM_of_gives {f : α → Plan β} {p : α → β → Prop} {items : List α}
    (h : ∀ x ∈ items, ∃ y, stack.Gives busy (f x) (.ok y) ∧ p x y) :
    ∃ results, stack.Gives busy (items.mapM f) (.ok results) ∧ List.Forall₂ p items results := by
  induction items with
  | nil => exact ⟨[], by simp, .nil⟩
  | cons x rest ih =>
    obtain ⟨⟨y, hy, hp⟩, hrest⟩ := List.forall_mem_cons.mp h
    obtain ⟨ys, hys, hps⟩ := ih hrest
    refine ⟨y :: ys, ?_, .cons hp hps⟩
    rw [List.mapM_cons, gives_bind_ok_iff]
    refine ⟨y, hy, gives_bind_ok_iff.mpr ⟨ys, hys, ?_⟩⟩
    rw [gives_pure_iff]

/-- The values of a list of plans, where each value is known. -/
theorem gives_mapM_map {f : α → Plan β} {g : α → β} {items : List α}
    (h : ∀ x ∈ items, stack.Gives busy (f x) (.ok (g x))) :
    stack.Gives busy (items.mapM f) (.ok (items.map g)) := by
  obtain ⟨results, hresults, heq⟩ :=
    gives_mapM_of_gives (p := fun x y => g x = y) fun x hx => ⟨g x, h x hx, rfl⟩
  rw [← List.forall₂_map_left_iff (f := g), List.forall₂_eq_eq_eq] at heq
  rwa [heq]

/-- A list of plans gives the error of the first one that fails. -/
theorem gives_mapM_cons_error_iff {f : α → Plan β} {x : α} {rest : List α}
    {e : ResolutionError} :
    stack.Gives busy ((x :: rest).mapM f) (.error e) ↔
      stack.Gives busy (f x) (.error e) ∨
      (∃ y, stack.Gives busy (f x) (.ok y)) ∧ stack.Gives busy (rest.mapM f) (.error e) := by
  rw [List.mapM_cons, gives_bind_error_iff]
  simp only [gives_bind_error_iff, gives_pure_iff, reduceCtorEq, and_false, exists_false,
    or_false, exists_and_right]

/-! ## 3. At most one outcome -/

/-- The depth is never exceeded where there is no limit. -/
theorem Gives.not_outOfDepth {plan : Plan α} {outcome : Except ResolutionError α}
    (h : stack.Gives busy plan outcome) : ¬ OutOfDepth outcome := by
  induction h with
  | done a => exact not_outOfDepth_ok a
  | fail h =>
    rw [outOfDepth_error_iff]
    exact fun ⟨limit, hl⟩ => h limit hl
  | resolve hv hn ihv ihn => exact ihn
  | resolveError hv ih =>
    rw [outOfDepth_error_iff] at ih ⊢
    exact ih
  | name hr hk hn ihk ihn => exact ihn
  | nameError hr hk ih =>
    rw [outOfDepth_error_iff] at ih ⊢
    exact ih
  | busy hr =>
    rw [outOfDepth_error_iff]
    rintro ⟨limit, hl⟩
    cases hl

/-- **A plan gives at most one outcome.** -/
theorem Gives.unique {plan : Plan α} {outcome outcome' : Except ResolutionError α}
    (h : stack.Gives busy plan outcome) (h' : stack.Gives busy plan outcome') :
    outcome = outcome' := by
  induction h with
  | done a =>
    cases h'
    rfl
  | fail _ =>
    cases h'
    rfl
  | resolve hv hn ihv ihn =>
    cases h' with
    | resolve hv' hn' =>
      cases ihv hv'
      exact ihn hn'
    | resolveError hv' => cases ihv hv'
  | resolveError hv ih =>
    cases h' with
    | resolve hv' hn' => cases ih hv'
    | resolveError hv' =>
      cases ih hv'
      rfl
  | name hr hk hn ihk ihn =>
    cases h' with
    | name hr' hk' hn' =>
      cases ihk hk'
      exact ihn hn'
    | nameError hr' hk' => cases ihk hk'
    | busy hr' => exact absurd hr' hr
  | nameError hr hk ih =>
    cases h' with
    | name hr' hk' hn' => cases ih hk'
    | nameError hr' hk' =>
      cases ih hk'
      rfl
    | busy hr' => exact absurd hr' hr
  | busy hr =>
    cases h' with
    | name hr' hk' hn' => exact absurd hr hr'
    | nameError hr' hk' => exact absurd hr hr'
    | busy hr' => rfl

/-! ## 4. Fewer names being worked out -/

/-- **A value does not depend on the names being worked out**, except that it asks for none of
them: it is given under any fewer of them as well. -/
theorem Gives.anti {plan : Plan α} {a : α} (h : stack.Gives busy plan (.ok a))
    (hsub : busy' ⊆ busy) : stack.Gives busy' plan (.ok a) := by
  generalize ho : (Except.ok a : Except ResolutionError α) = outcome at h
  induction h generalizing busy' with
  | done b =>
    cases ho
    exact .done _
  | fail _ => cases ho
  | resolve hv hn ihv ihn => exact .resolve (ihv hsub rfl) (ihn hsub ho)
  | resolveError _ _ => cases ho
  | name hr hk hn ihk ihn =>
    exact .name (fun hm => hr (hsub hm)) (ihk (Set.insert_subset_insert hsub) rfl)
      (ihn hsub ho)
  | nameError _ _ _ => cases ho
  | busy _ => cases ho

/-- A name that refers to itself does so as long as it is itself being worked out, whichever of
the other names are. -/
theorem Gives.refersToItself_anti {plan : Plan α} {name : String}
    (h : stack.Gives busy plan (.error (.invalidName name .refersToItself)))
    (hsub : busy' ⊆ busy) (hm : name ∈ busy') :
    stack.Gives busy' plan (.error (.invalidName name .refersToItself)) := by
  generalize ho : (.error (.invalidName name .refersToItself) : Except ResolutionError α) =
    outcome at h
  induction h generalizing busy' with
  | done _ => cases ho
  | fail h =>
    cases ho
    exact .fail h
  | resolve hv hn ihv ihn => exact .resolve (hv.anti hsub) (ihn hsub hm ho)
  | resolveError hv ih =>
    cases ho
    exact .resolveError (ih hsub hm rfl)
  | name hr hk hn ihk ihn =>
    exact .name (fun hb => hr (hsub hb)) (hk.anti (Set.insert_subset_insert hsub))
      (ihn hsub hm ho)
  | nameError hr hk ih =>
    cases ho
    exact .nameError (fun hb => hr (hsub hb))
      (ih (Set.insert_subset_insert hsub) (Set.mem_insert_of_mem _ hm) rfl)
  | busy hr =>
    cases ho
    exact .busy hm

end Stack
end StackTemplate
