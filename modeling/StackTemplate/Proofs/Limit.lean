import StackTemplate.Proofs.Growth

/-!
# More depth never changes an answer

The limit on depth is read in one place and shows in one error.  So of two runs that differ in
their limits alone, the one with the larger limit does exactly what the other one does, until
the other one runs out of depth.

* `Run.RepeatedBy`: the second run does what the first does unless the first ends with an error
  that is an excuse.  It is kept by every way of putting runs together.
* `Run.Refines`: the excuse is to run out of depth, so no handler can catch the error or hide it.
* `resolveWithin_refines`: more levels refine fewer levels.
* `operate_withLimit`: an operation that does not run out of depth in a new session gives the
  same answer and leaves the same session behind under every larger limit.
-/

namespace StackTemplate

/-- The limit on depth was reached. -/
def OutOfDepth {α : Type} (outcome : Except ResolutionError α) : Prop :=
  ∃ limit, outcome = .error (.depthExceeded limit)

theorem not_outOfDepth_ok {α : Type} (a : α) : ¬ OutOfDepth (.ok a) := by
  rintro ⟨limit, h⟩
  cases h

theorem outOfDepth_error_iff {α : Type} {e : ResolutionError} :
    OutOfDepth (.error e : Except ResolutionError α) ↔ ∃ limit, e = .depthExceeded limit := by
  constructor
  · rintro ⟨limit, h⟩
    exact ⟨limit, Except.error.inj h⟩
  · rintro ⟨limit, rfl⟩
    exact ⟨limit, rfl⟩

/-! ## 1. Runs that repeat each other -/

/-- The run `y` does what `x` does, unless `x` ends with an error that is an excuse. -/
def Run.RepeatedBy {α : Type} (excuse : ResolutionError → Prop) (x y : Run Session α) : Prop :=
  ∀ s, (∀ e, (x s).1 = .error e → ¬ excuse e) → y s = x s

namespace Run.RepeatedBy

variable {α β : Type} {excuse : ResolutionError → Prop}

theorem refl (x : Run Session α) : x.RepeatedBy excuse x := fun _ _ => rfl

/-- A run that ends with an excuse is repeated by any run. -/
theorem excused {e : ResolutionError} (h : excuse e) (y : Run Session α) :
    Run.RepeatedBy excuse (throw e) y :=
  fun _ hs => absurd h (hs e rfl)

/-- The second part has to be repeated for the values that the first part ends with. -/
theorem bind {x y : Run Session α} {f g : α → Run Session β} (hx : x.RepeatedBy excuse y)
    (hf : ∀ s a s', x s = (.ok a, s') → (f a).RepeatedBy excuse (g a)) :
    (x >>= f).RepeatedBy excuse (y >>= g) := by
  intro s hs
  rcases h : x s with ⟨e | a, s₁⟩
  · rw [Run.bind_error h] at hs ⊢
    have hy : y s = (.error e, s₁) := by
      rw [← h]
      refine hx s ?_
      rw [h]
      exact fun e' he' => hs e' (congrArg Except.error (Except.error.inj he'))
    exact Run.bind_error hy
  · rw [Run.bind_ok h] at hs ⊢
    have hy : y s = (.ok a, s₁) := by
      rw [← h]
      refine hx s ?_
      rw [h]
      exact fun e he => nomatch he
    rw [Run.bind_ok hy]
    exact hf s a s₁ h s₁ hs

theorem deeper {x y : Run Session α} (h : x.RepeatedBy excuse y) :
    (Session.deeper x).RepeatedBy excuse (Session.deeper y) := by
  intro s hs
  simp only [Session.deeper] at hs ⊢
  rw [h _ hs]

variable {A B : Value → Run Session Value} {r : Resource} {keys : List String}

theorem naming (h : ∀ v, r.firstProperty? keys = some v → (A v).RepeatedBy excuse (B v)) :
    ((r.naming keys).run A).RepeatedBy excuse ((r.naming keys).run B) := by
  unfold Resource.naming
  cases hp : r.firstProperty? keys with
  | none => exact .refl _
  | some property =>
    refine (h property hp).bind fun _ v _ _ => ?_
    cases v <;> exact .refl _

/-- A name may differ only where its property is resolved. -/
theorem displayName (h : ∀ v, r.firstProperty? keys = some v → (A v).RepeatedBy excuse (B v)) :
    (r.displayName (Session.place r.name) keys A).RepeatedBy excuse
      (r.displayName (Session.place r.name) keys B) := by
  intro s hs
  cases hk : ((Session.place r.name).look s).known with
  | some name => simp only [Resource.displayName, hk]
  | none =>
    cases hp : ((Session.place r.name).look s).pending with
    | true => simp only [Resource.displayName, hk, hp, if_true]
    | false =>
      -- here, and only here, the two runs differ: they resolve the property in two ways
      have hname : r.nameFrom keys B ((Session.place r.name).store ⟨none, true⟩ s) =
          r.nameFrom keys A ((Session.place r.name).store ⟨none, true⟩ s) := by
        rw [Resource.nameFrom_eq_run, Resource.nameFrom_eq_run]
        refine naming h _ fun e he => hs e ?_
        rw [← Resource.nameFrom_eq_run] at he
        simp only [Resource.displayName, hk, hp]
        rcases hrun : r.nameFrom keys A ((Session.place r.name).store ⟨none, true⟩ s) with
          ⟨outcome, s₁⟩
        rw [hrun] at he
        subst he
        rfl
      simp only [Resource.displayName, hk, hp, hname]

end Run.RepeatedBy

/-! ## 2. Refinement of runs -/

/-- The run `y` agrees with `x` wherever `x` does not run out of depth. -/
def Run.Refines {α : Type} (x y : Run Session α) : Prop :=
  ∀ s, ¬ OutOfDepth (x s).1 → y s = x s

/-- To refine a run is to repeat it with the depth exceeded as the excuse. -/
theorem Run.refines_iff_repeatedBy {α : Type} {x y : Run Session α} :
    x.Refines y ↔ x.RepeatedBy (fun e => ∃ limit, e = .depthExceeded limit) y := by
  refine forall_congr' fun s => imp_congr_left ⟨?_, ?_⟩
  · rintro h _ he ⟨limit, rfl⟩
    exact h ⟨limit, he⟩
  · rintro h ⟨limit, he⟩
    exact h _ he ⟨limit, rfl⟩

namespace Plan

variable {α : Type} {A B : Value → Run Session Value}

/-- A plan does the same under two ways of resolving values, as far as these do the same. -/
theorem run_repeatedBy {excuse : ResolutionError → Prop} (h : ∀ v, (A v).RepeatedBy excuse (B v))
    (plan : Plan α) : (plan.run A).RepeatedBy excuse (plan.run B) := by
  induction plan with
  | done a => exact .refl _
  | fail e => exact .refl _
  | resolve v next ih => exact (h v).bind fun _ w _ _ => ih w
  | name r keys next ih =>
    exact (Run.RepeatedBy.displayName fun v _ => h v).bind fun _ name _ _ => ih name

/-- A plan does the same under two ways of resolving values, until the first of them runs out
of depth. -/
theorem run_refines (h : ∀ v, (A v).Refines (B v)) (plan : Plan α) :
    (plan.run A).Refines (plan.run B) := by
  simp only [Run.refines_iff_repeatedBy] at h ⊢
  exact run_repeatedBy h plan

end Plan

/-! ## 3. One stack under many limits -/

namespace Stack

/-- The same stack with another limit on depth. -/
def withLimit (stack : Stack) (limit : Nat) : Stack :=
  { stack with config := { stack.config with maxDepth := limit } }

/-- What it takes to resolve a value does not depend on the limit. -/
theorem plan_withLimit (stack : Stack) (limit : Nat) (v : Value) :
    (stack.withLimit limit).plan v = stack.plan v := by
  cases v with
  | mapping entries =>
    simp only [plan]
    cases Intrinsic.ofCall? entries with
    | none => rfl
    | some c =>
      obtain ⟨f, arg⟩ := c
      cases f <;> rfl
  | null | boolean | number | string | list => rfl

theorem operation_plan_withLimit (stack : Stack) (limit : Nat) (op : Operation) :
    op.plan (stack.withLimit limit) = op.plan stack := by
  cases op with
  | call key arg =>
    simp only [Operation.plan]
    cases Intrinsic.ofName? key with
    | none => rfl
    | some f => cases f <;> rfl
  | document | resolve | reference | attributeOf | condition | values => rfl

/-- **More levels refine fewer**, whatever the two limits are. -/
theorem resolveWithin_refines (stack : Stack) (limit limit' : Nat) {m n : Nat} (h : m ≤ n)
    (v : Value) :
    ((stack.withLimit limit).resolveWithin m v).Refines
      ((stack.withLimit limit').resolveWithin n v) := by
  induction m generalizing n v with
  | zero => exact Run.refines_iff_repeatedBy.mpr (.excused ⟨_, rfl⟩ _)
  | succ m ih =>
    obtain ⟨n, rfl⟩ : ∃ k, n = k + 1 := ⟨n - 1, by omega⟩
    refine Run.refines_iff_repeatedBy.mpr (Run.RepeatedBy.deeper (Run.refines_iff_repeatedBy.mp ?_))
    rw [plan_withLimit, plan_withLimit]
    exact Plan.run_refines (fun w => ih (Nat.le_of_succ_le_succ h) w) _

/-- **More depth never changes an outcome.**  An operation that does not run out of depth in a
new session gives the same answer and leaves the same session behind under a larger limit. -/
theorem operate_withLimit (stack : Stack) {m n : Nat} (h : m ≤ n) (op : Operation)
    (hd : ¬ OutOfDepth ((stack.withLimit m).operate op .start).1) :
    (stack.withLimit n).operate op .start = (stack.withLimit m).operate op .start := by
  have hr := Plan.run_refines (fun v => stack.resolveWithin_refines m n h v) (op.plan stack)
    Session.start
  simp only [operate, perform, operation_plan_withLimit] at hd ⊢
  exact hr hd

end Stack
end StackTemplate
