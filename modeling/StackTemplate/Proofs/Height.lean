import StackTemplate.Proofs.CallFree

/-!
# Data takes as many levels as it is high

A value without calls is data, and resolving it is walking through it.  Each list, each mapping
and each scalar takes one level while the walk is inside it, and none afterwards, so what counts
is the height of the value and not its size.  With that many levels the walk gives the value
back; with fewer it runs out of depth, at the first part that is too high.  It asks for no name,
so it leaves the session as it was.  This is the identity law of section 8 of the specification,
with the levels counted.

* `ofCall?_eq_none_iff`: which mappings are data.
* `resolveWithin_of_lt_height`: with too few levels, the depth is exceeded.
-/

namespace StackTemplate

/-! ## 1. Which mappings are data -/

namespace Intrinsic

/-- What `Condition` does not claim: a value that is neither a string nor a mapping whose single
key calls a function. -/
theorem claims_condition_eq_false_iff {arg : Value} :
    condition.claims arg = false ↔
      arg.kind ≠ .string ∧ ∀ key v, arg = .mapping [(key, v)] → ofName? key = none := by
  cases arg with
  | string s => simp [claims, Value.kind]
  | null | boolean | number | list => simp [claims, Value.kind]
  | mapping entries =>
    rcases entries with _ | ⟨⟨key, v⟩, _ | ⟨_, _⟩⟩ <;> simp [claims, Value.kind]

/-- **A mapping is data** unless it has exactly one key, which calls a function that claims the
value under it; and only `Condition` leaves values unclaimed. -/
theorem ofCall?_eq_none_iff {entries : Entries} :
    ofCall? entries = none ↔
      ∀ key arg, entries = [(key, arg)] →
        ofName? key = none ∨ key = condition.name ∧ condition.claims arg = false := by
  constructor
  · rintro h key arg rfl
    cases hf : ofName? key with
    | none => exact Or.inl rfl
    | some f =>
      have hclaims : f.claims arg = false := by
        simpa [ofCall?, hf] using h
      cases eq_condition_of_claims_eq_false hclaims
      exact Or.inr ⟨(name_of_ofName? hf).symm, hclaims⟩
  · intro h
    rcases entries with _ | ⟨⟨key, arg⟩, _ | ⟨_, _⟩⟩
    · rfl
    · rcases h key arg rfl with hkey | ⟨rfl, hclaims⟩
      · simp [ofCall?, hkey]
      · simp [ofCall?, ofName?_name, hclaims]
    · rfl

end Intrinsic

namespace Stack

variable {stack : Stack}

/-! ## 2. With too few levels -/

/-- Plans that change nothing or fail with one and the same error, one after another: if one of
them fails, the whole does, and it changes nothing either. -/
theorem run_mapM_error {α β : Type} {answer : Value → Run Session Value} {f : α → Plan β}
    {g : α → β} {e : ResolutionError} {items : List α}
    (h : ∀ x ∈ items, (∀ s, (f x).run answer s = (.ok (g x), s)) ∨
      ∀ s, (f x).run answer s = (.error e, s))
    (hfail : ∃ x ∈ items, ∀ s, (f x).run answer s = (.error e, s)) (s : Session) :
    (items.mapM f).run answer s = (.error e, s) := by
  induction items with
  | nil =>
    obtain ⟨x, hx, -⟩ := hfail
    cases hx
  | cons x rest ih =>
    obtain ⟨hx, hrest⟩ := List.forall_mem_cons.mp h
    rw [List.mapM_cons, Plan.run_bind]
    rcases hx with hok | herror
    · have hlater : ∃ y ∈ rest, ∀ s, (f y).run answer s = (.error e, s) := by
        obtain ⟨y, hy, hfail⟩ := hfail
        rcases List.mem_cons.mp hy with rfl | hy
        · cases (hok s).symm.trans (hfail s)
        · exact ⟨y, hy, hfail⟩
      rw [Run.bind_ok (hok s), Plan.run_bind, Run.bind_error (ih hrest hlater)]
    · rw [Run.bind_error (herror s)]

theorem run_map_error {α β : Type} {answer : Value → Run Session Value} {x : Plan α} (f : α → β)
    {e : ResolutionError} {s s' : Session} (h : x.run answer s = (.error e, s')) :
    (f <$> x).run answer s = (.error e, s') := by
  rw [map_eq_pure_bind, Plan.run_bind, Run.bind_error h]

/-- The parts of a value, one after another, when one of them is too high: those that are too high
fail, and the others stand for themselves. -/
theorem run_mapM_of_too_high {α β : Type} {levels : Nat} {part : α → Value} {f : α → Plan β}
    {g : α → β} {e : ResolutionError} {items : List α} (hfree : ∀ x ∈ items, (part x).CallFree)
    (hok : ∀ x s, stack.resolveWithin levels (part x) s = (.ok (part x), s) →
      (f x).run (stack.resolveWithin levels) s = (.ok (g x), s))
    (herror : ∀ x ∈ items, levels < (part x).height → ∀ s,
      (f x).run (stack.resolveWithin levels) s = (.error e, s))
    (hhigh : ¬ ∀ x ∈ items, (part x).height ≤ levels) (s : Session) :
    (items.mapM f).run (stack.resolveWithin levels) s = (.error e, s) := by
  refine run_mapM_error (g := g) (fun x hx => ?_) ?_ s
  · rcases Nat.lt_or_ge levels (part x).height with hlt | hge
    · exact Or.inr (herror x hx hlt)
    · exact Or.inl fun s => hok x s (stack.resolveWithin_of_callFree (hfree x hx) hge s)
  · obtain ⟨x, hx, hlt⟩ : ∃ x ∈ items, levels < (part x).height := by
      simpa using hhigh
    exact ⟨x, hx, herror x hx hlt⟩

/-- A value whose plan fails and changes nothing fails without a change, one level further up. -/
theorem resolveWithin_succ_of_plan_error {levels : Nat} {v : Value} {e : ResolutionError}
    (h : ∀ s, (stack.plan v).run (stack.resolveWithin levels) s = (.error e, s)) (s : Session) :
    stack.resolveWithin (levels + 1) v s = (.error e, s) := by
  rw [resolveWithin, Session.deeper, h]
  rfl

/-- **With fewer levels than it is high**, a value without calls runs out of depth in every
session. -/
theorem resolveWithin_of_lt_height (stack : Stack) {v : Value} (hv : v.CallFree) {levels : Nat}
    (hlevels : levels < v.height) (s : Session) :
    stack.resolveWithin levels v s = (.error (.depthExceeded stack.config.maxDepth), s) := by
  induction v using Value.induct generalizing levels s with
  | null | boolean | number | string =>
    obtain rfl : levels = 0 := Nat.lt_one_iff.mp hlevels
    rfl
  | list items ih =>
    cases levels with
    | zero => rfl
    | succ n =>
      rw [Value.callFree_list_iff] at hv
      refine resolveWithin_succ_of_plan_error (fun s => run_map_error _ ?_) s
      refine run_mapM_of_too_high (g := fun u => u) hv (fun u s hu => ?_)
        (fun u hu hlt s => ?_) (mt Value.height_list_le_iff.mpr (Nat.not_le.mpr hlevels)) s
      · rw [Plan.run_ask]
        exact hu
      · rw [Plan.run_ask]
        exact ih u hu (hv u hu) hlt s
  | mapping entries ih =>
    cases levels with
    | zero => rfl
    | succ n =>
      obtain ⟨hc, hv⟩ := Value.callFree_mapping_iff.mp hv
      refine resolveWithin_succ_of_plan_error (fun s => ?_) s
      simp only [plan, hc]
      refine run_map_error _ (run_mapM_of_too_high (g := fun e => e) hv (fun e s he => ?_)
        (fun e he hlt s => ?_) (mt Value.height_mapping_le_iff.mpr (Nat.not_le.mpr hlevels)) s)
      · refine run_map_ok (e.1, ·) ?_
        rw [Plan.run_ask]
        exact he
      · refine run_map_error _ ?_
        rw [Plan.run_ask]
        exact ih e he (hv e he) hlt s

/-! ## 3. The height decides -/

/-- The levels that are left between operations are those that the limit allows. -/
theorem levelsLeft_after (stack : Stack) (ops : List Operation) :
    stack.levelsLeft (stack.after ops .start) = stack.config.maxDepth := by
  rw [levelsLeft, (stack.after_grows ops .start).depth]
  rfl

/-- To ask for a value is to resolve it and to hand over what comes out. -/
theorem operate_resolve (stack : Stack) (v : Value) (s : Session) :
    stack.operate (.resolve v) s =
      ((stack.resolve v s).1.map .value, (stack.resolve v s).2) := by
  rcases h : stack.resolve v s with ⟨e | w, s'⟩
  · refine run_map_error Answer.value ?_
    rw [Plan.run_ask]
    exact h
  · refine run_map_ok Answer.value ?_
    rw [Plan.run_ask]
    exact h

/-- What the operation answers is what the value is resolved to... -/
theorem operate_resolve_ok_iff (stack : Stack) {v w : Value} {s s' : Session}
    {outcome : Except ResolutionError Value} (h : stack.resolve v s = (outcome, s')) :
    stack.operate (.resolve v) s = (.ok (.value w), s') ↔ outcome = .ok w := by
  rw [operate_resolve, h]
  constructor
  · intro heq
    cases outcome with
    | ok w' =>
      cases heq
      rfl
    | error e => cases heq
  · rintro rfl
    rfl

/-- ...and its error is the same. -/
theorem operate_resolve_error_iff (stack : Stack) {v : Value} {s s' : Session}
    {outcome : Except ResolutionError Value} (h : stack.resolve v s = (outcome, s'))
    {e : ResolutionError} :
    stack.operate (.resolve v) s = (.error e, s') ↔ outcome = .error e := by
  rw [operate_resolve, h]
  constructor
  · intro heq
    cases outcome with
    | ok w => cases heq
    | error e' =>
      cases heq
      rfl
  · rintro rfl
    rfl

/-- **Data resolves to itself exactly if its height is within the limit**, after any operations:
a value without calls is given back as it is, with the order of its keys, or the depth is
exceeded, and either way the session stays as it was.

A mapping is free of calls if the values in it are, and it has another number of keys than one,
or a key that calls no function, or the key `Condition` over a value that is neither a string nor
a mapping whose single key calls a function. -/
theorem data_resolves_up_to_its_height (stack : Stack) (ops : List Operation) :
    (∀ v : Value, v.CallFree →
      (v.height ≤ stack.config.maxDepth →
        stack.operate (.resolve v) (stack.after ops .start) =
          (.ok (.value v), stack.after ops .start)) ∧
      (stack.config.maxDepth < v.height →
        stack.operate (.resolve v) (stack.after ops .start) =
          (.error (.depthExceeded stack.config.maxDepth), stack.after ops .start))) ∧
    ∀ entries : Entries, (Value.mapping entries).CallFree ↔
      (∀ e ∈ entries, e.2.CallFree) ∧
      ∀ key arg, entries = [(key, arg)] →
        Intrinsic.ofName? key = none ∨
        key = "Condition" ∧ arg.kind ≠ .string ∧
          ∀ inner v, arg = .mapping [(inner, v)] → Intrinsic.ofName? inner = none := by
  have hoperate {v : Value} {outcome : Except ResolutionError Value}
      (h : stack.resolveWithin stack.config.maxDepth v (stack.after ops .start) =
        (outcome, stack.after ops .start)) :
      stack.operate (.resolve v) (stack.after ops .start) =
        (outcome.map .value, stack.after ops .start) := by
    rw [operate, perform, levelsLeft_after, Operation.plan]
    cases outcome with
    | ok w => exact run_map_ok Answer.value (by rwa [Plan.run_ask])
    | error e => exact run_map_error Answer.value (by rwa [Plan.run_ask])
  refine ⟨fun v hv => ⟨fun hle => ?_, fun hlt => ?_⟩, fun entries => ?_⟩
  · exact hoperate (stack.resolveWithin_of_callFree hv hle _)
  · exact hoperate (stack.resolveWithin_of_lt_height hv hlt _)
  · rw [Value.callFree_mapping_iff, and_comm, Intrinsic.ofCall?_eq_none_iff]
    simp only [Intrinsic.claims_condition_eq_false_iff, Intrinsic.name]

/-- Two functions' names in one mapping, a name of no function, and a block of a policy under the
key `Condition` are data.  Together in a list they are four levels high. -/
theorem misleading_keys_are_data :
    let v := Value.list [
      .mapping [("Ref", .string "A"), ("Fn::Sub", .string "B")],
      .mapping [("Fn::Transform", .list [])],
      .mapping [("Condition", .mapping [("Bool", .string "true")])]]
    let stack := ofDocument (.mapping [])
    v.CallFree ∧ v.height = 4 ∧
      ((stack.withLimit 4).operate (.resolve v) .start).1 = .ok (.value v) ∧
      ((stack.withLimit 3).operate (.resolve v) .start).1 = .error (.depthExceeded 3) := by
  intro v stack
  have hfree : v.CallFree := by
    simp [v, Value.callFree_list_iff, Value.callFree_mapping_iff, Value.callFree_string,
      Intrinsic.ofCall?, Intrinsic.ofName?, Intrinsic.all, Intrinsic.name,
      Intrinsic.claims]
  obtain ⟨hfour, -⟩ := (stack.withLimit 4).data_resolves_up_to_its_height []
  obtain ⟨hthree, -⟩ := (stack.withLimit 3).data_resolves_up_to_its_height []
  refine ⟨hfree, by rfl, ?_, ?_⟩
  · exact congrArg Prod.fst ((hfour v hfree).1 (by decide))
  · exact congrArg Prod.fst ((hthree v hfree).2 (by decide))

end Stack
end StackTemplate
