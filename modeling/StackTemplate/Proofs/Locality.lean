import StackTemplate.Proofs.Strictness

/-!
# A call means the same wherever it stands

A value is data with calls in it, and to resolve it is to put in the place of each call what the
call gives.  So the calls that stand in data can be resolved one by one, in the order of the
document, each of them alone and in a new session.

* `Value.calls`: the calls of a value that are not inside other calls, in order.
* `gives_replaceCalls`: a value resolves to itself with the values of its calls in their places.
* `gives_error_iff_calls`: a value fails as the list of its calls does, at the first one that fails.
-/

namespace StackTemplate

/-! ## 1. The calls of a value -/

namespace Value

mutual

/-- **The calls that stand in the data of a value**, in the order of the document.  The argument
of a call is no part of the data. -/
def calls : Value → List Value
  | .list items => itemCalls items
  | .mapping entries =>
    if (Intrinsic.ofCall? entries).isSome then [.mapping entries] else entryCalls entries
  | _ => []

def itemCalls : List Value → List Value
  | [] => []
  | v :: rest => v.calls ++ itemCalls rest

def entryCalls : Entries → List Value
  | [] => []
  | (_, v) :: rest => v.calls ++ entryCalls rest

end

mutual

/-- **The value with each call `u` in its data replaced by `f u`.**  Lists keep their length and
order, mappings their keys and the order of the keys, and scalars stay what they are. -/
def replaceCalls (f : Value → Value) : Value → Value
  | .list items => .list (replaceItems f items)
  | .mapping entries =>
    if (Intrinsic.ofCall? entries).isSome then f (.mapping entries)
    else .mapping (replaceEntries f entries)
  | scalar => scalar

def replaceItems (f : Value → Value) : List Value → List Value
  | [] => []
  | v :: rest => v.replaceCalls f :: replaceItems f rest

def replaceEntries (f : Value → Value) : Entries → Entries
  | [] => []
  | (key, v) :: rest => (key, v.replaceCalls f) :: replaceEntries f rest

end

variable (f : Value → Value)

theorem itemCalls_eq_flatMap (items : List Value) : itemCalls items = items.flatMap calls := by
  induction items with
  | nil => rfl
  | cons v rest ih => rw [itemCalls, List.flatMap_cons, ih]

theorem entryCalls_eq_flatMap (entries : Entries) :
    entryCalls entries = entries.flatMap fun e => e.2.calls := by
  induction entries with
  | nil => rfl
  | cons e rest ih => rw [entryCalls, List.flatMap_cons, ih]

theorem replaceItems_eq_map (items : List Value) :
    replaceItems f items = items.map (replaceCalls f) := by
  induction items with
  | nil => rfl
  | cons v rest ih => rw [replaceItems, List.map_cons, ih]

theorem replaceEntries_eq_map (entries : Entries) :
    replaceEntries f entries = entries.map fun e => (e.1, e.2.replaceCalls f) := by
  induction entries with
  | nil => rfl
  | cons e rest ih => rw [replaceEntries, List.map_cons, ih]

theorem calls_of_call {entries : Entries} {c : Intrinsic × Value}
    (hc : Intrinsic.ofCall? entries = some c) :
    (Value.mapping entries).calls = [.mapping entries] := by
  rw [calls, hc, Option.isSome_some, if_pos rfl]

theorem calls_of_data {entries : Entries} (hc : Intrinsic.ofCall? entries = none) :
    (Value.mapping entries).calls = entries.flatMap fun e => e.2.calls := by
  rw [calls, hc, Option.isSome_none, if_neg Bool.false_ne_true, entryCalls_eq_flatMap]

end Value

namespace Stack

variable {stack : Stack} {α β : Type} {busy : Set String}

/-- The calls of a value are resolved on the way. -/
theorem reaches_of_mem_calls {v u : Value} (hu : u ∈ v.calls) : stack.Reaches v u := by
  induction v using Value.induct with
  | null | boolean | number | string => cases hu
  | list items ih =>
    rw [Value.calls, Value.itemCalls_eq_flatMap, List.mem_flatMap] at hu
    obtain ⟨v, hv, hu⟩ := hu
    exact .head (.item hv) (ih v hv hu)
  | mapping entries ih =>
    cases hc : Intrinsic.ofCall? entries with
    | some c =>
      rw [Value.calls_of_call hc, List.mem_singleton] at hu
      subst hu
      exact .refl
    | none =>
      rw [Value.calls_of_data hc, List.mem_flatMap] at hu
      obtain ⟨e, he, hu⟩ := hu
      exact .head (.entry hc he) (ih e he hu)

/-! ## 2. Values -/

/-- **A value resolves to itself with the values of its calls in their places.** -/
theorem gives_replaceCalls {value : Value → Value} {v : Value}
    (h : ∀ u ∈ v.calls, stack.Gives busy (stack.plan u) (.ok (value u))) :
    stack.Gives busy (stack.plan v) (.ok (v.replaceCalls value)) := by
  induction v using Value.induct with
  | null | boolean | number | string => exact .done _
  | list items ih =>
    rw [Value.calls, Value.itemCalls_eq_flatMap] at h
    rw [Value.replaceCalls, Value.replaceItems_eq_map, plan, gives_map_ok_iff]
    refine ⟨_, gives_mapM_map fun v hv => gives_ask_iff.mpr (ih v hv fun u hu => ?_), rfl⟩
    exact h u (List.mem_flatMap.mpr ⟨v, hv, hu⟩)
  | mapping entries ih =>
    cases hc : Intrinsic.ofCall? entries with
    | some c =>
      have hself := h (.mapping entries) (by simp [Value.calls_of_call hc])
      rwa [Value.replaceCalls, hc, Option.isSome_some, if_pos rfl]
    | none =>
      rw [Value.calls_of_data hc] at h
      rw [Value.replaceCalls, hc, Option.isSome_none, if_neg Bool.false_ne_true,
        Value.replaceEntries_eq_map]
      simp only [plan, hc]
      rw [gives_map_ok_iff]
      refine ⟨_, gives_mapM_map fun e he => gives_map_ok_iff.mpr ⟨_, ?_, rfl⟩, rfl⟩
      refine gives_ask_iff.mpr (ih e he fun u hu => ?_)
      exact h u (List.mem_flatMap.mpr ⟨e, he, hu⟩)

/-- A value resolves exactly if its calls do. -/
theorem resolves_iff_calls {v : Value} :
    stack.Resolves ∅ v ↔ ∀ u ∈ v.calls, stack.Resolves ∅ u := by
  constructor
  · intro h u hu
    exact resolves_of_reaches h (reaches_of_mem_calls hu)
  · intro h
    choose! value hvalue using h
    exact ⟨_, gives_replaceCalls hvalue⟩

/-! ## 3. Errors -/

/-- **The first of the calls that fails, fails with `e`**: those before it resolve. -/
def FirstFailure (stack : Stack) (calls : List Value) (e : ResolutionError) : Prop :=
  ∃ before node after, calls = before ++ node :: after ∧
    (∀ u ∈ before, stack.Resolves ∅ u) ∧ stack.Gives ∅ (stack.plan node) (.error e)

variable {e : ResolutionError}

theorem not_firstFailure_nil : ¬ stack.FirstFailure [] e := by
  rintro ⟨before, node, after, h, -, -⟩
  simp at h

theorem firstFailure_cons_iff {u : Value} {rest : List Value} :
    stack.FirstFailure (u :: rest) e ↔
      stack.Gives ∅ (stack.plan u) (.error e) ∨
      stack.Resolves ∅ u ∧ stack.FirstFailure rest e := by
  constructor
  · rintro ⟨before, node, after, h, hbefore, hnode⟩
    cases before with
    | nil =>
      cases h
      exact Or.inl hnode
    | cons x before =>
      cases h
      obtain ⟨hu, hbefore⟩ := List.forall_mem_cons.mp hbefore
      exact Or.inr ⟨hu, before, node, after, rfl, hbefore, hnode⟩
  · rintro (hu | ⟨hu, before, node, after, rfl, hbefore, hnode⟩)
    · exact ⟨[], u, rest, rfl, by simp, hu⟩
    · exact ⟨u :: before, node, after, rfl, List.forall_mem_cons.mpr ⟨hu, hbefore⟩, hnode⟩

theorem firstFailure_append_iff {us vs : List Value} :
    stack.FirstFailure (us ++ vs) e ↔
      stack.FirstFailure us e ∨ (∀ u ∈ us, stack.Resolves ∅ u) ∧ stack.FirstFailure vs e := by
  induction us with
  | nil => simp [not_firstFailure_nil]
  | cons u us ih =>
    rw [List.cons_append, firstFailure_cons_iff, firstFailure_cons_iff, ih,
      List.forall_mem_cons]
    tauto

/-- Parts that are asked for one after another fail as their calls do. -/
theorem gives_mapM_error_iff_calls (part : α → Value) {f : α → Plan β} {items : List α}
    (hok : ∀ x ∈ items, (∃ y, stack.Gives ∅ (f x) (.ok y)) ↔ stack.Resolves ∅ (part x))
    (herror : ∀ x ∈ items,
      stack.Gives ∅ (f x) (.error e) ↔ stack.FirstFailure (part x).calls e) :
    stack.Gives ∅ (items.mapM f) (.error e) ↔
      stack.FirstFailure (items.flatMap fun x => (part x).calls) e := by
  induction items with
  | nil => simp [not_firstFailure_nil]
  | cons x rest ih =>
    obtain ⟨hx, hrest⟩ := List.forall_mem_cons.mp hok
    obtain ⟨hx', hrest'⟩ := List.forall_mem_cons.mp herror
    rw [gives_mapM_cons_error_iff, List.flatMap_cons, firstFailure_append_iff, hx, hx',
      ih hrest hrest', resolves_iff_calls]

/-- **A value fails as its calls do**, with the error of the first one that fails. -/
theorem gives_error_iff_calls {v : Value} :
    stack.Gives ∅ (stack.plan v) (.error e) ↔ stack.FirstFailure v.calls e := by
  induction v using Value.induct with
  | null | boolean | number | string =>
    simp [plan, Value.calls, not_firstFailure_nil]
  | list items ih =>
    rw [plan, gives_map_error_iff, Value.calls, Value.itemCalls_eq_flatMap]
    refine gives_mapM_error_iff_calls (fun v => v) (fun v _ => ?_) fun v hv => ?_
    · simp only [gives_ask_iff, Resolves]
    · rw [gives_ask_iff, ih v hv]
  | mapping entries ih =>
    cases hc : Intrinsic.ofCall? entries with
    | some c =>
      rw [Value.calls_of_call hc, firstFailure_cons_iff]
      simp [not_firstFailure_nil]
    | none =>
      rw [Value.calls_of_data hc]
      simp only [plan, hc]
      rw [gives_map_error_iff]
      refine gives_mapM_error_iff_calls Prod.snd (fun e _ => ?_) fun e he => ?_
      · simp [gives_map_ok_iff, Resolves]
      · rw [gives_map_error_iff, gives_ask_iff, ih e he]

/-! ## 4. Locality -/

/-- **A call means the same wherever it stands.**  A value that resolves, after any operations,
resolves to itself with each call in its data replaced by what the call gives alone, in a new
session from some limit on.  A value that fails, other than by running out of depth, fails with
the error that the first failing call has alone; and so does every other value that has the same
calls up to that one, whatever follows. -/
theorem resolution_is_local (stack : Stack) (ops : List Operation) (v : Value) :
    (∀ w, (stack.operate (.resolve v) (stack.after ops .start)).1 = .ok (.value w) →
      ∃ value : Value → Value, w = v.replaceCalls value ∧
        ∀ u ∈ v.calls, stack.Eventually (.resolve u) (.ok (.value (value u)))) ∧
    ∀ e, (stack.operate (.resolve v) (stack.after ops .start)).1 = .error e →
      (∀ limit, e ≠ .depthExceeded limit) →
      ∃ before node after, v.calls = before ++ node :: after ∧
        (∀ u ∈ before, ∃ x, stack.Eventually (.resolve u) (.ok (.value x))) ∧
        stack.Eventually (.resolve node) (.error e) ∧
        ∀ v' after', v'.calls = before ++ node :: after' →
          stack.Eventually (.resolve v') (.error e) := by
  simp only [eventually_resolve_ok_iff, eventually_resolve_error_iff]
  refine ⟨fun w h => ?_, fun e h he => ?_⟩
  · have hgives := stack.gives_of_operate_resolve ops h
    have hcalls := resolves_iff_calls.mp ⟨w, hgives⟩
    choose! value hvalue using hcalls
    cases hgives.unique (gives_replaceCalls hvalue)
    exact ⟨value, rfl, hvalue⟩
  · rcases stack.operate_after_start ops (.resolve v) h with hd | hg
    · cases hd
      exact absurd rfl (he _)
    · rw [Operation.plan, gives_map_error_iff, gives_ask_iff, gives_error_iff_calls] at hg
      obtain ⟨before, node, after, hv, hbefore, hnode⟩ := hg
      refine ⟨before, node, after, hv, hbefore, hnode, fun v' after' hv' => ?_⟩
      rw [gives_error_iff_calls]
      exact ⟨before, node, after', hv', hbefore, hnode⟩

/-- Calls in a list resolve where they stand.  In a mapping the first failing call decides, though
the name in a later one is not declared. -/
theorem calls_resolve_in_place :
    let stack := ofDocument (.mapping [])
    let region := Value.mapping [("Ref", .string "AWS::Region")]
    let zones := Value.mapping [("Fn::GetAZs", .string "")]
    let ghost := Value.mapping [("Ref", .string "Ghost")]
    let v := Value.list [region, .list [.boolean true, region]]
    let v' := Value.mapping [("Here", .list [region, zones]), ("There", ghost)]
    (∃ value : Value → Value, v.replaceCalls value =
        .list [.string "eu-west-1", .list [.boolean true, .string "eu-west-1"]] ∧
      ∀ u ∈ v.calls, stack.Eventually (.resolve u) (.ok (.value (value u)))) ∧
    v'.calls = [region, zones, ghost] ∧
      stack.Eventually (.resolve v') (.error (.notImplemented .getAzs)) := by
  intro stack region zones ghost v v'
  have hok : (stack.operate (.resolve v) (stack.after [] .start)).1 = .ok (.value
      (.list [.string "eu-west-1", .list [.boolean true, .string "eu-west-1"]])) := by rfl
  have herror : (stack.operate (.resolve v') (stack.after [] .start)).1 =
      .error (.notImplemented .getAzs) := by rfl
  obtain ⟨hvalues, -⟩ := stack.resolution_is_local [] v
  obtain ⟨value, hw, hvalue⟩ := hvalues _ hok
  obtain ⟨-, herrors⟩ := stack.resolution_is_local [] v'
  obtain ⟨before, node, after, hcalls, -, -, hsame⟩ := herrors _ herror (by simp)
  exact ⟨⟨value, hw.symm, hvalue⟩, by rfl, hsame v' after hcalls⟩

end Stack
end StackTemplate
