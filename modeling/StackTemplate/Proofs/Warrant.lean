import StackTemplate.Proofs.Eventual

/-!
# Every error is true

An error may surface far from the operation that was called: from the name of a resource, from
a condition, or from a placeholder.  Wherever it comes from, and whatever has been carried out
before, what it says is so.  `Stack.Warrants` says what has to be so for each error.

Most errors are about the template alone, and there it is enough that plans are honest.  An
error about the name of a resource is about a session as well: it must be the error that the
resource has in a new session.  A name refers to itself if it does so while no other name is
being worked out (`Gives.refersToItself_anti`).  A name that is no string was found under other
names, and is found again under its own (`Gives.insert_or`).

* `warrants_invalidName`: the error of a name, from what the name gives by itself.
* `warrants_of_gives`: every error that a plan gives is warranted, by induction on how it is given.
-/

namespace StackTemplate
namespace Stack

/-! ## 1. What has to be so -/

/-- **The stack warrants the error**: what the error says is so.

The limit that was exceeded is the limit that was set.  A resource whose name is invalid is
declared with a known kind, and in a new session its values fail with this very error under
every limit that is not exceeded, from some limit on.  All other errors are about the template
(`Stack.Fault`), where a value resolves to what it resolves to in a new session, from some limit
on. -/
def Warrants (stack : Stack) : ResolutionError → Prop
  | .depthExceeded limit => limit = stack.config.maxDepth
  | .invalidName resource fault =>
    (∃ r kind, stack.template.resource? resource = some r ∧
      r.typeName = ResourceKind.typeName kind) ∧
    stack.Eventually (.values resource) (.error (.invalidName resource fault)) ∧
    (∀ n, ((stack.withLimit n).operate (.values resource) .start).1 =
        .error (.invalidName resource fault) ∨
      ((stack.withLimit n).operate (.values resource) .start).1 = .error (.depthExceeded n)) ∧
    ∀ found, fault = .notString found → found.kind ≠ .string ∧ found.kind ≠ .null
  | e => stack.Fault (fun v w => stack.Eventually (.resolve v) (.ok (.value w))) e

variable {stack : Stack} {α : Type} {busy : Set String}

/-! ## 2. Invalid names -/

/-- A property that names its resource resolves to a string or to null. -/
theorem kind_of_gives_naming {r : Resource} {keys : List String} {property : Value}
    (hp : r.firstProperty? keys = some property) {name : String}
    (h : stack.Gives busy (r.naming keys) (.ok name)) :
    ∃ w, stack.Gives busy (stack.plan property) (.ok w) ∧
      (w.kind = .string ∨ w.kind = .null) := by
  simp only [Resource.naming, hp] at h
  rcases gives_resolve_iff.mp h with ⟨w, hw, hn⟩ | ⟨e, he, -⟩
  · refine ⟨w, hw, ?_⟩
    cases w with
    | string _ => exact Or.inl rfl
    | null => exact Or.inr rfl
    | boolean | number | list | mapping => exact (gives_fail_ok_iff.mp hn).elim
  · cases he

theorem gives_naming_notString {r : Resource} {keys : List String} {property found : Value}
    (hp : r.firstProperty? keys = some property)
    (h : stack.Gives busy (stack.plan property) (.ok found)) (hs : found.kind ≠ .string)
    (hn : found.kind ≠ .null) :
    stack.Gives busy (r.naming keys) (.error (.invalidName r.name (.notString found))) := by
  simp only [Resource.naming, hp]
  refine .resolve h ?_
  cases found with
  | string _ => exact absurd rfl hs
  | null => exact absurd rfl hn
  | boolean | number | list | mapping =>
    refine .fail fun limit he => ?_
    cases he

/-- A value is given while one more name is being worked out, or that name itself is given. -/
theorem Gives.insert_or {plan : Plan α} {a : α} (h : stack.Gives busy plan (.ok a))
    (hp : plan.Honest stack fun _ _ => True) {r : Resource} {keys : List String}
    (hr : stack.Names r keys) :
    stack.Gives (insert r.name busy) plan (.ok a) ∨
      ∃ name, stack.Gives (insert r.name busy) (r.naming keys) (.ok name) := by
  generalize ho : (Except.ok a : Except ResolutionError α) = outcome at h
  induction h with
  | done b =>
    cases ho
    exact Or.inl (.done _)
  | fail _ => cases ho
  | @resolve _ _ v w next _ _ _ ihv ihn =>
    rcases ihv (stack.honest_plan v) rfl with hv | hname
    · rcases ihn (hp w trivial) ho with hn | hname
      · exact Or.inl (.resolve hv hn)
      · exact Or.inr hname
    · exact Or.inr hname
  | resolveError _ _ => cases ho
  | @name _ busy r' keys' name next _ hr' hk _ ihk ihn =>
    by_cases he : r'.name = r.name
    · obtain ⟨rfl, rfl⟩ := hp.1.unique hr he
      exact Or.inr ⟨name, hk⟩
    · rcases ihk (stack.honest_naming hp.1) rfl with hk' | ⟨name', hname⟩
      · rcases ihn (hp.2 name) ho with hn | hname
        · rw [Set.insert_comm] at hk'
          have hnot : r'.name ∉ insert r.name busy := by
            simp [he, hr']
          exact Or.inl (.name hnot hk' hn)
        · exact Or.inr hname
      · have hsub : insert r.name busy ⊆ insert r.name (insert r'.name busy) :=
          Set.insert_subset_insert (Set.subset_insert _ _)
        exact Or.inr ⟨name', hname.anti hsub⟩
  | nameError _ _ _ => cases ho
  | busy _ => cases ho

/-- A property that resolves to something else than a string or null does so while the name of
its resource is being worked out: it cannot have asked for that name. -/
theorem gives_property_insert {r : Resource} {keys : List String} {property found : Value}
    (hr : stack.Names r keys) (hp : r.firstProperty? keys = some property)
    (h : stack.Gives ∅ (stack.plan property) (.ok found)) (hs : found.kind ≠ .string)
    (hn : found.kind ≠ .null) :
    stack.Gives (insert r.name ∅) (stack.plan property) (.ok found) := by
  rcases h.insert_or (stack.honest_plan property) hr with hg | ⟨name, hname⟩
  · exact hg
  · obtain ⟨w, hw, hkind⟩ := kind_of_gives_naming hp hname
    cases (hw.anti (Set.empty_subset _)).unique h
    rcases hkind with hkind | hkind
    · exact absurd hkind hs
    · exact absurd hkind hn

/-- An error that a resource's name has while no other name is being worked out is warranted. -/
theorem warrants_invalidName {r : Resource} {keys : List String} (hr : stack.Names r keys)
    {fault : NameFault}
    (hg : stack.Gives (insert r.name ∅) (r.naming keys) (.error (.invalidName r.name fault)))
    (hf : ∀ found, fault = .notString found → found.kind ≠ .string ∧ found.kind ≠ .null) :
    stack.Warrants (.invalidName r.name fault) := by
  obtain ⟨hdeclared, kind, hkind, rfl⟩ := hr
  have hvalues : stack.Gives ∅ ((Operation.values r.name).plan stack)
      (.error (.invalidName r.name fault)) := by
    simp only [Operation.plan, hdeclared, valuesOf, hkind]
    rw [gives_map_error_iff]
    exact .nameError (Set.notMem_empty _) hg
  refine ⟨⟨r, kind, hdeclared, ?_⟩, eventually_iff_gives.mpr hvalues, fun n => ?_, hf⟩
  · exact (ResourceKind.typeName_of_ofTypeName? hkind).symm
  · rcases stack.operate_withLimit_cases (.values r.name) n with hd | hn
    · exact Or.inr hd
    · exact Or.inl (hn.unique hvalues)

/-! ## 3. What a plan gives is warranted -/

/-- A fault that is true of the template is warranted. -/
theorem Fault.warrants {e : ResolutionError}
    (h : stack.Fault (fun v w => stack.Gives ∅ (stack.plan v) (.ok w)) e) :
    stack.Warrants e := by
  cases e with
  | invalidName resource fault =>
    obtain ⟨r, keys, property, found, rfl, hr, hp, rfl, hfound, hs, hn⟩ := h
    have hinsert := gives_property_insert hr hp hfound hs hn
    refine warrants_invalidName hr (gives_naming_notString hp hinsert hs hn) fun found' he => ?_
    cases he
    exact ⟨hs, hn⟩
  | conditionNotBoolean name found =>
    obtain ⟨expression, hexpression, hfound, hkind⟩ := h
    exact ⟨expression, hexpression, eventually_resolve_ok_iff.mpr hfound, hkind⟩
  | depthExceeded limit => exact h.elim
  | _ => exact h

/-- **What a plan gives is warranted**, unless it is about a name that is being worked out from
outside. -/
theorem warrants_of_gives {plan : Plan α} {e : ResolutionError}
    (h : stack.Gives busy plan (.error e))
    (hp : plan.Honest stack fun v w => stack.Gives ∅ (stack.plan v) (.ok w)) :
    stack.Warrants e ∨ ∃ name ∈ busy, e = .invalidName name .refersToItself := by
  generalize ho : (.error e : Except ResolutionError α) = outcome at h
  induction h with
  | done _ => cases ho
  | fail _ =>
    cases ho
    exact Or.inl hp.warrants
  | resolve hv hn ihv ihn => exact ihn (hp _ (hv.anti (Set.empty_subset _))) ho
  | @resolveError _ _ v _ _ hv ih =>
    cases ho
    exact ih (stack.honest_plan v) rfl
  | name hr hk hn ihk ihn => exact ihn (hp.2 _) ho
  | @nameError _ _ r keys _ _ hr hk ih =>
    cases ho
    rcases ih (stack.honest_naming hp.1) rfl with hw | ⟨name, hname, rfl⟩
    · exact Or.inl hw
    · rcases Set.mem_insert_iff.mp hname with rfl | hname
      · -- the name found its way back to itself, and does so whatever else is being worked out
        have hself := hk.refersToItself_anti
          (Set.insert_subset_insert (Set.empty_subset _)) (Set.mem_insert _ _)
        refine Or.inl (warrants_invalidName hp.1 hself fun found hf => ?_)
        cases hf
      · exact Or.inr ⟨name, hname, rfl⟩
  | @busy _ _ r _ _ hr =>
    cases ho
    exact Or.inr ⟨r.name, hr, rfl⟩

/-- **Every error is true**: whatever has been carried out before, an operation fails only with
an error that the stack warrants. -/
theorem error_is_warranted (stack : Stack) (ops : List Operation) (op : Operation)
    {e : ResolutionError}
    (h : (stack.operate op (stack.after ops .start)).1 = .error e) : stack.Warrants e := by
  rcases stack.operate_after_start ops op h with hd | hg
  · cases hd
    exact rfl
  · rcases warrants_of_gives hg (stack.honest_operation op) with hw | ⟨name, hname, -⟩
    · exact hw
    · exact absurd hname (Set.notMem_empty name)

/-- Two topics that are named after each other: each name is invalid, also after the other one
has failed. -/
theorem cyclic_names_are_warranted :
    let topic (other : String) := Value.mapping [("Type", .string "AWS::SNS::Topic"),
      ("Properties", .mapping [("TopicName", .mapping [("Ref", .string other)])])]
    let stack := ofDocument (.mapping [("Resources", .mapping [("A", topic "B"),
      ("B", topic "A")])])
    (stack.operate (.reference "B") (stack.after [.reference "A"] .start)).1 =
        .error (.invalidName "B" .refersToItself) ∧
      stack.Warrants (.invalidName "B" .refersToItself) := by
  intro topic stack
  have hrun : (stack.operate (.reference "B") (stack.after [.reference "A"] .start)).1 =
      .error (.invalidName "B" .refersToItself) := by rfl
  exact ⟨hrun, stack.error_is_warranted [.reference "A"] (.reference "B") hrun⟩

end Stack
end StackTemplate
