import StackTemplate.Proofs.Repetition
import StackTemplate.Proofs.Warrant

/-!
# A name property without a value

A property that resolves to null stands for no value, as if it had been left out.  Section 14 of the
specification has the order of the properties that name a resource.  Which one does is decided
before any of them is resolved, though: the first one that is written is the only one that is looked
at.  So a property without a value counts as left out unless it stands before another one.  If it
does, the other one is passed over, and the resource has its declared name.

There are two cases, with two arguments.  A property that comes first and resolves to null does so
while the name is being worked out as well, since it cannot have asked for that name
(`gives_naming_of_null`).  A property that is passed over is never looked at, and a stack
without it does the same in every session (`operate_eq_of_passesOver`).

* `Template.withoutProperty`: a document without one property of one resource.
* `Stack.EndsAlike`: the same outcome, the depth exceeded aside.
-/

namespace StackTemplate

/-! ## 1. A document without a property -/

namespace Value

/-- A mapping with the value under `key` changed. -/
def modify (key : String) (f : Value → Value) : Value → Value
  | .mapping entries => .mapping (entries.map fun e => (e.1, if e.1 = key then f e.2 else e.2))
  | v => v

/-- A mapping without the entry under `key`. -/
def without (key : String) : Value → Value
  | .mapping entries => .mapping (entries.filter (·.1 ≠ key))
  | v => v

theorem get?_modify (v : Value) (key other : String) (f : Value → Value) :
    (v.modify key f).get? other = if other = key then (v.get? other).map f else v.get? other := by
  cases v with
  | mapping entries =>
    simp only [modify, get?_mapping]
    induction entries with
    | nil => simp
    | cons e rest ih =>
      obtain ⟨written, v⟩ := e
      simp only [List.map_cons, List.lookup_cons, ih]
      by_cases he : other = written
      · subst he
        by_cases hk : other = key <;> simp [hk]
      · simp only [beq_eq_false_iff_ne.mpr he]
  | null | boolean | number | string | list => simp [modify, get?, asMapping?]

theorem get?_without (v : Value) (key other : String) :
    (v.without key).get? other = if other = key then none else v.get? other := by
  cases v with
  | mapping entries =>
    simp only [without, get?_mapping]
    induction entries with
    | nil => simp
    | cons e rest ih =>
      obtain ⟨written, v⟩ := e
      by_cases hk : written = key
      · rw [List.filter_cons_of_neg (by simp [hk]), ih, List.lookup_cons]
        by_cases ho : other = key
        · rw [if_pos ho, if_pos ho]
        · rw [beq_eq_false_iff_ne.mpr (hk ▸ ho)]
      · rw [List.filter_cons_of_pos (by simp [hk]), List.lookup_cons, List.lookup_cons, ih]
        by_cases he : other = written
        · subst he
          simp only [beq_self_eq_true, if_neg hk]
        · rw [beq_eq_false_iff_ne.mpr he]
  | null | boolean | number | string | list => simp [without, get?, asMapping?]

end Value

namespace Resource

/-- The resource without a property. -/
def withoutProperty (r : Resource) (key : String) : Resource :=
  { r with definition := r.definition.modify "Properties" (·.without key) }

theorem typeName_withoutProperty (r : Resource) (key : String) :
    (r.withoutProperty key).typeName = r.typeName := by
  have htype : ("Type" : String) ≠ "Properties" := by decide
  rw [typeName, typeName, withoutProperty, Value.getString?, Value.getString?, Value.get?_modify,
    if_neg htype]

theorem property?_withoutProperty (r : Resource) (key other : String) :
    (r.withoutProperty key).property? other = if other = key then none else r.property? other := by
  rw [property?, property?, withoutProperty, Value.get?_modify, if_pos rfl]
  cases r.definition.get? "Properties" with
  | none => simp
  | some properties => exact properties.get?_without key other

end Resource

namespace Template

/-- The document without a property of the resource `name`. -/
def withoutProperty (t : Template) (name key : String) : Template :=
  ⟨t.document.modify "Resources" (·.modify name (·.modify "Properties" (·.without key)))⟩

theorem declarations_withoutProperty (t : Template) (name key : String) {part : String}
    (h : part ≠ "Resources") :
    (t.withoutProperty name key).declarations part = t.declarations part := by
  rw [declarations, declarations, withoutProperty, Value.get?_modify, if_neg h]

theorem resource?_withoutProperty (t : Template) (name key other : String) :
    (t.withoutProperty name key).resource? other = (t.resource? other).map fun r =>
      if other = name then r.withoutProperty key else r := by
  rw [resource?, resource?, lookup_declarations, lookup_declarations, withoutProperty,
    Value.get?_modify, if_pos rfl]
  cases t.document.get? "Resources" with
  | none => rfl
  | some resources =>
    rw [Option.map_some, Option.bind_some, Option.bind_some, Value.get?_modify]
    by_cases h : other = name
    · simp only [h, if_true, Option.map_map]
      rfl
    · simp only [h, if_false, Option.map_map]
      rfl

end Template

namespace Stack

/-- The stack on the document without a property of the resource `name`. -/
def withoutProperty (stack : Stack) (name key : String) : Stack :=
  { stack with template := stack.template.withoutProperty name key }

variable {stack : Stack} {r : Resource} {kind : ResourceKind}

theorem resource?_withoutProperty (hr : stack.template.resource? r.name = some r)
    (key : String) :
    (stack.withoutProperty r.name key).template.resource? r.name =
      some (r.withoutProperty key) := by
  change (stack.template.withoutProperty r.name key).resource? r.name = _
  rw [Template.resource?_withoutProperty, hr, Option.map_some, if_pos rfl]

/-! ## 2. The same outcome, depth aside -/

/-- **The operation ends alike on both stacks, the depth exceeded aside**: under no limit do they
end with two different outcomes of which neither is that the depth was exceeded, and from some
limit on they end with the same one. -/
def EndsAlike (stack stack' : Stack) (op : Operation) : Prop :=
  (∀ n, ((stack'.withLimit n).operate op .start).1 = ((stack.withLimit n).operate op .start).1 ∨
    OutOfDepth ((stack.withLimit n).operate op .start).1 ∨
    OutOfDepth ((stack'.withLimit n).operate op .start).1) ∧
  ∃ limit, ∀ n, limit ≤ n →
    ((stack'.withLimit n).operate op .start).1 = ((stack.withLimit n).operate op .start).1

/-- What has one and the same outcome on both stacks ends alike. -/
theorem endsAlike_of_eventually {stack' : Stack} {op : Operation}
    {outcome : Except ResolutionError Answer} (h : stack.Eventually op outcome)
    (h' : stack'.Eventually op outcome) : stack.EndsAlike stack' op := by
  have hgives := eventually_iff_gives.mp h
  have hgives' := eventually_iff_gives.mp h'
  constructor
  · intro n
    rcases stack.operate_withLimit_cases op n with hd | hg
    · exact Or.inr (Or.inl ⟨n, hd⟩)
    · rcases stack'.operate_withLimit_cases op n with hd' | hg'
      · exact Or.inr (Or.inr ⟨n, hd'⟩)
      · exact Or.inl ((hg'.unique hgives').trans (hg.unique hgives).symm)
  · obtain ⟨limit, hlimit⟩ := h
    obtain ⟨limit', hlimit'⟩ := h'
    refine ⟨max limit limit', fun n hn => ?_⟩
    rw [hlimit n (by omega), hlimit' n (by omega)]

/-- What ends alike has the same outcome. -/
theorem EndsAlike.eventually {stack' : Stack} {op : Operation}
    {outcome : Except ResolutionError Answer} (h : stack.EndsAlike stack' op)
    (ho : stack.Eventually op outcome) : stack'.Eventually op outcome := by
  obtain ⟨limit, hlimit⟩ := h.2
  obtain ⟨limit', hlimit'⟩ := ho
  refine ⟨max limit limit', fun n hn => ?_⟩
  rw [hlimit n (by omega), hlimit' n (by omega)]

/-! ## 3. The property that comes first -/

/-- A property that resolves to null does so while the name of its resource is being worked out:
it cannot have asked for that name.  The resource has its declared name. -/
theorem gives_naming_of_null {keys : List String} {property : Value} (hr : stack.Names r keys)
    (hp : r.firstProperty? keys = some property)
    (hnull : stack.Gives ∅ (stack.plan property) (.ok .null)) :
    stack.Gives (insert r.name ∅) (r.naming keys) (.ok r.name) := by
  have hproperty : stack.Gives (insert r.name ∅) (stack.plan property) (.ok .null) := by
    rcases hnull.insert_or (stack.honest_plan property) hr with hg | ⟨display, hdisplay⟩
    · exact hg
    · obtain ⟨w, hw, -⟩ := kind_of_gives_naming hp hdisplay
      cases (hw.anti (Set.empty_subset _)).unique hnull
      exact hw
  simp only [Resource.naming, hp]
  exact .resolve hproperty (.done r.name)

/-- The values of a resource are those of its kind, once its name is worked out. -/
theorem eventually_values (hr : stack.template.resource? r.name = some r)
    (hkind : ResourceKind.ofTypeName? r.typeName = some kind) {display : String}
    (hname : stack.Gives (insert r.name ∅) (r.naming kind.namingProperties) (.ok display)) :
    stack.Eventually (.values r.name) (.ok (.values (kind.values display stack.context))) := by
  rw [eventually_iff_gives]
  simp only [Operation.plan, hr, valuesOf, hkind]
  exact gives_map_ok_iff.mpr ⟨_, .name (Set.notMem_empty _) hname (.done _), rfl⟩

/-- A resource has its declared name if the first property that may name it resolves to null... -/
theorem eventually_values_of_null (hr : stack.template.resource? r.name = some r)
    (hkind : ResourceKind.ofTypeName? r.typeName = some kind) {property : Value}
    (hp : r.firstProperty? kind.namingProperties = some property)
    (hnull : stack.Eventually (.resolve property) (.ok (.value .null))) :
    stack.Eventually (.values r.name) (.ok (.values (kind.values r.name stack.context))) :=
  eventually_values hr hkind
    (gives_naming_of_null ⟨hr, kind, hkind, rfl⟩ hp (eventually_resolve_ok_iff.mp hnull))

/-- ...or if there is none. -/
theorem eventually_values_of_none (hr : stack.template.resource? r.name = some r)
    (hkind : ResourceKind.ofTypeName? r.typeName = some kind)
    (hp : r.firstProperty? kind.namingProperties = none) :
    stack.Eventually (.values r.name) (.ok (.values (kind.values r.name stack.context))) := by
  refine eventually_values hr hkind ?_
  simp only [Resource.naming, hp]
  exact .done r.name

end Stack

/-! ## 4. A property that is passed over -/

/-- The resource is named by the same value without the property. -/
def Resource.PassesOver (r : Resource) (key : String) : Prop :=
  ∀ kind, ResourceKind.ofTypeName? r.typeName = some kind →
    (r.withoutProperty key).firstProperty? kind.namingProperties =
      r.firstProperty? kind.namingProperties

/-- Resources correspond if they have one name and it comes from the same value. -/
def Correspondence.lookalike : Correspondence where
  asked := Eq
  answered := Eq
  named r r' keys := r'.name = r.name ∧ r'.firstProperty? keys = r.firstProperty? keys
  shown _ := True
  excused := False

instance : Correspondence.lookalike.OnDiagonal fun _ => True where
  asked := ⟨fun h => ⟨h, trivial⟩, fun h => h.1⟩
  answered := Iff.rfl
  named h := ⟨h.1, h.2, fun _ _ => trivial⟩

namespace Stack

variable {stack : Stack} {r : Resource} {kind : ResourceKind} {key : String}

theorem sameValues_withoutProperty (stack : Stack) (name : String) (hover : r.PassesOver key) :
    stack.SameValues .lookalike (stack.withoutProperty name key) r (r.withoutProperty key) where
  name := rfl
  typeName := r.typeName_withoutProperty key
  named kind hkind := ⟨rfl, hover kind hkind⟩
  values _ _ _ := rfl

/-- A stack corresponds to itself without a property that is passed over. -/
theorem corresponds_withoutProperty (hr : stack.template.resource? r.name = some r)
    (hover : r.PassesOver key) :
    stack.Corresponds .lookalike (stack.withoutProperty r.name key) where
  lawful := Correspondence.lawful_of_onDiagonal Value.closedUnderParts_true
  config := rfl
  pseudo _ _ := rfl
  parameter name := by
    have hsame : (stack.withoutProperty r.name key).template.parameter? name =
        stack.template.parameter? name :=
      congrArg (List.lookup name)
        (stack.template.declarations_withoutProperty r.name key (by decide))
    rw [hsame]
    exact Or.inr (rel_self fun _ _ => Plan.parallel_ofExcept fun _ _ => rfl)
  resource name := by
    have hsame : (stack.withoutProperty r.name key).template.resource? name =
        (stack.template.resource? name).map fun r' =>
          if name = r.name then r'.withoutProperty key else r' :=
      stack.template.resource?_withoutProperty r.name key name
    rw [hsame]
    by_cases hname : name = r.name
    · rw [hname, hr, Option.map_some, if_pos rfl]
      exact Or.inr (.some (stack.sameValues_withoutProperty r.name hover))
    · simp only [if_neg hname, Option.map_id']
      exact Or.inr (rel_self fun r' _ => sameValues_self rfl fun _ => ⟨rfl, rfl⟩)
  condition name := by
    have hsame : (stack.withoutProperty r.name key).template.condition? name =
        stack.template.condition? name :=
      congrArg (List.lookup name)
        (stack.template.declarations_withoutProperty r.name key (by decide))
    rw [hsame]
    exact Or.inr (rel_self fun _ _ => rfl)
  entry mapping entry attr := by
    have hsame : (stack.withoutProperty r.name key).template.mappingEntry? mapping entry attr =
        stack.template.mappingEntry? mapping entry attr := by
      have hdeclared := stack.template.declarations_withoutProperty r.name key
        (show "Mappings" ≠ "Resources" by decide)
      rw [Template.mappingEntry?, Template.mappingEntry?, ← hdeclared]
      rfl
    rw [hsame]
    exact Or.inr (rel_self fun _ _ => rfl)
  shown_ref _ _ _ _ _ := trivial
  shown_sub _ _ _ _ _ _ _ _ _ := trivial

/-- **A property that is passed over is not looked at**: without it the values of its resource are
found in the same way, in every session. -/
theorem operate_eq_of_passesOver (hr : stack.template.resource? r.name = some r)
    (hover : r.PassesOver key) (s : Session) :
    (stack.withoutProperty r.name key).operate (.values r.name) s =
      stack.operate (.values r.name) s := by
  have hcorresponds := corresponds_withoutProperty hr hover
  have hvalues := Corresponds.parallel_valuesOf (stack.sameValues_withoutProperty r.name hover)
  refine hcorresponds.operate_repeatedBy Value.closedUnderParts_true (.values r.name) ?_ s
    fun _ _ hexcused => hexcused
  simp only [Operation.plan, hr, resource?_withoutProperty hr]
  refine Plan.parallel_map (hvalues.mono ?_)
  rintro values _ rfl
  rfl

theorem endsAlike_of_passesOver (hr : stack.template.resource? r.name = some r)
    (hover : r.PassesOver key) :
    stack.EndsAlike (stack.withoutProperty r.name key) (.values r.name) := by
  have hsame (n : Nat) := congrArg Prod.fst
    (@operate_eq_of_passesOver (stack.withLimit n) r key hr hover .start)
  exact ⟨fun n => Or.inl (hsame n), 0, fun n _ => hsame n⟩

end Stack

/-! ## 5. All kinds -/

/-- A kind has the generic property last, and before it at most one of its own. -/
theorem ResourceKind.namingProperties_cases (kind : ResourceKind) :
    kind.namingProperties = ["Name"] ∨
      ∃ own, own ≠ "Name" ∧ kind.namingProperties = [own, "Name"] := by
  rw [namingProperties]
  cases hown : kind.ownNamingProperty? with
  | none => exact Or.inl rfl
  | some own =>
    refine Or.inr ⟨own, ?_, rfl⟩
    cases kind <;> cases hown <;> decide

/-- A property of a kind's own comes first, and the generic one after it. -/
theorem Resource.firstProperty?_of_own (r : Resource) {kind : ResourceKind} {key : String}
    (hkey : key ∈ kind.namingProperties) (hown : key ≠ "Name") :
    r.firstProperty? kind.namingProperties = (r.property? key).or (r.property? "Name") := by
  rcases kind.namingProperties_cases with hkeys | ⟨own, -, hkeys⟩
  · rw [hkeys] at hkey
    exact absurd (List.mem_singleton.mp hkey) hown
  · obtain rfl : key = own := by simpa [hkeys, hown] using hkey
    rw [hkeys, firstProperty?]
    cases hproperty : r.property? key <;> simp [hproperty]

namespace Stack

variable {stack : Stack} {r : Resource} {kind : ResourceKind} {key : String}

/-- A property that resolves to null counts as left out if no other property names its resource. -/
theorem endsAlike_of_only (hr : stack.template.resource? r.name = some r)
    (hkind : ResourceKind.ofTypeName? r.typeName = some kind) {property : Value}
    (hp : r.firstProperty? kind.namingProperties = some property)
    (hnone : (r.withoutProperty key).firstProperty? kind.namingProperties = none)
    (hnull : stack.Eventually (.resolve property) (.ok (.value .null))) :
    stack.EndsAlike (stack.withoutProperty r.name key) (.values r.name) := by
  have hr' : (stack.withoutProperty r.name key).template.resource? (r.withoutProperty key).name =
      some (r.withoutProperty key) := resource?_withoutProperty hr key
  have hkind' : ResourceKind.ofTypeName? (r.withoutProperty key).typeName = some kind := by
    rw [r.typeName_withoutProperty key]
    exact hkind
  exact endsAlike_of_eventually (eventually_values_of_null hr hkind hp hnull)
    (eventually_values_of_none (r := r.withoutProperty key) hr' hkind' hnone)

/-- The generic property counts as left out if it resolves to null: a property before it is the
one that is looked at. -/
theorem endsAlike_of_generic (hr : stack.template.resource? r.name = some r)
    (hkind : ResourceKind.ofTypeName? r.typeName = some kind) {property : Value}
    (hproperty : r.property? "Name" = some property)
    (hnull : stack.Eventually (.resolve property) (.ok (.value .null))) :
    stack.EndsAlike (stack.withoutProperty r.name "Name") (.values r.name) := by
  have hwithout (other : String) := r.property?_withoutProperty "Name" other
  rcases kind.namingProperties_cases with hkeys | ⟨own, hown, hkeys⟩
  · exact endsAlike_of_only hr hkind (by simp [Resource.firstProperty?, hkeys, hproperty])
      (by simp [Resource.firstProperty?, hkeys, hwithout]) hnull
  · cases hfirst : r.property? own with
    | none =>
      exact endsAlike_of_only hr hkind
        (by simp [Resource.firstProperty?, hkeys, hfirst, hproperty])
        (by simp [Resource.firstProperty?, hkeys, hwithout, hfirst]) hnull
    | some first =>
      refine endsAlike_of_passesOver hr fun kind' hkind' => ?_
      obtain rfl : kind = kind' := Option.some.inj (hkind.symm.trans hkind')
      simp [Resource.firstProperty?, hkeys, hwithout, hfirst, hown]

/-- **A name property without a value.**  Let a property that may name a resource resolve to null.

* The resource has the values that it has without the property exactly if the property is the
  generic one, or without it the resource has its declared name as well.
* So it is if there is no generic property.
* A property of the kind's own gives the resource its declared name, whatever the generic property
  is. -/
theorem null_name_property (stack : Stack) {r : Resource} {kind : ResourceKind} {key : String}
    {property : Value} (hr : stack.template.resource? r.name = some r)
    (hkind : ResourceKind.ofTypeName? r.typeName = some kind) (hkey : key ∈ kind.namingProperties)
    (hproperty : r.property? key = some property)
    (hnull : stack.Eventually (.resolve property) (.ok (.value .null))) :
    let stack' := stack.withoutProperty r.name key
    let declared := kind.values r.name stack.context
    (stack.EndsAlike stack' (.values r.name) ↔
      key = "Name" ∨ stack'.Eventually (.values r.name) (.ok (.values declared))) ∧
    (r.property? "Name" = none → stack.EndsAlike stack' (.values r.name)) ∧
    (key ≠ "Name" → stack.Eventually (.values r.name) (.ok (.values declared))) := by
  intro stack' declared
  by_cases hname : key = "Name"
  · subst hname
    have halike := endsAlike_of_generic hr hkind hproperty hnull
    exact ⟨iff_of_true halike (Or.inl rfl), fun _ => halike, fun h => absurd rfl h⟩
  · have hfirst : r.firstProperty? kind.namingProperties = some property := by
      rw [r.firstProperty?_of_own hkey hname, hproperty, Option.some_or]
    have hdeclared := eventually_values_of_null hr hkind hfirst hnull
    refine ⟨⟨fun halike => Or.inr (halike.eventually hdeclared), ?_⟩, fun hgeneric => ?_,
      fun _ => hdeclared⟩
    · rintro (h | hdeclared')
      · exact absurd h hname
      · exact endsAlike_of_eventually hdeclared hdeclared'
    · refine endsAlike_of_only hr hkind hfirst ?_ hnull
      rw [Resource.firstProperty?_of_own _ hkey hname, r.property?_withoutProperty,
        r.property?_withoutProperty, if_pos rfl, hgeneric, ite_self, Option.none_or]

/-- A queue that is named by the no-value marker only has its declared name, as it has without
that. -/
theorem queue_named_by_no_value_has_declared_name :
    let marker := Value.mapping [("Ref", .string "AWS::NoValue")]
    let queue := Resource.mk "Jobs" (.mapping [("Type", .string "AWS::SQS::Queue"),
      ("Properties", .mapping [("QueueName", marker)])])
    let stack := ofDocument (.mapping [("Resources", .mapping [("Jobs", queue.definition)])])
    stack.template.resource? queue.name = some queue ∧
      stack.Eventually (.resolve marker) (.ok (.value .null)) ∧
      stack.EndsAlike (stack.withoutProperty "Jobs" "QueueName") (.values "Jobs") ∧
      stack.Eventually (.values "Jobs")
        (.ok (.values (ResourceKind.sqsQueue.values "Jobs" stack.context))) := by
  intro marker queue stack
  have hnull : stack.Eventually (.resolve marker) (.ok (.value .null)) :=
    eventually_of_operate stack 2 [] (by rfl)
  have hkey : "QueueName" ∈ ResourceKind.sqsQueue.namingProperties := by decide
  obtain ⟨-, halike, hdeclared⟩ :=
    null_name_property stack (r := queue) (by rfl) (by rfl) hkey (by rfl) hnull
  exact ⟨rfl, hnull, halike rfl, hdeclared (by decide)⟩

/-- **The no-value marker is not the same as no property**: a queue that has a generic name behind
it is not given that one, which it has without the marker. -/
theorem no_value_hides_generic_name :
    let marker := Value.mapping [("Ref", .string "AWS::NoValue")]
    let queue := Resource.mk "Jobs" (.mapping [("Type", .string "AWS::SQS::Queue"),
      ("Properties", .mapping [("QueueName", marker), ("Name", .string "generic")])])
    let stack := ofDocument (.mapping [("Resources", .mapping [("Jobs", queue.definition)])])
    stack.template.resource? queue.name = some queue ∧
      ResourceKind.ofTypeName? queue.typeName = some .sqsQueue ∧
      "QueueName" ∈ ResourceKind.sqsQueue.namingProperties ∧
      queue.property? "QueueName" = some marker ∧
      stack.Eventually (.resolve marker) (.ok (.value .null)) ∧
      ¬ stack.EndsAlike (stack.withoutProperty "Jobs" "QueueName") (.values "Jobs") := by
  intro marker queue stack
  refine ⟨rfl, rfl, by decide, rfl, eventually_of_operate stack 2 [] (by rfl), fun halike => ?_⟩
  have hdeclared : stack.Eventually (.values "Jobs")
      (.ok (.values (ResourceKind.sqsQueue.values "Jobs" stack.context))) :=
    eventually_of_operate stack 2 [] (by rfl)
  have hgeneric : (stack.withoutProperty "Jobs" "QueueName").Eventually (.values "Jobs")
      (.ok (.values (ResourceKind.sqsQueue.values "generic" stack.context))) :=
    eventually_of_operate (stack.withoutProperty "Jobs" "QueueName") 2 [] (by rfl)
  have hsame := (eventually_iff_gives.mp (halike.eventually hdeclared)).unique
    (eventually_iff_gives.mp hgeneric)
  simp only [Except.ok.injEq, Answer.values.injEq] at hsame
  have hname : some "Jobs" = some "generic" :=
    congrArg (fun values : ResourceValues => values.attribute? "QueueName") hsame
  exact absurd hname (by decide)

end Stack
end StackTemplate
