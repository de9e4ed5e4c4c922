import StackTemplate.Proofs.Reordered
import StackTemplate.Proofs.Warrant

/-!
# The order of keys does not matter

Two stacks whose documents differ in the order of keys alone resolve values that differ in it alone
to values that differ in it alone.  The sessions do not run side by side: the entries of a mapping
are resolved in another order, so names become known in another order, another error may come
first, and one of the two may run out of depth where the other does not.  So the comparison is
made where there is no depth and no memory (`Stack.Gives`), and from there it holds of all
sessions.

What is assumed of the answers, and comes out again (`Stack.Sustains`), is that the other stack
answers as well, and alike (`Stack.Mirrored`).

* `corresponds_of_reordered`: the two stacks correspond, so all functions are in parallel.
* `exists_gives_of_reordered`: what the one stack resolves, the other one resolves alike.
-/

namespace StackTemplate

/-! ## 1. Templates in another order -/

/-- No default of a parameter is a list with a mapping in it, at any depth.  The text of such a
default would show the order of keys. -/
def Template.PlainDefaults (t : Template) : Prop :=
  ∀ name declaration items, t.parameter? name = some declaration →
    declaration.get? "Default" = some (.list items) →
    ∀ entries, ¬ (Value.list items).Contains (.mapping entries)

namespace Template

open Value (Reordered)

variable {t t' : Template} (h : t.document.Reordered t'.document)
include h

theorem rel_lookup (name key : String) :
    Option.Rel Reordered ((t.declarations name).lookup key)
      ((t'.declarations name).lookup key) := by
  rw [lookup_declarations, lookup_declarations]
  exact rel_bind (h.get? name) fun _ _ hv => hv.get? key

theorem rel_mappingEntry? (mapping key attr : String) :
    Option.Rel Reordered (t.mappingEntry? mapping key attr) (t'.mappingEntry? mapping key attr) :=
  rel_bind (rel_lookup h "Mappings" mapping) fun _ _ htable =>
    rel_bind (htable.get? key) fun _ _ hrow => hrow.get? attr

theorem rel_parameter? (name : String) :
    Option.Rel Reordered (t.parameter? name) (t'.parameter? name) :=
  rel_lookup h "Parameters" name

theorem rel_resource? (name : String) :
    Option.Rel (fun r r' => r'.name = r.name ∧ r.definition.Reordered r'.definition)
      (t.resource? name) (t'.resource? name) := by
  have hlookup := rel_lookup h "Resources" name
  unfold resource?
  generalize (t.declarations "Resources").lookup name = found,
    (t'.declarations "Resources").lookup name = found' at hlookup
  cases hlookup with
  | none => exact .none
  | some hdefinition => exact .some ⟨rfl, hdefinition⟩

theorem PlainDefaults.of_reordered (hdefaults : t.PlainDefaults) : t'.PlainDefaults := by
  intro name declaration' items' hname hdefault'
  have hparameter := rel_parameter? h name
  rw [hname] at hparameter
  obtain ⟨declaration, hd, hdeclaration⟩ := exists_of_rel_some hparameter
  have hdefault := hdeclaration.get? "Default"
  rw [hdefault'] at hdefault
  obtain ⟨v, hv, hvalue⟩ := exists_of_rel_some hdefault
  cases hvalue.alike with
  | list _ =>
    have hplain := hdefaults name declaration _ hd hv
    rwa [← hvalue.eq_of_no_mapping hplain]

end Template

/-- The value of a parameter shows no order of keys. -/
theorem Parameter.value_eq_of_reordered {declaration declaration' : Value}
    (h : declaration.Reordered declaration')
    (hdefault : ∀ items, declaration.get? "Default" = some (.list items) →
      ∀ entries, ¬ (Value.list items).Contains (.mapping entries))
    (name : String) (supplied : Option String) :
    value name declaration' supplied = value name declaration supplied := by
  have hdeclared : declaredType declaration' = declaredType declaration := by
    rw [declaredType, declaredType, h.getString?_eq]
  have htext : defaultText? (declaration'.get? "Default") =
      defaultText? (declaration.get? "Default") := by
    have hrel := h.get? "Default"
    generalize declaration.get? "Default" = found, declaration'.get? "Default" = found'
      at hrel hdefault
    cases hrel with
    | none => rfl
    | @some v v' hv =>
      cases v with
      | list items => rw [hv.eq_of_no_mapping (hdefault items rfl)]
      | null | boolean | number | string | mapping =>
        cases hv.alike
        rfl
  simp only [value, hdeclared, htext]

theorem Resource.rel_firstProperty? {r r' : Resource}
    (h : r.definition.Reordered r'.definition) (keys : List String) :
    Option.Rel Value.Reordered (r.firstProperty? keys) (r'.firstProperty? keys) := by
  unfold firstProperty?
  induction keys with
  | nil => exact .none
  | cons key rest ih =>
    have hproperty : Option.Rel Value.Reordered (r.property? key) (r'.property? key) :=
      rel_bind (h.get? "Properties") fun _ _ hp => hp.get? key
    rw [List.findSome?_cons, List.findSome?_cons]
    generalize r.property? key = found, r'.property? key = found' at hproperty
    cases hproperty with
    | none => exact ih
    | some hv => exact .some hv

namespace Stack

open Plan (Parallel)

/-! ## 2. Stacks in another order -/

/-- Values correspond up to the order of keys, and so do the resources that have a name. -/
def reordering (stack stack' : Stack) : Correspondence where
  asked := Value.Reordered
  answered := Value.Reordered
  named r r' keys := r'.name = r.name ∧ r.definition.Reordered r'.definition ∧
    stack.Names r keys ∧ stack'.Names r' keys
  shown _ := True
  excused := True

theorem lawful_reordering (stack stack' : Stack) : (stack.reordering stack').Lawful where
  asked _ _ h := h.alike
  answered _ _ h := h.alike
  answer _ _ hw h := Value.reordered_of_alike hw h
  same _ _ _ _ hv hw := hv.same_eq hw
  exact := Or.inl trivial

/-- Stacks that differ in the order of keys of their documents correspond, if no value of a
parameter shows it. -/
theorem corresponds_of_values (stack : Stack) {t' : Template}
    (h : stack.template.document.Reordered t'.document)
    (hvalues : ∀ name declaration declaration', stack.template.parameter? name = some declaration →
      t'.parameter? name = some declaration' → ∀ supplied,
      Parameter.value name declaration' supplied = Parameter.value name declaration supplied) :
    stack.Corresponds (stack.reordering { stack with template := t' })
      { stack with template := t' } where
  lawful := lawful_reordering _ _
  config := rfl
  pseudo p _ := by
    have hC := lawful_reordering stack { stack with template := t' }
    cases p with
    | noValue => exact hC.null
    | notificationArns => exact hC.strings _
    | accountId | region | stackName | stackId | partition | urlSuffix => exact hC.string _
  parameter name := by
    have hrel := Template.rel_parameter? h name
    have hvalue := hvalues name
    refine Or.inr ?_
    change Option.Rel _ (stack.template.parameter? name) (t'.parameter? name)
    generalize stack.template.parameter? name = found, t'.parameter? name = found'
      at hrel hvalue ⊢
    cases hrel with
    | none => exact .none
    | some _ =>
      refine .some ?_
      rw [hvalue _ _ rfl rfl]
      exact Plan.parallel_ofExcept fun v hv =>
        Parameter.holds_of_value (p := fun v => v.Reordered v) (fun _ => rfl) (fun _ => rfl)
          (fun _ hitems => Value.reordered_list_iff.mpr (List.forall₂_same.mpr hitems)) hv
  resource name := by
    have hrel := Template.rel_resource? h name
    refine Or.inr ?_
    change Option.Rel _ (stack.template.resource? name) (t'.resource? name)
    generalize hr : stack.template.resource? name = found, hr' : t'.resource? name = found'
      at hrel ⊢
    cases hrel with
    | none => exact .none
    | @some r r' hrr' =>
      obtain ⟨hname, hdefinition⟩ := hrr'
      have htype : r'.typeName = r.typeName := by
        rw [Resource.typeName, Resource.typeName, hdefinition.getString?_eq]
      refine .some ⟨hname, htype, fun kind hk => ⟨hname, hdefinition, ?_, ?_⟩, fun _ _ _ => rfl⟩
      · exact ⟨by rwa [Template.name_of_resource? hr], kind, hk, rfl⟩
      · exact ⟨by rwa [Template.name_of_resource? hr'], kind, by rwa [htype], rfl⟩
  condition name := Or.inr (Template.rel_lookup h "Conditions" name)
  entry mapping key attr := Or.inr (Template.rel_mappingEntry? h mapping key attr)
  shown_ref _ _ _ _ _ := trivial
  shown_sub _ _ _ _ _ _ _ _ _ := trivial

/-- Stacks that differ in the order of keys of their documents correspond. -/
theorem corresponds_of_reordered (stack : Stack) {t' : Template}
    (h : stack.template.document.Reordered t'.document)
    (hdefaults : stack.template.PlainDefaults) :
    stack.Corresponds (stack.reordering { stack with template := t' })
      { stack with template := t' } := by
  refine stack.corresponds_of_values h fun name declaration declaration' hd hd' supplied => ?_
  have hrel := Template.rel_parameter? h name
  rw [hd, hd'] at hrel
  cases hrel with
  | some hdeclaration =>
    exact Parameter.value_eq_of_reordered hdeclaration
      (fun items => hdefaults name declaration items hd) name supplied

/-! ## 3. What the other stack gives -/

variable {stack stack' : Stack}

/-- The stack resolves every value that differs from `v` in the order of keys alone, to one that
differs from `w` in it alone. -/
def Mirrored (stack : Stack) (v w : Value) : Prop :=
  ∀ v', v.Reordered v' → ∃ w', stack.Gives ∅ (stack.plan v') (.ok w') ∧ w.Reordered w'

/-- The second stack works out the same name for the same resource. -/
def MirroredName (stack stack' : Stack) (r : Resource) (name : String) : Prop :=
  ∀ r' keys, (stack.reordering stack').named r r' keys →
    stack'.Gives (insert r'.name ∅) (r'.naming keys) (.ok name)

/-- **Of two parallel plans the second one gives what the first one ensures.** -/
theorem ensures_of_parallel {α β : Type} {R : α → β → Prop} {plan : Plan α} {plan' : Plan β}
    (h : Parallel (stack.reordering stack') R plan plan') :
    plan.Ensures (stack.Given stack'.Mirrored) (stack.MirroredName stack')
      fun a => ∃ b, stack'.Gives ∅ plan' (.ok b) ∧ R a b := by
  induction h with
  | done h => exact ⟨_, .done _, h⟩
  | fail _ => trivial
  | excused _ _ _ => trivial
  | @resolve v v' next next' hv _ ih =>
    rintro w ⟨hw, hmirrored⟩
    obtain ⟨w', hw', hww'⟩ := hmirrored v' hv
    have hliteral : Literally v w := by
      rintro text rfl
      cases hw
      rfl
    exact (ih w w' hww' hliteral).mono fun a ⟨b, hb, hab⟩ => ⟨b, .resolve hw' hb, hab⟩
  | @name r r' keys next next' hr _ ih =>
    intro name hname
    have hk := hname r' keys hr
    exact (ih name).mono fun a ⟨b, hb, hab⟩ => ⟨b, .name (Set.notMem_empty _) hk hb, hab⟩

/-- Data: the entries are resolved in another order, each as it is in the first stack. -/
theorem exists_gives_entries {entries entries' results : Entries}
    (h : (Value.mapping entries).Reordered (.mapping entries'))
    (hresults : List.Forall₂ (fun e x => x.1 = e.1 ∧ stack'.Mirrored e.2 x.2) entries results) :
    ∃ results', stack'.Gives ∅
        (entries'.mapM fun ((key, v) : String × Value) => (key, ·) <$> Plan.ask v)
        (.ok results') ∧ (Value.mapping results).Reordered (.mapping results') := by
  obtain ⟨-, -, hentries'⟩ := Value.reordered_mapping_iff.mp h.symm
  have hgives : ∀ e' ∈ entries', ∃ x', stack'.Gives ∅ ((e'.1, ·) <$> Plan.ask e'.2) (.ok x') ∧
      (x'.1 = e'.1 ∧ stack'.Gives ∅ (stack'.plan e'.2) (.ok x'.2)) := by
    intro e' he'
    obtain ⟨v, hv, hvv'⟩ := hentries' e' he'
    obtain ⟨x, -, -, hmirrored⟩ := exists_of_mem_left hresults (mem_of_lookup hv)
    obtain ⟨w', hw', -⟩ := hmirrored e'.2 hvv'.symm
    exact ⟨(e'.1, w'), gives_map_ok_iff.mpr ⟨w', gives_ask_iff.mpr hw', rfl⟩, rfl, hw'⟩
  obtain ⟨results', hresults', hforall⟩ := gives_mapM_of_gives hgives
  refine ⟨results', hresults', h.replace (S := stack'.Mirrored)
    (T := fun v' w' => stack'.Gives ∅ (stack'.plan v') (.ok w')) hresults hforall ?_⟩
  intro v v' w w' hvv' hmirrored hw'
  obtain ⟨x', hx', hwx'⟩ := hmirrored v' hvv'
  cases hw'.unique hx'
  exact hwx'

/-- Resolving a value in another order. -/
theorem ensures_plan_mirrored (h : stack.Corresponds (stack.reordering stack') stack')
    {v v' : Value} (hv : v.Reordered v') :
    (stack.plan v).Ensures (stack.Given stack'.Mirrored) (stack.MirroredName stack') fun w =>
      ∃ w', stack'.Gives ∅ (stack'.plan v') (.ok w') ∧ w.Reordered w' := by
  have hask {u u' : Value} (hu : u.Reordered u') :
      Parallel (stack.reordering stack') Value.Reordered (Plan.ask u) (Plan.ask u') :=
    Plan.Parallel.mono (Plan.parallel_ask (C := stack.reordering stack') hu) fun _ _ hw => hw.1
  cases hv.alike with
  | null | boolean | number | string => exact ensures_of_parallel (Plan.parallel_pure hv)
  | list hitems =>
    refine ensures_of_parallel (Plan.parallel_map ?_)
    refine (Plan.parallel_mapM hitems fun u u' => hask).mono fun ws ws' hws => ?_
    exact Value.reordered_list_iff.mpr hws
  | @mapping entries entries' _ _ =>
    have hrel := Intrinsic.ofCall?_of_reordered hv
    simp only [plan]
    generalize hc : Intrinsic.ofCall? entries = found, hc' : Intrinsic.ofCall? entries' = found'
      at hrel
    cases hrel with
    | @some call call' hcall =>
      obtain ⟨f, arg⟩ := call
      obtain ⟨f', arg'⟩ := call'
      obtain ⟨rfl, -⟩ : f' = f ∧ arg.Reordered arg' := hcall
      obtain ⟨rfl, -⟩ := Intrinsic.ofCall?_eq_some_iff.mp hc
      obtain ⟨rfl, -⟩ := Intrinsic.ofCall?_eq_some_iff.mp hc'
      exact ensures_of_parallel (h.parallel_call hv)
    | none =>
      refine Plan.ensures_map ((Plan.ensures_entries entries).mono fun results hresults => ?_)
      obtain ⟨results', hgives, hreordered⟩ :=
        exists_gives_entries hv (hresults.imp fun _ _ h => ⟨h.1, h.2.2⟩)
      exact ⟨_, gives_map_ok_iff.mpr ⟨results', hgives, rfl⟩, hreordered⟩

/-- Working out the name of a resource in another order. -/
theorem parallel_naming {r r' : Resource} (hname : r'.name = r.name)
    (hdefinition : r.definition.Reordered r'.definition) (keys : List String) :
    Parallel (stack.reordering stack') Eq (r.naming keys) (r'.naming keys) := by
  have hrel := Resource.rel_firstProperty? hdefinition keys
  unfold Resource.naming
  generalize r.firstProperty? keys = found, r'.firstProperty? keys = found' at hrel
  cases hrel with
  | none => exact .done hname.symm
  | some hproperty =>
    refine .resolve hproperty fun w w' hw _ => ?_
    cases Value.Reordered.alike hw with
    | string s => exact .done rfl
    | null => exact .done hname.symm
    | boolean | number | list | mapping => exact .excused trivial _ _

theorem sustains_mirrored (h : stack.Corresponds (stack.reordering stack') stack') :
    stack.Sustains stack'.Mirrored (stack.MirroredName stack') where
  value v := Plan.ensures_forall fun v' => Plan.ensures_forall fun hv => ensures_plan_mirrored h hv
  name r keys hr := by
    refine Plan.ensures_forall fun r' => Plan.ensures_forall fun keys' =>
      Plan.ensures_forall fun ⟨hname, hdefinition, hr₁, hr'⟩ => ?_
    obtain ⟨-, rfl⟩ := hr.unique hr₁ rfl
    refine (ensures_of_parallel (parallel_naming hname hdefinition keys)).mono ?_
    rintro display ⟨_, hgives, rfl⟩
    -- the name cannot have been asked for on the way to itself
    rcases hgives.insert_or (stack'.honest_naming hr') hr' with hk | ⟨display', hk⟩
    · exact hk
    · cases (hk.anti (Set.empty_subset _)).unique hgives
      exact hk

/-- **What the one stack resolves, the other one resolves alike.** -/
theorem exists_gives_of_reordered (h : stack.Corresponds (stack.reordering stack') stack')
    {v v' w : Value} (hv : v.Reordered v') (hw : stack.Gives ∅ (stack.plan v) (.ok w)) :
    ∃ w', stack'.Gives ∅ (stack'.plan v') (.ok w') ∧ w.Reordered w' :=
  hw.ensures (sustains_mirrored h) (stack.honest_plan v) (ensures_plan_mirrored h hv)

/-- **No key is ever repeated**: a stack whose document repeats no key in any mapping resolves
values that repeat none to values that repeat none. -/
theorem wellKeyed_of_gives (hdocument : stack.template.document.WellKeyed) {v w : Value}
    (hv : v.WellKeyed) (hw : stack.Gives ∅ (stack.plan v) (.ok w)) : w.WellKeyed := by
  have h : stack.Corresponds (stack.reordering stack) stack := by
    have hself := Value.reordered_self_iff.mpr hdocument
    refine stack.corresponds_of_values hself ?_
    intro name declaration declaration' hd hd' supplied
    rw [Option.some.inj (hd'.symm.trans hd)]
  obtain ⟨w', hw', hww'⟩ := exists_gives_of_reordered h (Value.reordered_self_iff.mpr hv) hw
  cases hw.unique hw'
  exact Value.reordered_self_iff.mp hww'

/-- What parallel plans give. -/
theorem exists_gives_of_parallel (h : stack.Corresponds (stack.reordering stack') stack')
    {α β : Type} {R : α → β → Prop} {plan : Plan α} {plan' : Plan β}
    (hplan : Parallel (stack.reordering stack') R plan plan')
    (hhonest : plan.Honest stack fun _ _ => True) {a : α} (ha : stack.Gives ∅ plan (.ok a)) :
    ∃ b, stack'.Gives ∅ plan' (.ok b) ∧ R a b :=
  ha.ensures (sustains_mirrored h) hhonest (ensures_of_parallel hplan)

/-! ## 4. All sessions -/

/-- What the plan of an operation gives is its outcome in every session, or the depth is
exceeded there. -/
theorem operate_of_gives (stack : Stack) (ops : List Operation) {op : Operation}
    {outcome : Except ResolutionError Answer} (h : stack.Gives ∅ (op.plan stack) outcome) :
    (stack.operate op (stack.after ops .start)).1 = outcome ∨
      (stack.operate op (stack.after ops .start)).1 =
        .error (.depthExceeded stack.config.maxDepth) := by
  rcases stack.operate_after_start ops op rfl with hd | hg
  · exact Or.inr hd
  · exact Or.inl (hg.unique h)

/-- **The order of keys does not matter.**  Of two stacks whose documents differ in the order of
keys alone, and two values that differ in it alone, after any operations on either stack:

* if the first value resolves, then the second one resolves to a value that differs in the order
  of keys alone, or the depth is exceeded;
* if the first one fails, other than by exceeding the depth, then the second one does not resolve;
* if a condition holds, or does not, in the first stack, then so it is in the second one, or the
  depth is exceeded.

No default of a parameter may be a list with a mapping in it. -/
theorem key_order_does_not_matter (stack : Stack) (t' : Template) (v v' : Value)
    (ops ops' : List Operation) (hdocument : stack.template.document.Reordered t'.document)
    (hvalue : v.Reordered v') (hdefaults : stack.template.PlainDefaults) :
    let stack' : Stack := { stack with template := t' }
    let outcome := fun op => (stack.operate op (stack.after ops .start)).1
    let outcome' := fun op => (stack'.operate op (stack'.after ops' .start)).1
    (∀ w, outcome (.resolve v) = .ok (.value w) →
      (∃ w', outcome' (.resolve v') = .ok (.value w') ∧ w.Reordered w') ∨
        outcome' (.resolve v') = .error (.depthExceeded stack.config.maxDepth)) ∧
    (∀ e, outcome (.resolve v) = .error e → (∀ limit, e ≠ .depthExceeded limit) →
      ∀ answer, outcome' (.resolve v') ≠ .ok answer) ∧
    ∀ name b, outcome (.condition name) = .ok (.value (.boolean b)) →
      outcome' (.condition name) = .ok (.value (.boolean b)) ∨
        outcome' (.condition name) = .error (.depthExceeded stack.config.maxDepth) := by
  intro stack' outcome outcome'
  have h : stack.Corresponds (stack.reordering stack') stack' :=
    stack.corresponds_of_reordered hdocument hdefaults
  have hback : stack'.Corresponds (stack'.reordering stack) stack :=
    stack'.corresponds_of_reordered hdocument.symm (hdefaults.of_reordered hdocument)
  refine ⟨fun w hw => ?_, fun e he hlimit answer hanswer => ?_, fun name b hb => ?_⟩
  · have hgives := stack.gives_of_operate_resolve ops hw
    obtain ⟨w', hw', hww'⟩ := exists_gives_of_reordered h hvalue hgives
    have hop : stack'.Gives ∅ ((Operation.resolve v').plan stack') (.ok (.value w')) :=
      gives_map_ok_iff.mpr ⟨w', gives_ask_iff.mpr hw', rfl⟩
    exact (stack'.operate_of_gives ops' hop).imp_left fun hok => ⟨w', hok, hww'⟩
  · obtain ⟨w', hw', rfl⟩ := gives_map_ok_iff.mp (stack'.gives_of_operate_ok ops' hanswer)
    obtain ⟨w, hw, -⟩ := exists_gives_of_reordered hback hvalue.symm (gives_ask_iff.mp hw')
    rcases stack.operate_after_start ops _ he with hd | hgives
    · exact hlimit _ (Except.error.inj hd)
    · cases hw.unique (gives_ask_iff.mp (gives_map_error_iff.mp hgives))
  · obtain ⟨_, hgives, heq⟩ := gives_map_ok_iff.mp (stack.gives_of_operate_ok ops hb)
    cases heq
    obtain ⟨_, hgives', rfl⟩ :=
      exists_gives_of_parallel h (h.parallel_condition name) (stack.honest_condition name) hgives
    exact stack'.operate_of_gives ops' (gives_map_ok_iff.mpr ⟨b, hgives', rfl⟩)

/-- A parameter, and a condition that compares two mappings, with the keys in another order in the
document, in a declaration, in the operands and in the value. -/
theorem swapped_keys_resolve_alike :
    let a := Value.mapping [("x", .boolean true), ("y", .null)]
    let a' := Value.mapping [("y", .null), ("x", .boolean true)]
    let document := Value.mapping [
      ("Parameters", .mapping [
        ("Zone", .mapping [("Type", .string "String"), ("Default", .string "eu")])]),
      ("Conditions", .mapping [("Same", .mapping [("Fn::Equals", .list [a, a'])])])]
    let document' := Value.mapping [
      ("Conditions", .mapping [("Same", .mapping [("Fn::Equals", .list [a', a])])]),
      ("Parameters", .mapping [
        ("Zone", .mapping [("Default", .string "eu"), ("Type", .string "String")])])]
    let v := Value.mapping [("Zone", .mapping [("Ref", .string "Zone")]), ("Live", .boolean true)]
    let v' := Value.mapping [("Live", .boolean true), ("Zone", .mapping [("Ref", .string "Zone")])]
    let w := Value.mapping [("Zone", .string "eu"), ("Live", .boolean true)]
    let stack := ofDocument document
    let stack' : Stack := { stack with template := ⟨document'⟩ }
    let exceeded := Except.error (.depthExceeded stack.config.maxDepth)
    document.Reordered document' ∧ v.Reordered v' ∧ stack.template.PlainDefaults ∧
      (stack.operate (.resolve v) .start).1 = .ok (.value w) ∧
      ((∃ w', (stack'.operate (.resolve v') .start).1 = .ok (.value w') ∧ w.Reordered w') ∨
        (stack'.operate (.resolve v') .start).1 = exceeded) ∧
      ((stack'.operate (.condition "Same") .start).1 = .ok (.value (.boolean true)) ∨
        (stack'.operate (.condition "Same") .start).1 = exceeded) := by
  intro a a' document document' v v' w stack stack' exceeded
  have hone (key : String) {u u' : Value} (hu : u.Reordered u') :
      (Value.mapping [(key, u)]).Reordered (.mapping [(key, u')]) :=
    Value.reordered_mapping_iff_perm.mpr ⟨by simp, _, .refl _, .cons ⟨rfl, hu⟩ .nil⟩
  have htwo {key key' : String} (hne : key ≠ key') {u u' x x' : Value} (hu : u.Reordered u')
      (hx : x.Reordered x') :
      (Value.mapping [(key, u), (key', x)]).Reordered (.mapping [(key', x'), (key, u')]) :=
    Value.reordered_mapping_iff_perm.mpr
      ⟨by simpa using hne, _, .swap _ _ _, .cons ⟨rfl, hu⟩ (.cons ⟨rfl, hx⟩ .nil)⟩
  have ha : a.Reordered a' := htwo (by decide) rfl trivial
  have hoperands : (Value.list [a, a']).Reordered (.list [a', a]) :=
    Value.reordered_list_iff.mpr (.cons ha (.cons ha.symm .nil))
  have hdocument : document.Reordered document' :=
    htwo (by decide) (hone _ (htwo (by decide) rfl rfl)) (hone _ (hone _ hoperands))
  have hvalue : v.Reordered v' := htwo (by decide) (hone _ rfl) rfl
  have hdefaults : stack.template.PlainDefaults := by
    intro name declaration items hname hdefault
    obtain ⟨-, rfl⟩ := Prod.mk.inj (List.mem_singleton.mp (mem_of_lookup hname))
    cases hdefault
  have hrun : (stack.operate (.resolve v) .start).1 = .ok (.value w) := by rfl
  have hsame : (stack.operate (.condition "Same") .start).1 = .ok (.value (.boolean true)) := by
    rfl
  obtain ⟨hvalues, -, hconditions⟩ :=
    key_order_does_not_matter stack ⟨document'⟩ v v' [] [] hdocument hvalue hdefaults
  exact ⟨hdocument, hvalue, hdefaults, hrun, hvalues w hrun, hconditions "Same" true hsame⟩

end Stack
end StackTemplate
