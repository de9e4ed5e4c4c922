import StackTemplate.Proofs.Strictness

/-!
# Cyclic definitions have no value

Conditions and names of resources may be defined by one another, and nothing forbids a cycle.
Two different guards end it: the depth for conditions, the mark of a name being worked out for
resources.  Neither is in the argument here.  What is given is given for a reason, and in a cycle
each member would be given because another one is.

`Stack.Entangled` says that a value has a part, resolved on the way, that refers to a member of
the cycle.  No entangled value resolves (`Cyclic.sustains`): if it did, the part would have been
answered, and behind it the member that it refers to, whose definition is entangled as well.

* `Refers`: a reference by name, as it is written.
* `Cyclic.sustains`: neither an entangled value nor the name of a member is ever given.
* `resolveWithin_chain`: conditions that only refer to one another use up all levels.
-/

namespace StackTemplate

/-! ## 1. Entangled values -/

/-- The value refers to one of the conditions or of the resources, by a name as it is written. -/
inductive Refers (conditions resources : Set String) : Value → Prop
  | condition {name : String} (h : name ∈ conditions) :
      Refers conditions resources (.mapping [("Condition", .string name)])
  | ifElse {name : String} {ifTrue ifFalse : Value} (h : name ∈ conditions) :
      Refers conditions resources
        (.mapping [("Fn::If", .list [.string name, ifTrue, ifFalse])])
  | ref {name : String} (h : name ∈ resources) :
      Refers conditions resources (.mapping [("Ref", .string name)])

namespace Stack

/-- A part of the value that is resolved on the way refers to one of the conditions or of the
resources. -/
def Entangled (stack : Stack) (conditions resources : Set String) (v : Value) : Prop :=
  ∃ u, stack.Reaches v u ∧ Refers conditions resources u

/-- **Each of the conditions and resources is defined by another one**: the expression of a
condition is entangled, and so is the first property present that may name a resource.  The
resources are of known kinds, and their names refer to them. -/
structure Cyclic (stack : Stack) (conditions resources : Set String) : Prop where
  condition : ∀ name ∈ conditions, ∃ expression,
    stack.template.condition? name = some expression ∧
      stack.Entangled conditions resources expression
  resource : ∀ name ∈ resources,
    PseudoParameter.ofName? name = none ∧ stack.template.parameter? name = none ∧
    ∃ r kind property, stack.template.resource? name = some r ∧
      ResourceKind.ofTypeName? r.typeName = some kind ∧
      r.firstProperty? kind.namingProperties = some property ∧
      stack.Entangled conditions resources property

variable {stack : Stack} {conditions resources : Set String}

/-- An entangled value is itself a reference, or has an entangled part. -/
theorem Entangled.cases_head {v : Value} (h : stack.Entangled conditions resources v) :
    Refers conditions resources v ∨
      ∃ u, stack.Evaluates v u ∧ stack.Entangled conditions resources u := by
  obtain ⟨u, hreach, hrefers⟩ := h
  rcases Relation.ReflTransGen.cases_head hreach with rfl | ⟨part, hpart, hrest⟩
  · exact Or.inl hrefers
  · exact Or.inr ⟨part, hpart, u, hrest, hrefers⟩

/-- A list is entangled only if one of its items is. -/
theorem Entangled.exists_item {items : List Value}
    (h : stack.Entangled conditions resources (.list items)) :
    ∃ u ∈ items, stack.Entangled conditions resources u := by
  rcases h.cases_head with hrefers | ⟨u, hpart, hu⟩
  · cases hrefers
  · cases hpart with
    | item hitem => exact ⟨u, hitem, hu⟩

/-! ## 2. Nothing is given in a cycle -/

/-- What is to be shown of a value that is given: that it is not entangled. -/
abbrev Untangled (stack : Stack) (conditions resources : Set String) (v _ : Value) : Prop :=
  ¬ stack.Entangled conditions resources v

/-- What is to be shown of a resource whose name is given: that it is no member of the cycle. -/
abbrev Apart (resources : Set String) (r : Resource) (_ : String) : Prop := r.name ∉ resources

/-- A text that is written is the text that is given. -/
theorem eq_of_given_string {assumed : Value → Value → Prop} {name text : String}
    (h : stack.Given assumed (.string name) (.string text)) : text = name := by
  have hplan : stack.Gives ∅ (pure (Value.string name)) (.ok (Value.string text)) := h.1
  cases gives_pure_iff.mp hplan
  rfl

namespace Cyclic

variable (h : stack.Cyclic conditions resources)
include h

theorem ensures_condition {name : String} (hname : name ∈ conditions) :
    (stack.condition name).Ensures (stack.Given (stack.Untangled conditions resources))
      (Apart resources) fun _ => False := by
  obtain ⟨expression, hexpression, hentangled⟩ := h.condition name hname
  simp only [Stack.condition, hexpression]
  exact Plan.ensures_bind (Plan.ensures_ask expression) fun w hw => absurd hentangled hw.2

theorem ensures_reference {name : String} (hname : name ∈ resources) :
    (stack.reference name).Ensures (stack.Given (stack.Untangled conditions resources))
      (Apart resources) fun _ => False := by
  obtain ⟨hpseudo, hparameter, r, kind, -, hr, hkind, -⟩ := h.resource name hname
  simp only [reference, hpseudo, hparameter, hr, valuesOf, hkind]
  intro display happart
  rw [Apart, Template.name_of_resource? hr] at happart
  exact happart hname

/-- A reference to a member gives nothing. -/
theorem ensures_of_refers {v : Value} (hv : Refers conditions resources v) :
    (stack.plan v).Ensures (stack.Given (stack.Untangled conditions resources))
      (Apart resources) fun _ => False := by
  cases hv with
  | @condition name hname =>
    change (stack.callCondition (.string name)).Ensures _ _ _
    refine Plan.ensures_bind (Intrinsic.condition.ensures_askString _ _) fun text htext => ?_
    rw [eq_of_given_string htext]
    exact Plan.ensures_bind_left _ (h.ensures_condition hname)
  | @ifElse name ifTrue ifFalse hname =>
    change (stack.callIf (.list [.string name, ifTrue, ifFalse])).Ensures _ _ _
    refine Plan.ensures_bind (Intrinsic.ifElse.ensures_askString _ _) fun text htext => ?_
    rw [eq_of_given_string htext]
    refine Plan.ensures_bind_right _ fun whenTrue => Plan.ensures_bind_right _ fun whenFalse => ?_
    exact Plan.ensures_bind_left _ (h.ensures_condition hname)
  | @ref name hname =>
    change (stack.callRef (.string name)).Ensures _ _ _
    refine Plan.ensures_bind (Intrinsic.ref.ensures_askString _ _) fun text htext => ?_
    rw [eq_of_given_string htext]
    exact h.ensures_reference hname

/-- An entangled value gives nothing. -/
theorem ensures_of_entangled {v : Value} (hv : stack.Entangled conditions resources v) :
    (stack.plan v).Ensures (stack.Given (stack.Untangled conditions resources))
      (Apart resources) fun _ => False := by
  have hlist (items : List Value)
      (hitems : ∀ u ∈ items, ∃ w, stack.Given (stack.Untangled conditions resources) u w)
      (w : Value) : stack.Untangled conditions resources (.list items) w := by
    intro hentangled
    obtain ⟨u, hu, hentangled⟩ := hentangled.exists_item
    obtain ⟨_, -, huntangled⟩ := hitems u hu
    exact huntangled hentangled
  rcases hv.cases_head with hrefers | ⟨u, hpart, hu⟩
  · exact h.ensures_of_refers hrefers
  · refine (ensures_evaluates hlist hpart).mono fun _ hw => ?_
    obtain ⟨w, -, huntangled⟩ := hw
    exact huntangled hu

/-- **Neither an entangled value nor the name of a member is ever given.** -/
theorem sustains :
    stack.Sustains (stack.Untangled conditions resources) (Apart resources) where
  value v := by
    by_cases hv : stack.Entangled conditions resources v
    · exact (h.ensures_of_entangled hv).mono fun _ => False.elim
    · exact (stack.plan v).ensures_of_forall fun _ => hv
  name r keys hr := by
    by_cases hname : r.name ∈ resources
    · obtain ⟨-, -, r', kind, property, hr', hkind, hproperty, hentangled⟩ :=
        h.resource r.name hname
      obtain ⟨rfl, rfl⟩ := hr.unique ⟨(Template.name_of_resource? hr').symm ▸ hr', kind, hkind, rfl⟩
        (Template.name_of_resource? hr').symm
      simp only [Resource.naming, hproperty]
      exact fun w hw => absurd hentangled hw.2
    · exact (r.naming keys).ensures_of_forall fun _ => hname

theorem not_gives_condition {busy : Set String} {name : String} (hname : name ∈ conditions)
    {b : Bool} : ¬ stack.Gives busy (stack.condition name) (.ok b) := fun hg =>
  hg.ensures h.sustains (stack.honest_condition name) (h.ensures_condition hname)

theorem not_gives_reference {busy : Set String} {name : String} (hname : name ∈ resources)
    {v : Value} : ¬ stack.Gives busy (stack.reference name) (.ok v) := fun hg =>
  hg.ensures h.sustains (stack.honest_reference name) (h.ensures_reference hname)

theorem not_gives_naming {busy : Set String} {r : Resource} {keys : List String}
    (hr : stack.Names r keys) (hname : r.name ∈ resources) {display : String} :
    ¬ stack.Gives busy (r.naming keys) (.ok display) := fun hg =>
  hg.ensures h.sustains (stack.honest_naming hr) (h.sustains.name r keys hr) hname

end Cyclic

/-! ## 3. Chains of conditions -/

/-- A condition fails as its expression does. -/
theorem run_condition_error {answer : Value → Run Session Value} {name : String}
    {expression : Value} (hc : stack.template.condition? name = some expression)
    {e : ResolutionError} {s s' : Session} (h : answer expression s = (.error e, s')) :
    (stack.condition name).run answer s = (.error e, s') := by
  simp only [condition, hc]
  rw [Plan.run_bind, Plan.run_ask, Run.bind_error h]

/-- **Conditions that only refer to one another use up all levels**, however many there are. -/
theorem resolveWithin_chain {names : Set String}
    (hchain : ∀ name ∈ names, ∃ next ∈ names,
      stack.template.condition? name = some (.mapping [("Condition", .string next)]))
    (levels : Nat) {name : String} (hname : name ∈ names) (s : Session) :
    ∃ s', stack.resolveWithin levels (.mapping [("Condition", .string name)]) s =
      (.error (.depthExceeded stack.config.maxDepth), s') := by
  induction levels generalizing name s with
  | zero => exact ⟨s, rfl⟩
  | succ levels ih =>
    generalize hd : ({ s with depth := s.depth + 1 } : Session) = d
    have hbody : ∃ s', (stack.callCondition (.string name)).run (stack.resolveWithin levels) d =
        (.error (.depthExceeded stack.config.maxDepth), s') := by
      cases levels with
      | zero => exact ⟨d, rfl⟩
      | succ levels =>
        obtain ⟨next, hnext, hc⟩ := hchain name hname
        obtain ⟨s', hs'⟩ := ih hnext d
        have htext : (Intrinsic.condition.askString .conditionName (.string name)).run
            (stack.resolveWithin (levels + 1)) d = (.ok name, d) := rfl
        refine ⟨s', ?_⟩
        rw [callCondition, Plan.run_bind, Run.bind_ok htext, Plan.run_bind,
          Run.bind_error (run_condition_error hc hs')]
    obtain ⟨s', hs'⟩ := hbody
    have hplan : stack.plan (.mapping [("Condition", .string name)]) =
        stack.callCondition (.string name) := rfl
    rw [resolveWithin, Session.deeper, hd, hplan, hs']
    exact ⟨_, rfl⟩

/-- A condition of a chain runs out of depth in every session. -/
theorem operate_condition_of_chain {names : Set String}
    (hchain : ∀ name ∈ names, ∃ next ∈ names,
      stack.template.condition? name = some (.mapping [("Condition", .string next)]))
    {name : String} (hname : name ∈ names) (s : Session) :
    (stack.operate (.condition name) s).1 = .error (.depthExceeded stack.config.maxDepth) := by
  obtain ⟨next, hnext, hc⟩ := hchain name hname
  obtain ⟨s', hs'⟩ := resolveWithin_chain hchain (stack.levelsLeft s) hnext s
  rw [operate, perform, Operation.plan, map_eq_pure_bind, Plan.run_bind,
    Run.bind_error (run_condition_error hc hs')]

/-! ## 4. Operations -/

/-- What no plan gives, no operation ends with. -/
theorem exists_error_of_not_gives {op : Operation} (limit : Nat) (ops : List Operation)
    (h : ∀ answer, ¬ stack.Gives ∅ (op.plan stack) (.ok answer)) :
    ∃ e, ((stack.withLimit limit).operate op ((stack.withLimit limit).after ops .start)).1 =
      .error e := by
  cases houtcome : ((stack.withLimit limit).operate op
      ((stack.withLimit limit).after ops .start)).1 with
  | error e => exact ⟨e, rfl⟩
  | ok answer =>
    exact absurd (eventually_iff_gives.mp (stack.eventually_of_operate limit ops houtcome))
      (h answer)

namespace Cyclic

variable (h : stack.Cyclic conditions resources)
include h

theorem operate_condition {name : String} (hname : name ∈ conditions) (limit : Nat)
    (ops : List Operation) : ∃ e, ((stack.withLimit limit).operate (.condition name)
      ((stack.withLimit limit).after ops .start)).1 = .error e := by
  refine exists_error_of_not_gives limit ops fun answer hg => ?_
  obtain ⟨b, hb, -⟩ := gives_map_ok_iff.mp hg
  exact h.not_gives_condition hname hb

theorem operate_reference {name : String} (hname : name ∈ resources) (limit : Nat)
    (ops : List Operation) : ∃ e, ((stack.withLimit limit).operate (.reference name)
      ((stack.withLimit limit).after ops .start)).1 = .error e := by
  refine exists_error_of_not_gives limit ops fun answer hg => ?_
  obtain ⟨v, hv, -⟩ := gives_map_ok_iff.mp hg
  exact h.not_gives_reference hname hv

/-- A name that were known would be what the plan for it gives. -/
theorem known_eq_none {name : String} (hname : name ∈ resources) (limit : Nat)
    (ops : List Operation) :
    (((stack.withLimit limit).after ops .start).cells name).known = none := by
  obtain ⟨-, -, r, kind, -, hr, hkind, -⟩ := h.resource name hname
  obtain rfl := Template.name_of_resource? hr
  have hnames : stack.Names r kind.namingProperties := ⟨hr, kind, hkind, rfl⟩
  have hsettled := (settled_start (stack.withLimit limit)).after ops
  refine Option.eq_none_iff_forall_ne_some.mpr fun display hknown => ?_
  have hg := hsettled.known r kind.namingProperties display hnames hknown
  rw [gives_withLimit_iff] at hg
  exact h.not_gives_naming hnames hname hg

end Cyclic

/-- In a ring of conditions, each refers to the next one. -/
theorem operate_condition_of_ring {length : Nat} {name : Nat → String}
    (hring : ∀ i < length, stack.template.condition? (name i) =
      some (.mapping [("Condition", .string (name ((i + 1) % length)))]))
    {i : Nat} (hi : i < length) (s : Session) :
    (stack.operate (.condition (name i)) s).1 =
      .error (.depthExceeded stack.config.maxDepth) := by
  have hchain : ∀ n ∈ {n | ∃ j < length, name j = n}, ∃ next ∈ {n | ∃ j < length, name j = n},
      stack.template.condition? n = some (.mapping [("Condition", .string next)]) := by
    rintro _ ⟨j, hj, rfl⟩
    exact ⟨_, ⟨(j + 1) % length, Nat.mod_lt _ (Nat.zero_lt_of_lt hj), rfl⟩, hring j hj⟩
  exact operate_condition_of_chain hchain ⟨i, hi, rfl⟩ s

/-- **Cyclic definitions never have a value.**  If each of some conditions and resources is defined
by another one of them, then under every limit and after any operations the conditions fail,
references to the resources fail, and none of the resources has a known name.  Conditions that
only refer to one another, in a ring of any length, fail because the limit is exceeded. -/
theorem cyclic_definitions_have_no_value (stack : Stack) :
    (∀ conditions resources, stack.Cyclic conditions resources →
      ∀ limit (ops : List Operation),
        (∀ name ∈ conditions, ∃ e, ((stack.withLimit limit).operate (.condition name)
          ((stack.withLimit limit).after ops .start)).1 = .error e) ∧
        (∀ name ∈ resources, ∃ e, ((stack.withLimit limit).operate (.reference name)
          ((stack.withLimit limit).after ops .start)).1 = .error e) ∧
        ∀ name ∈ resources,
          (((stack.withLimit limit).after ops .start).cells name).known = none) ∧
    ∀ (length : Nat) (name : Nat → String),
      (∀ i < length, stack.template.condition? (name i) =
        some (.mapping [("Condition", .string (name ((i + 1) % length)))])) →
      ∀ limit (ops : List Operation), ∀ i < length,
        ((stack.withLimit limit).operate (.condition (name i))
          ((stack.withLimit limit).after ops .start)).1 = .error (.depthExceeded limit) := by
  refine ⟨fun conditions resources h limit ops => ⟨?_, ?_, ?_⟩, ?_⟩
  · exact fun name hname => h.operate_condition hname limit ops
  · exact fun name hname => h.operate_reference hname limit ops
  · exact fun name hname => h.known_eq_none hname limit ops
  · intro length name hring limit ops i hi
    exact (stack.withLimit limit).operate_condition_of_ring hring hi _

/-- A condition that compares a topic's name, which the condition picks; and beside it two
conditions that only refer to one another. -/
theorem topic_named_by_its_condition_has_no_value :
    let named := Value.mapping [("Fn::Equals",
      .list [.mapping [("Ref", .string "Topic")], .string "a"])]
    let choice := Value.mapping [("Fn::If", .list [.string "Named", .string "a", .string "b"])]
    let stack := ofDocument (.mapping [
      ("Conditions", .mapping [
        ("Named", named),
        ("This", .mapping [("Condition", .string "That")]),
        ("That", .mapping [("Condition", .string "This")])]),
      ("Resources", .mapping [("Topic", .mapping [
        ("Type", .string "AWS::SNS::Topic"),
        ("Properties", .mapping [("TopicName", choice)])])])])
    stack.Cyclic {"Named"} {"Topic"} ∧
      (∃ e, ((stack.withLimit 9).operate (.condition "Named")
        ((stack.withLimit 9).after [.reference "Topic"] .start)).1 = .error e) ∧
      ((stack.withLimit 9).operate (.condition "This")
        ((stack.withLimit 9).after [.reference "Topic"] .start)).1 =
          .error (.depthExceeded 9) := by
  intro named choice stack
  have hnamed : stack.Entangled {"Named"} {"Topic"} named :=
    ⟨.mapping [("Ref", .string "Topic")],
      .single (.operand (f := .equals) rfl (by simp [Intrinsic.operands, Value.asList?])),
      .ref rfl⟩
  have hchoice : stack.Entangled {"Named"} {"Topic"} choice := ⟨choice, .refl, .ifElse rfl⟩
  have hcyclic : stack.Cyclic {"Named"} {"Topic"} := by
    refine ⟨?_, ?_⟩
    · rintro _ rfl
      exact ⟨named, rfl, hnamed⟩
    · rintro _ rfl
      exact ⟨rfl, rfl, _, _, choice, rfl, rfl, rfl, hchoice⟩
  obtain ⟨hcycles, hrings⟩ := stack.cyclic_definitions_have_no_value
  obtain ⟨hconditions, -, -⟩ := hcycles {"Named"} {"Topic"} hcyclic 9 [.reference "Topic"]
  have hring : ∀ i < 2, stack.template.condition? (["This", "That"].getD i "") =
      some (.mapping [("Condition", .string (["This", "That"].getD ((i + 1) % 2) ""))]) := by
    intro i hi
    obtain rfl | rfl : i = 0 ∨ i = 1 := by omega
    · rfl
    · rfl
  exact ⟨hcyclic, hconditions "Named" rfl,
    hrings 2 (["This", "That"].getD · "") hring 9 [.reference "Topic"] 0 (by decide)⟩

end Stack
end StackTemplate
