import Mathlib.Order.Filter.AtTopBot.Basic
import Mathlib.Order.Filter.Finite
import Mathlib.Order.WellFoundedSet
import StackTemplate.Proofs.Equality
import StackTemplate.Proofs.History

/-!
# Conditions compute their truth values

A section of conditions that are built from truth values, comparisons, `Fn::And`, `Fn::Or` and
`Fn::Not` is a system of equations between truth values, one for each condition.  If no condition
refers to itself, by whatever detour, the system has a solution, and the operations compute it.

The equations say nothing of depth, of the order in which conditions are asked for, or of the
failures that a function may pass on.  So the two inductions are kept apart: over a formula, where
all conditions that it names are taken to give their truth values (`gives_formula`), and over the
conditions, from those that are referred to up to those that refer to them
(`DefinedBy.induction`).

* `Formula.holds`: the truth tables, and `Formula.holds_equals_iff`: what a comparison means.
* `Formula.Solves`: truth values of conditions that satisfy the equations.
* `DefinedBy.gives_condition`: a condition gives what any solution says.
-/

namespace StackTemplate

/-! ## 1. Formulas -/

/-- An expression over conditions.  What is compared are values without calls. -/
inductive Formula where
  | constant (b : Bool)
  | condition (name : String)
  | and (a b : Formula)
  | or (a b : Formula)
  | not (a : Formula)
  | equals (v w : { v : Value // v.CallFree })

namespace Formula

/-- The formula as it is written in a template. -/
def toValue : Formula → Value
  | constant b => .boolean b
  | condition name => .mapping [("Condition", .string name)]
  | and a b => .mapping [("Fn::And", .list [a.toValue, b.toValue])]
  | or a b => .mapping [("Fn::Or", .list [a.toValue, b.toValue])]
  | not a => .mapping [("Fn::Not", .list [a.toValue])]
  | equals v w => .mapping [("Fn::Equals", .list [v, w])]

/-- The conditions that the formula refers to. -/
def names : Formula → List String
  | constant _ | equals _ _ => []
  | condition name => [name]
  | and a b | or a b => a.names ++ b.names
  | not a => a.names

/-- **The truth value of the formula**, given those of the conditions.  A negation that passes
its operand on is none. -/
def holds (negation : Negation) (truth : String → Bool) : Formula → Bool
  | constant b => b
  | condition name => truth name
  | and a b => a.holds negation truth && b.holds negation truth
  | or a b => a.holds negation truth || b.holds negation truth
  | not a =>
    match negation with
    | .passthrough => a.holds negation truth
    | .invert => !a.holds negation truth
  | equals v w => v.1.same w.1

/-- A comparison holds if the two values are structurally equal. -/
theorem holds_equals_iff {negation : Negation} {truth : String → Bool}
    {v w : { v : Value // v.CallFree }} (hv : v.1.WellKeyed) (hw : w.1.WellKeyed) :
    (equals v w).holds negation truth = true ↔ v.1.Equals w.1 :=
  Value.same_iff_equals hv hw

/-- The names that have a formula. -/
def declared (formulas : List (String × Formula)) : Set String :=
  {name | ∃ f, formulas.lookup name = some f}

theorem finite_declared (formulas : List (String × Formula)) : (declared formulas).Finite := by
  refine (formulas.map Prod.fst).finite_toSet.subset ?_
  rintro name ⟨f, hf⟩
  exact List.mem_map.mpr ⟨(name, f), mem_of_lookup hf, rfl⟩

/-- The first condition refers to the second one. -/
def Uses (formulas : List (String × Formula)) (name other : String) : Prop :=
  ∃ f, formulas.lookup name = some f ∧ other ∈ f.names

/-- **The truth values satisfy the equations**: each condition has the truth value of its
formula. -/
def Solves (negation : Negation) (formulas : List (String × Formula)) (truth : String → Bool) :
    Prop :=
  ∀ name f, formulas.lookup name = some f → truth name = f.holds negation truth

end Formula

/-! ## 2. What a formula gives -/

namespace Intrinsic

variable {stack : Stack} {busy : Set String} (f : Intrinsic)

theorem gives_askString (role : ArgumentRole) (text : String) :
    stack.Gives busy (f.askString role (.string text)) (.ok text) :=
  .resolve (.done _) (.done text)

theorem gives_askBoolean {v : Value} {b : Bool}
    (h : stack.Gives busy (stack.plan v) (.ok (.boolean b))) :
    stack.Gives busy (f.askBoolean v) (.ok b) :=
  .resolve h (.done b)

end Intrinsic

namespace Stack

variable {stack : Stack} {formulas : List (String × Formula)} {truth : String → Bool}

/-- A value without calls gives itself. -/
theorem gives_of_callFree (stack : Stack) {v : Value} (hv : v.CallFree) :
    stack.Gives ∅ (stack.plan v) (.ok v) :=
  eventually_resolve_ok_iff.mp
    ⟨v.height, fun n hn => (stack.withLimit n).operate_of_callFree [] hv hn⟩

theorem gives_callCondition {busy : Set String} {name : String} {b : Bool}
    (h : stack.Gives busy (stack.condition name) (.ok b)) :
    stack.Gives busy (stack.callCondition (.string name)) (.ok (.boolean b)) := by
  refine (Intrinsic.condition.gives_askString .conditionName name).bind ?_
  exact h.bind (.done _)

theorem gives_callBoolean {busy : Set String} (f : Intrinsic) (op : Bool → Bool → Bool)
    {v w : Value} {a b : Bool} (hv : stack.Gives busy (stack.plan v) (.ok (.boolean a)))
    (hw : stack.Gives busy (stack.plan w) (.ok (.boolean b))) :
    stack.Gives busy (callBoolean f op (.list [v, w])) (.ok (.boolean (op a b))) := by
  refine (f.gives_askBoolean hv).bind ?_
  exact (f.gives_askBoolean hw).bind (.done _)

theorem gives_callEquals {busy : Set String} {v w v' w' : Value}
    (hv : stack.Gives busy (stack.plan v) (.ok v'))
    (hw : stack.Gives busy (stack.plan w) (.ok w')) :
    stack.Gives busy (callEquals (.list [v, w])) (.ok (.boolean (v'.same w'))) :=
  .resolve hv (.resolve hw (.done _))

/-- Both branches are resolved, and the condition picks one. -/
theorem gives_callIf {busy : Set String} {name : String} {b : Bool} {v w v' w' : Value}
    (hb : stack.Gives busy (stack.condition name) (.ok b))
    (hv : stack.Gives busy (stack.plan v) (.ok v'))
    (hw : stack.Gives busy (stack.plan w) (.ok w')) :
    stack.Gives busy (stack.callIf (.list [.string name, v, w]))
      (.ok (if b then v' else w')) := by
  refine (Intrinsic.ifElse.gives_askString .conditionName name).bind ?_
  refine (gives_ask_iff.mpr hv).bind ?_
  refine (gives_ask_iff.mpr hw).bind ?_
  exact hb.bind (.done _)

/-- **A formula gives its truth value**, if the conditions that it refers to give theirs. -/
theorem gives_formula (f : Formula)
    (h : ∀ name ∈ f.names, stack.Gives ∅ (stack.condition name) (.ok (truth name))) :
    stack.Gives ∅ (stack.plan f.toValue)
      (.ok (.boolean (f.holds stack.config.negation truth))) := by
  induction f with
  | constant b => exact .done _
  | condition name => exact gives_callCondition (h name (by simp [Formula.names]))
  | and a b iha ihb =>
    rw [Formula.names, List.forall_mem_append] at h
    exact gives_callBoolean .and and (iha h.1) (ihb h.2)
  | or a b iha ihb =>
    rw [Formula.names, List.forall_mem_append] at h
    exact gives_callBoolean .or or (iha h.1) (ihb h.2)
  | not a ih =>
    have ha := ih h
    change stack.Gives ∅ (stack.callNot (.list [a.toValue])) _
    cases hn : stack.config.negation with
    | passthrough =>
      simp only [callNot, Formula.holds, hn] at ha ⊢
      exact gives_ask_iff.mpr ha
    | invert =>
      simp only [callNot, Formula.holds, hn] at ha ⊢
      exact (Intrinsic.not.gives_askBoolean ha).bind (.done _)
  | equals v w =>
    exact gives_callEquals (stack.gives_of_callFree v.2) (stack.gives_of_callFree w.2)

/-! ## 3. Conditions that are formulas -/

/-- **The conditions of the stack are formulas**, refer to declared conditions only, and none of
them refers to itself, by whatever detour. -/
structure DefinedBy (stack : Stack) (formulas : List (String × Formula)) : Prop where
  written : stack.template.declarations "Conditions" =
    formulas.map fun (name, f) => (name, f.toValue)
  declared : ∀ name f, formulas.lookup name = some f →
    ∀ other ∈ f.names, other ∈ Formula.declared formulas
  acyclic : ∀ name, ¬ Relation.TransGen (Formula.Uses formulas) name name

/-- What is looked up in a list whose values have been changed. -/
theorem lookup_map_snd {α β : Type} (g : α → β) (entries : List (String × α)) (name : String) :
    (entries.map fun (name, a) => (name, g a)).lookup name = (entries.lookup name).map g := by
  induction entries with
  | nil => rfl
  | cons e rest ih =>
    obtain ⟨key, a⟩ := e
    rw [List.map_cons, List.lookup_cons, List.lookup_cons, ih]
    split <;> rfl

open Classical in
/-- The truth value that a condition gives, and false if it gives none. -/
noncomputable def givenTruth (stack : Stack) (name : String) : Bool :=
  decide (stack.Gives ∅ (stack.condition name) (.ok true))

theorem givenTruth_eq {name : String} {b : Bool}
    (hb : stack.Gives ∅ (stack.condition name) (.ok b)) : stack.givenTruth name = b := by
  cases b with
  | true => simpa [givenTruth] using hb
  | false =>
    have hfalse : ¬ stack.Gives ∅ (stack.condition name) (.ok true) := by
      intro htrue
      cases htrue.unique hb
    simpa [givenTruth] using hfalse

namespace DefinedBy

variable (h : stack.DefinedBy formulas)
include h

theorem condition?_eq {name : String} {f : Formula} (hf : formulas.lookup name = some f) :
    stack.template.condition? name = some f.toValue := by
  rw [Template.condition?, h.written, lookup_map_snd, hf, Option.map_some]

/-- No chain of references goes on without end. -/
theorem wellFoundedOn_uses : (Formula.declared formulas).WellFoundedOn
    (Function.swap (Relation.TransGen (Formula.Uses formulas))) := by
  have : IsStrictOrder String (Function.swap (Relation.TransGen (Formula.Uses formulas))) :=
    { irrefl := h.acyclic, trans := fun _ _ _ hab hbc => hbc.trans hab }
  exact (Formula.finite_declared formulas).wellFoundedOn

/-- **Induction over the conditions**, from those that are referred to up to those that refer to
them. -/
theorem induction {p : String → Prop}
    (step : ∀ name f, formulas.lookup name = some f → (∀ other ∈ f.names, p other) → p name)
    {name : String} {f : Formula} (hf : formulas.lookup name = some f) : p name := by
  refine h.wellFoundedOn_uses.induction ⟨f, hf⟩ fun name ⟨f, hf⟩ ih => ?_
  refine step name f hf fun other hother => ?_
  exact ih other (h.declared name f hf other hother) (.single ⟨f, hf, hother⟩)

/-- A condition gives what its formula does, if the conditions that it refers to give their truth
values. -/
theorem gives_condition_of_names {name : String} {f : Formula}
    (hf : formulas.lookup name = some f)
    (hnames : ∀ other ∈ f.names, stack.Gives ∅ (stack.condition other) (.ok (truth other))) :
    stack.Gives ∅ (stack.condition name) (.ok (f.holds stack.config.negation truth)) := by
  simp only [condition, h.condition?_eq hf]
  exact .resolve (gives_formula f hnames) (.done _)

/-- A condition gives its truth value, if the equations hold wherever a condition gives what its
formula does. -/
theorem gives_condition_of_agrees
    (hagrees : ∀ name f, formulas.lookup name = some f →
      stack.Gives ∅ (stack.condition name) (.ok (f.holds stack.config.negation truth)) →
      truth name = f.holds stack.config.negation truth)
    {name : String} {f : Formula} (hf : formulas.lookup name = some f) :
    stack.Gives ∅ (stack.condition name) (.ok (truth name)) := by
  refine h.induction (p := fun name => stack.Gives ∅ (stack.condition name) (.ok (truth name)))
    (fun name f hf hnames => ?_) hf
  have hname := h.gives_condition_of_names hf hnames
  rwa [hagrees name f hf hname]

/-- **A condition gives its truth value**, as any solution of the equations has it. -/
theorem gives_condition (htruth : Formula.Solves stack.config.negation formulas truth)
    {name : String} {f : Formula} (hf : formulas.lookup name = some f) :
    stack.Gives ∅ (stack.condition name) (.ok (truth name)) :=
  h.gives_condition_of_agrees (fun name f hf _ => htruth name f hf) hf

/-- The equations have a solution: the truth values that the conditions give. -/
theorem exists_solves : ∃ truth, Formula.Solves stack.config.negation formulas truth := by
  refine ⟨stack.givenTruth, fun name f hf => ?_⟩
  refine givenTruth_eq (h.gives_condition_of_names hf fun other hother => ?_)
  obtain ⟨g, hg⟩ := h.declared name f hf other hother
  exact h.gives_condition_of_agrees (fun _ _ _ hgives => givenTruth_eq hgives) hg

end DefinedBy

/-! ## 4. Operations -/

/-- One limit is enough for all declared conditions, if there is one for each. -/
theorem exists_limit_of_declared {p : String → Nat → Prop}
    (h : ∀ name ∈ Formula.declared formulas, ∃ limit, ∀ n, limit ≤ n → p name n) :
    ∃ limit, ∀ n, limit ≤ n → ∀ name ∈ Formula.declared formulas, p name n := by
  simp only [← ge_iff_le, ← Filter.eventually_atTop] at h ⊢
  exact (Formula.finite_declared formulas).eventually_all.mpr h

namespace DefinedBy

variable (h : stack.DefinedBy formulas)
  (htruth : Formula.Solves stack.config.negation formulas truth)
include h htruth

theorem eventually_condition {name : String} (hname : name ∈ Formula.declared formulas) :
    stack.Eventually (.condition name) (.ok (.value (.boolean (truth name)))) := by
  obtain ⟨f, hf⟩ := hname
  have hgives := h.gives_condition htruth hf
  exact eventually_iff_gives.mpr (gives_map_ok_iff.mpr ⟨truth name, hgives, rfl⟩)

theorem eventually_reference {name : String} (hname : name ∈ Formula.declared formulas) :
    stack.Eventually (.resolve (.mapping [("Condition", .string name)]))
      (.ok (.value (.boolean (truth name)))) := by
  obtain ⟨f, hf⟩ := hname
  exact eventually_resolve_ok_iff.mpr (gives_callCondition (h.gives_condition htruth hf))

/-- A choice is the value of the branch that the condition picks, if both resolve. -/
theorem eventually_choice {name : String} (hname : name ∈ Formula.declared formulas)
    {v w v' w' : Value} (hv : stack.Eventually (.resolve v) (.ok (.value v')))
    (hw : stack.Eventually (.resolve w) (.ok (.value w'))) :
    stack.Eventually (.resolve (.mapping [("Fn::If", .list [.string name, v, w])]))
      (.ok (.value (if truth name then v' else w'))) := by
  obtain ⟨f, hf⟩ := hname
  rw [eventually_resolve_ok_iff] at hv hw ⊢
  exact gives_callIf (h.gives_condition htruth hf) hv hw

end DefinedBy

/-- **Conditions compute their truth values.**  If the conditions of a stack are formulas and none
refers to itself, by whatever detour, the equations between their truth values have a solution.
Under large limits, and after any operations, each condition is what a solution says, both when
it is asked for and when a value refers to it; and a choice between two values that resolve is the
value of the one that the condition picks. -/
theorem conditions_compute_truth (stack : Stack) {formulas : List (String × Formula)}
    (h : stack.DefinedBy formulas) :
    (∃ truth, Formula.Solves stack.config.negation formulas truth) ∧
    ∀ truth, Formula.Solves stack.config.negation formulas truth →
      (∃ limit, ∀ n, limit ≤ n → ∀ name ∈ Formula.declared formulas, ∀ ops : List Operation,
        ((stack.withLimit n).operate (.condition name)
          ((stack.withLimit n).after ops .start)).1 = .ok (.value (.boolean (truth name))) ∧
        ((stack.withLimit n).operate (.resolve (.mapping [("Condition", .string name)]))
          ((stack.withLimit n).after ops .start)).1 = .ok (.value (.boolean (truth name)))) ∧
      ∀ name ∈ Formula.declared formulas, ∀ v w v' w',
        (∃ n, ((stack.withLimit n).operate (.resolve v) .start).1 = .ok (.value v')) →
        (∃ n, ((stack.withLimit n).operate (.resolve w) .start).1 = .ok (.value w')) →
        ∃ limit, ∀ n, limit ≤ n → ∀ ops : List Operation,
          ((stack.withLimit n).operate
            (.resolve (.mapping [("Fn::If", .list [.string name, v, w])]))
            ((stack.withLimit n).after ops .start)).1 =
              .ok (.value (if truth name then v' else w')) := by
  refine ⟨h.exists_solves, fun truth htruth => ⟨exists_limit_of_declared ?_, ?_⟩⟩
  · intro name hname
    obtain ⟨limit, hlimit⟩ := (h.eventually_condition htruth hname).after
    obtain ⟨limit', hlimit'⟩ := (h.eventually_reference htruth hname).after
    refine ⟨max limit limit', fun n hn ops => ⟨hlimit n (by omega) ops, ?_⟩⟩
    exact hlimit' n (by omega) ops
  · rintro name hname v w v' w' ⟨n, hv⟩ ⟨n', hw⟩
    have hv : stack.Eventually (.resolve v) (.ok (.value v')) := stack.eventually_of_operate n [] hv
    have hw : stack.Eventually (.resolve w) (.ok (.value w')) :=
      stack.eventually_of_operate n' [] hw
    exact (h.eventually_choice htruth hname hv hw).after

/-- A comparison that holds and its negation, where negation inverts: a choice by the negation
takes the second value.  A whole number is not equal to the double of the same value, and neither
are mappings with other keys, so that their disjunction is false. -/
theorem inverted_comparison_computes_truth :
    let text (s : String) : { v : Value // v.CallFree } := ⟨.string s, Value.callFree_string s⟩
    let number (n : Number) : { v : Value // v.CallFree } := ⟨.number n, Value.callFree_number n⟩
    let zone : { v : Value // v.CallFree } := ⟨.mapping [("Zone", .null)],
      Value.callFree_mapping_iff.mpr ⟨rfl, by simp [Value.callFree_null]⟩⟩
    let region : { v : Value // v.CallFree } := ⟨.mapping [("Region", .null)],
      Value.callFree_mapping_iff.mpr ⟨rfl, by simp [Value.callFree_null]⟩⟩
    let whole := number (.integer 1 (by decide))
    let double := number (.real ⟨false, 1023 * Double.run, by decide⟩)
    let live := Formula.equals (text "eu-west-1") (text "eu-west-1")
    let loose := Formula.or (.equals whole double) (.equals zone region)
    let formulas := [("Quiet", Formula.not (.condition "Live")), ("Live", live), ("Loose", loose)]
    let conditions := Value.mapping [("Quiet", (Formula.not (.condition "Live")).toValue),
      ("Live", live.toValue), ("Loose", loose.toValue)]
    let stack := { ofDocument (.mapping [("Conditions", conditions)]) with
      config := ⟨.invert, Config.defaultMaxDepth⟩ }
    stack.DefinedBy formulas ∧
      ∃ truth, Formula.Solves .invert formulas truth ∧ truth "Live" = true ∧
        truth "Quiet" = false ∧ truth "Loose" = false ∧
        (∃ limit, ∀ n, limit ≤ n → ∀ ops : List Operation,
          ((stack.withLimit n).operate (.condition "Loose")
            ((stack.withLimit n).after ops .start)).1 = .ok (.value (.boolean false))) ∧
        ∃ limit, ∀ n, limit ≤ n → ∀ ops : List Operation,
          ((stack.withLimit n).operate
            (.resolve (.mapping [("Fn::If", .list [.string "Quiet", .string "a", .string "b"])]))
            ((stack.withLimit n).after ops .start)).1 = .ok (.value (.string "b")) := by
  intro text number zone region whole double live loose formulas conditions stack
  have hcases {name : String} {f : Formula} (hf : formulas.lookup name = some f) :
      name = "Quiet" ∧ f = .not (.condition "Live") ∨ name = "Live" ∧ f = live ∨
        name = "Loose" ∧ f = loose := by
    simpa [formulas] using mem_of_lookup hf
  have huses {name other : String} (h : Formula.Uses formulas name other) :
      name = "Quiet" ∧ other = "Live" := by
    obtain ⟨f, hf, hother⟩ := h
    rcases hcases hf with ⟨rfl, rfl⟩ | ⟨rfl, rfl⟩ | ⟨rfl, rfl⟩
    · exact ⟨rfl, List.mem_singleton.mp hother⟩
    · cases hother
    · cases hother
  have hdefined : stack.DefinedBy formulas := by
    refine ⟨by rfl, fun name f hf other hother => ?_, fun name hcycle => ?_⟩
    · obtain ⟨-, rfl⟩ := huses ⟨f, hf, hother⟩
      exact ⟨live, by rfl⟩
    · obtain ⟨_, hfirst, -⟩ := Relation.TransGen.head'_iff.mp hcycle
      obtain ⟨_, -, hlast⟩ := Relation.TransGen.tail'_iff.mp hcycle
      have hname : "Quiet" = "Live" := (huses hfirst).1.symm.trans (huses hlast).2
      exact absurd hname (by decide)
  obtain ⟨⟨truth, htruth⟩, hoperate⟩ := stack.conditions_compute_truth hdefined
  have hlive : truth "Live" = true := htruth "Live" live (by rfl)
  have hquiet : truth "Quiet" = false := by
    rw [htruth "Quiet" (.not (.condition "Live")) (by rfl)]
    simp [Formula.holds, stack, hlive]
  have hkinds : (Formula.equals whole double).holds .invert truth = false := by
    have hwhole : whole.1.WellKeyed := trivial
    have hdouble : double.1.WellKeyed := trivial
    refine Bool.eq_false_iff.mpr fun h => ?_
    cases (Formula.holds_equals_iff hwhole hdouble).mp h
  have hkeys : (Formula.equals zone region).holds .invert truth = false := by
    have hzone : zone.1.WellKeyed := ⟨by simp, trivial, trivial⟩
    have hregion : region.1.WellKeyed := ⟨by simp, trivial, trivial⟩
    refine Bool.eq_false_iff.mpr fun h => ?_
    cases (Formula.holds_equals_iff hzone hregion).mp h with
    | mapping hkeys => exact absurd ((hkeys "Zone").mp (by simp)) (by simp)
  have hloose : truth "Loose" = false := by
    rw [htruth "Loose" loose (by rfl)]
    exact Bool.or_eq_false_iff.mpr ⟨hkinds, hkeys⟩
  obtain ⟨⟨limit, hlimit⟩, hif⟩ := hoperate truth htruth
  have hcondition (n : Nat) (hn : limit ≤ n) (ops : List Operation) :=
    (hlimit n hn "Loose" ⟨loose, by rfl⟩ ops).1
  rw [hloose] at hcondition
  have hchoice := hif "Quiet" ⟨_, by rfl⟩ (.string "a") (.string "b") (.string "a") (.string "b")
    ⟨1, by rfl⟩ ⟨1, by rfl⟩
  rw [hquiet] at hchoice
  exact ⟨hdefined, truth, htruth, hlive, hquiet, hloose, ⟨limit, hcondition⟩, hchoice⟩

end Stack
end StackTemplate
