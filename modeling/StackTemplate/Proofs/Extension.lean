import StackTemplate.Proofs.Eventual
import StackTemplate.Proofs.Repetition

/-!
# More declarations

A template that gets more parameters, conditions, resources and look-up entries, under new names,
resolves to the same wherever it was resolved before.  What is looked up and found is found again;
what is looked up and not found is an error, never a value, so it cannot have been part of a
success.  The one place where not finding a name leads on is a reference, which looks for a
parameter before it looks for a resource: so no new parameter may have the name of a resource.

The two stacks are in parallel along the diagonal, and failing excuses everything.
-/

namespace StackTemplate

/-- **The template `t'` extends `t`** by new names: what `t` declares is declared in `t'` in the
same way, and no resource of `t` has the name of a new parameter.  A section that is absent or
no mapping declares nothing. -/
structure Template.Extends (t t' : Template) : Prop where
  parameter : ∀ name declaration, t.parameter? name = some declaration →
    t'.parameter? name = some declaration
  condition : ∀ name expression, t.condition? name = some expression →
    t'.condition? name = some expression
  resource : ∀ name r, t.resource? name = some r → t'.resource? name = some r
  entry : ∀ mapping key attr v, t.mappingEntry? mapping key attr = some v →
    t'.mappingEntry? mapping key attr = some v
  apart : ∀ name r, t.resource? name = some r → t.parameter? name = none →
    t'.parameter? name = none

/-- New declarations that stand after the ones that are there extend a template, if no new
parameter has the name of a resource. -/
theorem Template.extends_of_append {t t' : Template} (new : String → Entries)
    (h : ∀ name ∈ ["Parameters", "Conditions", "Resources", "Mappings"],
      t'.declarations name = t.declarations name ++ new name)
    (hapart : ∀ e ∈ new "Parameters", t.resource? e.1 = none) : t.Extends t' := by
  have hkept {name : String} (hname : name ∈ ["Parameters", "Conditions", "Resources", "Mappings"])
      {key : String} {v : Value} (hv : (t.declarations name).lookup key = some v) :
      (t'.declarations name).lookup key = some v := by
    rw [h name hname, List.lookup_append, hv, Option.some_or]
  refine ⟨fun _ _ => hkept (by simp), fun _ _ => hkept (by simp), fun name r hr => ?_,
    fun mapping key attr v hv => ?_, fun name r hr hnone => ?_⟩
  · obtain ⟨definition, hd, rfl⟩ := Option.map_eq_some_iff.mp hr
    rw [resource?, hkept (by simp) hd, Option.map_some]
  · obtain ⟨table, htable, hv⟩ := Option.bind_eq_some_iff.mp hv
    exact Option.bind_eq_some_iff.mpr ⟨table, hkept (by simp) htable, hv⟩
  · rw [parameter?, h "Parameters" (by simp), List.lookup_append, ← parameter?, hnone,
      Option.none_or, List.lookup_eq_none_iff]
    intro e he
    rw [bne_iff_ne]
    rintro rfl
    cases hr.symm.trans (hapart e he)

/-- What is kept when found corresponds, if errors are an excuse. -/
theorem Correspondence.finds_of_kept {C : Correspondence} {α : Type} {R : α → α → Prop}
    {found found' : Option α} (hC : C.excused) (hR : ∀ a, found = some a → R a a)
    (h : ∀ a, found = some a → found' = some a) : C.Finds R found found' := by
  cases found with
  | none => exact Or.inl ⟨hC, rfl⟩
  | some a =>
    rw [h a rfl]
    exact Or.inr (.some (hR a rfl))

namespace Stack

/-- A stack corresponds to itself on an extension of its template. -/
theorem corresponds_of_extends {stack : Stack} {t' : Template} (h : stack.template.Extends t') :
    stack.Corresponds (.diagonal (fun _ => True) (fun _ => True) True)
      { stack with template := t' } where
  lawful := Correspondence.lawful_of_onDiagonal Value.closedUnderParts_true
  config := rfl
  pseudo _ _ := rfl
  parameter name := by
    cases hp : stack.template.parameter? name with
    | some declaration =>
      rw [h.parameter name declaration hp]
      exact Or.inr (.some (Plan.parallel_ofExcept fun _ _ => rfl))
    | none =>
      cases hr : stack.template.resource? name with
      | none => exact Or.inl ⟨trivial, rfl, rfl⟩
      | some r =>
        -- the name must lead on to the resource in the extension as well
        rw [h.apart name r hr hp]
        exact Or.inr .none
  resource name :=
    Correspondence.finds_of_kept trivial
      (fun r _ => sameValues_self rfl fun _ => ⟨rfl, fun _ _ => trivial⟩) (h.resource name)
  condition name :=
    Correspondence.finds_of_kept trivial (fun v _ => ⟨rfl, trivial⟩) (h.condition name)
  entry mapping key attr :=
    Correspondence.finds_of_kept trivial (fun _ _ => rfl) (h.entry mapping key attr)
  shown_ref _ _ _ _ _ := trivial
  shown_sub _ _ _ _ _ _ _ _ _ := trivial

/-- **More declarations never change a success**: a value that a stack resolves in some session,
such as a new one, is resolved to the same on every extension of the template by new names, and
leaves the same session behind. -/
theorem success_survives_extension (stack : Stack) (t' : Template)
    (h : stack.template.Extends t') (v w : Value) (s s' : Session)
    (hrun : stack.operate (.resolve v) s = (.ok (.value w), s')) :
    ({ stack with template := t' } : Stack).operate (.resolve v) s = (.ok (.value w), s') := by
  have hrepeated := (corresponds_of_extends h).operate_repeatedBy
    Value.closedUnderParts_true (.resolve v) (Corresponds.parallel_answer trivial)
  rw [← hrun]
  refine hrepeated s fun e he => ?_
  rw [hrun] at he
  cases he

/-- A look-up under a parameter's value, in a template that gets another parameter, another
resource, another table and a first condition. -/
theorem success_survives_four_additions :
    let zone := Value.mapping [("Type", .string "String"), ("Default", .string "eu")]
    let queue := Value.mapping [("Type", .string "AWS::SQS::Queue")]
    let sizes := Value.mapping [("eu", .mapping [("small", .string "1")])]
    let t : Template := ⟨.mapping [
      ("Parameters", .mapping [("Zone", zone)]),
      ("Resources", .mapping [("Jobs", queue)]),
      ("Mappings", .mapping [("Sizes", sizes)])]⟩
    let t' : Template := ⟨.mapping [
      ("Parameters", .mapping [("Zone", zone), ("eu", zone)]),
      ("Conditions", .mapping [("Never", .boolean false)]),
      ("Resources", .mapping [("Jobs", queue), ("Sizes", queue)]),
      ("Mappings", .mapping [("Sizes", sizes), ("Zone", sizes)])]⟩
    let v := Value.mapping [("Fn::FindInMap",
      .list [.string "Sizes", .mapping [("Ref", .string "Zone")], .string "small"])]
    t.Extends t' ∧
      (({ ofDocument .null with template := t' } : Stack).operate (.resolve v) .start).1 =
        .ok (.value (.string "1")) := by
  intro zone queue sizes t t' v
  have hextends : t.Extends t' := by
    refine Template.extends_of_append (fun name =>
      if name = "Parameters" then [("eu", zone)]
      else if name = "Conditions" then [("Never", .boolean false)]
      else if name = "Resources" then [("Sizes", queue)]
      else [("Zone", sizes)]) ?_ ?_
    · simp only [List.forall_mem_cons, List.not_mem_nil, false_implies, implies_true]
      exact ⟨rfl, rfl, rfl, rfl, trivial⟩
    · simp only [if_true, List.forall_mem_singleton]
      rfl
  have hrun : (({ ofDocument .null with template := t } : Stack).operate (.resolve v) .start).1 =
      .ok (.value (.string "1")) := by rfl
  refine ⟨hextends, congrArg Prod.fst (success_survives_extension
    { ofDocument .null with template := t } t' hextends v _ .start _ (Prod.ext hrun rfl))⟩

end Stack
end StackTemplate
