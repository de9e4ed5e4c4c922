import StackTemplate.Proofs.Equality
import StackTemplate.Proofs.Formula
import StackTemplate.Proofs.KeyOrder

/-!
# `Fn::Equals` decides structural equality

A comparison resolves its two operands and compares their values.  The test decides structural
equality of values that repeat no key (`Value.same_iff_equals`), and the operands have no others: no
value ever repeats a key, if the document and the operands do not.  Section 8 of the specification
has the two cases: the same value twice, and values that differ.

* `resolvesTo_comparison`: a comparison never fails by itself.
* `comparison_decides_equality`: its answer, and that equal parts do not change it.
-/

namespace StackTemplate
namespace Stack

open Value (Equals Replaces)

/-- The call of `Fn::Equals` with two operands. -/
def comparison (a b : Value) : Value := .mapping [("Fn::Equals", .list [a, b])]

/-- The operand, in which no mapping repeats a key, resolves to the value. -/
structure Operand (stack : Stack) (a v : Value) : Prop where
  wellKeyed : a.WellKeyed
  resolves : stack.ResolvesTo a (.ok v)

variable {stack : Stack} {a a' b b' v v' w w' : Value}

/-- A comparison never fails by itself. -/
theorem resolvesTo_comparison (ha : stack.Operand a v) (hb : stack.Operand b w) :
    stack.ResolvesTo (comparison a b) (.ok (.boolean (v.same w))) := by
  have hv := resolvesTo_iff_gives.mp ha.resolves
  have hw := resolvesTo_iff_gives.mp hb.resolves
  exact resolvesTo_iff_gives.mpr (gives_callEquals hv hw)

variable (hdocument : stack.template.document.WellKeyed)
include hdocument

theorem Operand.wellKeyed_value (ha : stack.Operand a v) : v.WellKeyed :=
  wellKeyed_of_gives hdocument ha.wellKeyed (resolvesTo_iff_gives.mp ha.resolves)

/-- The answer of a comparison says whether the values of the operands are equal. -/
theorem same_iff_equals_of_operand (ha : stack.Operand a v) (hb : stack.Operand b w) :
    v.same w = true ↔ v.Equals w :=
  Value.same_iff_equals (ha.wellKeyed_value hdocument) (hb.wellKeyed_value hdocument)

/-- Operands with equal values get the same answer. -/
theorem resolvesTo_comparison_congr (ha : stack.Operand a v) (hb : stack.Operand b w)
    (ha' : stack.Operand a' v') (hb' : stack.Operand b' w') (hv : v.Equals v')
    (hw : w.Equals w') :
    stack.ResolvesTo (comparison a' b') (.ok (.boolean (v.same w))) := by
  have hsame : v'.same w' = v.same w := by
    rw [Bool.eq_iff_iff, same_iff_equals_of_operand hdocument ha hb,
      same_iff_equals_of_operand hdocument ha' hb']
    constructor
    · intro h
      exact (hv.trans h).trans hw.symm
    · intro h
      exact (hv.symm.trans h).trans hw
  exact hsame ▸ resolvesTo_comparison ha' hb'

/-- **`Fn::Equals` decides structural equality.**  In a stack whose document repeats no key, the
comparison of two operands resolves, depth aside, to a boolean, which is true if and only if the
values of the operands are structurally equal.  Structural equality is an equivalence.  And operands
whose values differ from these in one part, with an equal one in its place, get the same answer. -/
theorem comparison_decides_equality (ha : stack.Operand a v) (hb : stack.Operand b w) :
    Equivalence Equals ∧
    ∃ answer, stack.ResolvesTo (comparison a b) (.ok (.boolean answer)) ∧
      (answer = true ↔ v.Equals w) ∧
      ∀ u u', Equals u u' →
        (∀ a' v', stack.Operand a' v' → Replaces u u' v v' →
          stack.ResolvesTo (comparison a' b) (.ok (.boolean answer))) ∧
        ∀ b' w', stack.Operand b' w' → Replaces u u' w w' →
          stack.ResolvesTo (comparison a b') (.ok (.boolean answer)) := by
  refine ⟨Value.equals_equivalence, v.same w, resolvesTo_comparison ha hb,
    same_iff_equals_of_operand hdocument ha hb, fun u u' hu => ⟨?_, ?_⟩⟩
  · intro a' v' ha' hv
    exact resolvesTo_comparison_congr hdocument ha hb ha' hb (hu.of_replaces hv) (.refl w)
  · intro b' w' hb' hw
    exact resolvesTo_comparison_congr hdocument ha hb ha hb' (.refl v) (hu.of_replaces hw)

omit hdocument

/-- A mapping with a call in it, and a mapping with the keys in another order and the value of the
call in its place. -/
theorem swapped_keys_compare_equal :
    let stack := ofDocument (.mapping [])
    let a := Value.mapping
      [("Zone", .mapping [("Ref", .string "AWS::Region")]), ("Live", .boolean true)]
    let v := Value.mapping [("Zone", .string "eu-west-1"), ("Live", .boolean true)]
    let b := Value.mapping [("Live", .boolean true), ("Zone", .string "eu-west-1")]
    stack.template.document.WellKeyed ∧ stack.Operand a v ∧ stack.Operand b b ∧ v.Equals b ∧
      stack.ResolvesTo (comparison a b) (.ok (.boolean true)) := by
  intro stack a v b
  have hdocument : stack.template.document.WellKeyed := ⟨by simp, trivial⟩
  have ha : stack.Operand a v :=
    ⟨⟨by simp, ⟨by simp, trivial, trivial⟩, trivial, trivial⟩,
      resolvesTo_of_resolvedUnder 9 [] (by rfl)⟩
  have hb : stack.Operand b b :=
    ⟨⟨by simp, trivial, trivial, trivial⟩,
      resolvesTo_of_resolvedUnder 9 [] (by rfl)⟩
  obtain ⟨-, answer, hanswer, hiff, -⟩ := comparison_decides_equality hdocument ha hb
  have hequals : v.Equals b := (same_iff_equals_of_operand hdocument ha hb).mp (by rfl)
  exact ⟨hdocument, ha, hb, hequals, hiff.mpr hequals ▸ hanswer⟩

end Stack
end StackTemplate
