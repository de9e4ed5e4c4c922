import StackTemplate.Proofs.Height
import StackTemplate.Proofs.Requoting
import StackTemplate.Proofs.Substitution

/-!
# A name spelled as a placeholder

Between `${` and `}` a name is written as it is, if it has no `}` in it, no blanks at its ends, and
no `!` in front.  The text of such a placeholder and nothing else is filled in with one look-up, so
`Fn::Sub` gives for it the plain text of what `Ref` or `Fn::GetAtt` gives for the name.

* `Placeholder.Quotable`: the names that can be written so.
* `lookups_quoted`: the placeholder for a name looks up the name.
* `resolve_placeholderCall`: so `Fn::Sub` resolves the call that the name stands for.
-/

namespace StackTemplate

/-! ## 1. Names in braces -/

namespace Placeholder

/-- **The name is read as it is written** between `${` and `}`. -/
structure Quotable (name : String) : Prop where
  closed : '\x7d' ∉ name.toList
  trimmed : Text.trim name.toList = name.toList
  unescaped : name.toList.head? ≠ some '!'

variable {name : String}

theorem pieces_quoted (h : '\x7d' ∉ name.toList) :
    pieces (quoted name) = [.literal [], .placeholder name.toList, .literal []] := by
  have hend : ∀ j, ¬ Piece.OpensAt [] j := by
    intro j hopens
    obtain ⟨u, v, hs, -, -⟩ := hopens
    simp [Piece.opening] at hs
  have hfirst : ∀ j < ([] : List Char).length,
      ¬ Piece.OpensAt ([] ++ (Piece.placeholder name.toList).source ++ []) j := by
    intro j hj
    cases hj
  have hdecomposes := Piece.Decomposes.placeholder h hfirst (.last hend)
  rw [List.nil_append, List.append_nil] at hdecomposes
  rw [pieces, quoted, String.toList_ofList]
  exact hdecomposes.eq_scan.symm

theorem Quotable.name?_eq (h : Quotable name) :
    (Piece.placeholder name.toList).name? = some name := by
  have hname : Piece.nameOf name.toList = name := by
    rw [Piece.nameOf, h.trimmed, String.ofList_toList]
  have hescape : Piece.isEscape name = false := by
    simpa [Piece.isEscape] using h.unescaped
  simp [Piece.name?, hname, hescape]

/-- The placeholder for a name looks up the name and nothing else... -/
theorem lookups_quoted (h : Quotable name) : lookups (quoted name) = [name] := by
  have hliteral : (Piece.literal []).name? = none := rfl
  rw [lookups, pieces_quoted h.closed]
  simp only [List.filterMap_cons, List.filterMap_nil, h.name?_eq, hliteral]

/-- ...and is filled in with what is found. -/
theorem render_quoted {m : Type → Type} [Monad m] [LawfulMonad m] (h : Quotable name)
    (lookup : String → m String) : render (quoted name) lookup = lookup name := by
  have hfill (text : String) :
      Piece.fill [.literal [], .placeholder name.toList, .literal []] [text] = text.toList := by
    simp only [Piece.fill, h.name?_eq]
    simp [Piece.name?, Piece.source]
  rw [render_eq, lookups_quoted h, pieces_quoted h.closed]
  simp [hfill]

/-! ## 2. Plain names -/

/-- **A plain name**: a placeholder can hold it as it is, and it stands neither for a pseudo
parameter nor for an attribute. -/
structure Plain (name : String) : Prop extends Quotable name where
  undotted : '.' ∉ name.toList
  unreserved : PseudoParameter.ofName? name = none

/-- A placeholder for a plain name is a reference. -/
theorem Plain.asCall_eq (h : Plain name) : asCall name = .mapping [("Ref", .string name)] :=
  if_neg fun hdotted => h.undotted hdotted.2

/-- A placeholder for a name with a point in it is an attribute, because no pseudo parameter has
one. -/
theorem asCall_of_dotted (h : '.' ∈ name.toList) :
    asCall name = .mapping [("Fn::GetAtt", .string name)] := by
  refine if_pos ⟨?_, h⟩
  cases hp : PseudoParameter.ofName? name with
  | none => rfl
  | some p =>
    rw [← PseudoParameter.name_of_ofName? hp] at h
    exact absurd h (by cases p <;> decide)

end Placeholder

namespace Text

theorem toNat_of_isAlphanum {c : Char} (h : c.isAlphanum = true) :
    48 ≤ c.toNat ∧ c.toNat ≤ 122 := by
  have hupper : c.isUpper = true ↔ 65 ≤ c.toNat ∧ c.toNat ≤ 90 := decide_eq_true_iff
  have hlower : c.isLower = true ↔ 97 ≤ c.toNat ∧ c.toNat ≤ 122 :=
    Bool.and_eq_true_iff.trans (and_congr decide_eq_true_iff decide_eq_true_iff)
  have hdigit : c.isDigit = true ↔ 48 ≤ c.toNat ∧ c.toNat ≤ 57 := Char.isDigit_iff_toNat
  have hany : (c.isUpper || c.isLower || c.isDigit) = true := h
  simp only [Bool.or_eq_true, hupper, hlower, hdigit] at hany
  omega

/-- Letters and digits lie between the first blanks and the others. -/
theorem isBlank_of_isAlphanum {c : Char} (h : c.isAlphanum = true) : isBlank c = false := by
  have hrange := toNat_of_isAlphanum h
  simp only [isBlank, Bool.or_eq_false_iff, Bool.and_eq_false_iff, beq_eq_false_iff_ne,
    decide_eq_false_iff_not]
  omega

end Text

namespace Placeholder

/-- A name of letters and digits is plain: each other meaning needs another character. -/
theorem plain_of_alphanumeric {name : String} (h : name.toList.all Char.isAlphanum = true) :
    Plain name := by
  rw [List.all_eq_true] at h
  have hnot (c : Char) (hc : c.isAlphanum = false) : c ∉ name.toList := by
    intro hmem
    rw [h c hmem] at hc
    cases hc
  have hblank (c : Char) (hc : c ∈ name.toList) : Text.isBlank c = false :=
    Text.isBlank_of_isAlphanum (h c hc)
  refine ⟨⟨hnot _ (by decide), Text.trim_eq_self_iff.mpr ⟨fun c hc => ?_, fun c hc => ?_⟩, ?_⟩,
    hnot _ (by decide), ?_⟩
  · exact hblank c (List.mem_of_head? hc)
  · exact hblank c (List.mem_of_getLast? hc)
  · exact fun hhead => hnot '!' (by decide) (List.mem_of_head? hhead)
  · cases hp : PseudoParameter.ofName? name with
    | none => rfl
    | some p =>
      have hcolon : ':' ∈ p.name.toList := by cases p <;> decide
      rw [PseudoParameter.name_of_ofName? hp] at hcolon
      exact absurd hcolon (hnot ':' (by decide))

end Placeholder

namespace Stack

open Placeholder (Quotable asCall quoted textBy)

variable (stack : Stack) {name : String} {s s' : Session}

/-! ## 3. What a placeholder gives -/

/-- The call of `Fn::Sub` for the placeholder of a name. -/
def placeholderCall (name : String) : Value := .mapping [("Fn::Sub", .string (quoted name))]

/-- **The text of one placeholder is filled in by one call.** -/
theorem resolve_placeholderCall (h : Quotable name) (hs : 2 ≤ stack.levelsLeft s) :
    stack.resolve (placeholderCall name) s = (Value.string <$> textBy stack.resolve [] name) s := by
  rw [placeholderCall, stack.resolve_sub_text _ hs, filled, Placeholder.render_quoted h]

/-- It gives the plain text of what the call gives. -/
theorem resolve_placeholderCall_ok (h : Quotable name) (hs : 2 ≤ stack.levelsLeft s) {v : Value}
    {text : String} (hcall : stack.resolve (asCall name) s = (.ok v, s'))
    (htext : v.plainText? = some text) :
    stack.resolve (placeholderCall name) s = (.ok (.string text), s') := by
  have hby : textBy stack.resolve [] name s = (.ok text, s') := by
    rw [textBy, List.lookup_nil, Option.getD_none, Run.bind_ok hcall, htext]
    rfl
  rw [stack.resolve_placeholderCall h hs, map_eq_pure_bind, Run.bind_ok hby]
  rfl

/-- Its error is the error of the call. -/
theorem resolve_placeholderCall_error (h : Quotable name) (hs : 2 ≤ stack.levelsLeft s)
    {e : ResolutionError} (hcall : stack.resolve (asCall name) s = (.error e, s')) :
    stack.resolve (placeholderCall name) s = (.error e, s') := by
  have hby : textBy stack.resolve [] name s = (.error e, s') := by
    rw [textBy, List.lookup_nil, Option.getD_none, Run.bind_error hcall]
  rw [stack.resolve_placeholderCall h hs, map_eq_pure_bind, Run.bind_error hby]

end Stack
end StackTemplate
