import Mathlib.Data.List.Infix
import StackTemplate.Placeholder

/-!
# The decomposition of a text

`Piece.scan` takes a text apart by two cuts at a time.  Here it is said without a scanner what the
pieces are: literal text and placeholders in turn, each placeholder at the first `${` that has a
`}` anywhere after it, and no such `${` in the literal text at the end.

Every text has exactly one decomposition, and scanning finds it.  A `${` before a placeholder would
have the `}` of the placeholder after it.  So the literal text before a placeholder has no `${` at
all, while the one at the end may have any number of them.

* `Piece.Decomposes`: the pieces are a decomposition of the text.
* `decomposes_iff`: the decomposition is what scanning gives.
-/

namespace StackTemplate

open Text (cut? cut?_eq_none_iff cut?_eq_some_iff)

namespace Piece

variable {s before body after rest : List Char} {pieces : List Piece}

/-! ## 1. Decompositions -/

/-- At the offset `j` of the text a placeholder begins: `${`, with a `}` somewhere after it. -/
def OpensAt (s : List Char) (j : Nat) : Prop :=
  ∃ u v, s = u ++ opening ++ v ∧ u.length = j ∧ '\x7d' ∈ v

/-- **The pieces are a decomposition of the text**: literal text and placeholders in turn, from
the first literal text to the last.  A placeholder has no `}` in its body, and it begins at the
first offset after the placeholder before it where one can begin; and in the last literal text no
placeholder begins. -/
inductive Decomposes : List Char → List Piece → Prop
  | last {text : List Char} (h : ∀ j, ¬ OpensAt text j) : Decomposes text [.literal text]
  | placeholder {before body after : List Char} {pieces : List Piece} (hbody : '\x7d' ∉ body)
      (hfirst : ∀ j < before.length,
        ¬ OpensAt (before ++ (Piece.placeholder body).source ++ after) j)
      (hafter : Decomposes after pieces) :
      Decomposes (before ++ (Piece.placeholder body).source ++ after)
        (.literal before :: .placeholder body :: pieces)

/-- Nothing is lost in a decomposition. -/
theorem Decomposes.source_eq (h : Decomposes s pieces) : pieces.flatMap source = s := by
  induction h with
  | last _ => simp [source]
  | placeholder _ _ _ ih => simp [ih, source]

/-! ## 2. The first placeholder -/

theorem append_source (before body after : List Char) :
    before ++ (Piece.placeholder body).source ++ after =
      before ++ opening ++ (body ++ closing ++ after) := by
  simp [source]

theorem mem_closing (body after : List Char) : '\x7d' ∈ body ++ closing ++ after := by
  simp [closing]

/-- No `${` overlaps another one, so the text before a `${` is cut off there if it has none. -/
theorem cut?_opening_append_iff :
    cut? opening (before ++ opening ++ rest) = some (before, rest) ↔ ¬ opening <:+: before := by
  constructor
  · rintro h ⟨u, v, rfl⟩
    have hle := Text.length_le_of_cut? h (u := u) (v := v ++ opening ++ rest) (by simp)
    simp only [opening, List.length_append, List.length_cons] at hle
    omega
  · refine fun h => cut?_eq_some_iff.mpr ⟨rfl, fun u v hs => ?_⟩
    by_contra hlt
    rw [List.append_assoc, List.append_eq_append_iff] at hs
    obtain ⟨as, hu, hrest⟩ | ⟨bs, hbefore, -⟩ := hs
    · -- the `${` ends behind `before`, by one character at most
      have hlength := congrArg List.length hu
      simp only [opening, List.length_append, List.length_cons, List.length_nil] at hlength
      match as with
      | [] => exact h ⟨u, [], by simpa using hu⟩
      | [c] =>
        have hlast : '\x7b' = c := by simpa [opening] using congrArg List.getLast? hu
        cases hlast
        simp [opening] at hrest
      | _ :: _ :: _ =>
        simp only [List.length_cons] at hlength
        omega
    · exact h ⟨u, bs, hbefore.symm⟩

/-- The text after the later of two `${` is a suffix of the text after the earlier one. -/
theorem suffix_of_append_opening_eq {u v u' v' : List Char}
    (h : u ++ opening ++ v = u' ++ opening ++ v') (hle : u.length ≤ u'.length) : v' <:+ v := by
  have hlength := congrArg List.length h
  simp only [List.length_append] at hlength
  exact List.suffix_of_suffix_length_le ⟨u' ++ opening, h.symm⟩ ⟨u ++ opening, rfl⟩ (by omega)

/-- A placeholder begins nowhere before a `${` with a `}` after it, if this is the first `${`. -/
theorem forall_not_opensAt_iff (h : '\x7d' ∈ rest) :
    (∀ j < before.length, ¬ OpensAt (before ++ opening ++ rest) j) ↔
      cut? opening (before ++ opening ++ rest) = some (before, rest) := by
  constructor
  · refine fun hfirst => cut?_eq_some_iff.mpr ⟨rfl, fun u v hs => ?_⟩
    by_contra hlt
    have hsuffix : rest <:+ v := suffix_of_append_opening_eq hs.symm (by omega)
    exact hfirst u.length (by omega) ⟨u, v, hs, rfl, hsuffix.subset h⟩
  · rintro hcut j hj ⟨u, v, hs, rfl, -⟩
    have hle := Text.length_le_of_cut? hcut hs
    omega

theorem forall_not_opensAt_placeholder_iff :
    (∀ j < before.length, ¬ OpensAt (before ++ (Piece.placeholder body).source ++ after) j) ↔
      ¬ opening <:+: before := by
  rw [append_source, forall_not_opensAt_iff (mem_closing body after), cut?_opening_append_iff]

/-! ## 3. Scanning -/

/-- A body without `}` ends at the first one. -/
theorem cut?_closing_append (h : '\x7d' ∉ body) (after : List Char) :
    cut? closing (body ++ closing ++ after) = some (body, after) :=
  Text.cut?_singleton_append h after

theorem scan_of_placeholder (hopening : cut? opening s = some (before, rest))
    (hclosing : cut? closing rest = some (body, after)) :
    scan s = .literal before :: .placeholder body :: scan after := by
  rw [scan]
  split
  · next h => rw [hopening] at h; cases h
  · next h =>
    rw [hopening] at h
    cases h
    split
    · next h => rw [hclosing] at h; cases h
    · next h =>
      rw [hclosing] at h
      cases h
      rfl

/-- A text where no placeholder begins is literal. -/
theorem scan_of_not_opensAt (h : ∀ j, ¬ OpensAt s j) : scan s = [.literal s] := by
  rw [scan]
  split
  · rfl
  · next before rest hopening =>
    split
    · rfl
    · next body after hclosing =>
      refine absurd ⟨before, rest, Text.eq_of_cut? hopening, rfl, ?_⟩ (h before.length)
      rw [Text.eq_of_cut? hclosing]
      exact mem_closing body after

/-- Where a placeholder begins, the first one is found. -/
theorem exists_cuts_of_opensAt {j : Nat} (h : OpensAt s j) :
    ∃ before rest body after, cut? opening s = some (before, rest) ∧
      cut? closing rest = some (body, after) := by
  obtain ⟨u, v, hs, -, hv⟩ := h
  cases hopening : cut? opening s with
  | none => exact absurd ⟨u, v, hs.symm⟩ (cut?_eq_none_iff.mp hopening)
  | some parts =>
    obtain ⟨before, rest⟩ := parts
    have hsuffix : v <:+ rest :=
      suffix_of_append_opening_eq ((Text.eq_of_cut? hopening).symm.trans hs)
        (Text.length_le_of_cut? hopening hs)
    cases hclosing : cut? closing rest with
    | none => exact absurd (hsuffix.subset hv) (Text.cut?_singleton_eq_none_iff.mp hclosing)
    | some parts => exact ⟨before, rest, parts.1, parts.2, rfl, hclosing⟩

/-- **Scanning finds a decomposition**... -/
theorem decomposes_scan (s : List Char) : Decomposes s (scan s) := by
  induction hn : s.length using Nat.strongRecOn generalizing s with
  | _ n ih =>
    by_cases hopens : ∀ j, ¬ OpensAt s j
    · rw [scan_of_not_opensAt hopens]
      exact .last hopens
    · obtain ⟨j, hj⟩ := not_forall_not.mp hopens
      obtain ⟨before, rest, body, after, hopening, hclosing⟩ := exists_cuts_of_opensAt hj
      rw [scan_of_placeholder hopening hclosing]
      have hrest := Text.length_lt_of_cut? (by decide) hopening
      have hafter := Text.length_lt_of_cut? (by decide) hclosing
      have hs := Text.eq_of_cut? hopening
      obtain rfl := Text.eq_of_cut? hclosing
      have hfirst := (forall_not_opensAt_iff (mem_closing body after)).mpr (hs ▸ hopening)
      rw [← append_source] at hs hfirst
      rw [hs]
      exact .placeholder (Text.not_mem_of_cut?_singleton hclosing) hfirst
        (ih after.length (by omega) after rfl)

/-- ...and it is the only one. -/
theorem Decomposes.eq_scan (h : Decomposes s pieces) : pieces = scan s := by
  induction h with
  | last h => exact (scan_of_not_opensAt h).symm
  | @placeholder before body after pieces hbody hfirst _ ih =>
    rw [append_source, forall_not_opensAt_iff (mem_closing body after)] at hfirst
    rw [append_source, scan_of_placeholder hfirst (cut?_closing_append hbody after), ih]

/-- **A text has one decomposition**, and it is what scanning gives. -/
theorem decomposes_iff : Decomposes s pieces ↔ pieces = scan s :=
  ⟨Decomposes.eq_scan, fun h => h ▸ decomposes_scan s⟩

end Piece
end StackTemplate
