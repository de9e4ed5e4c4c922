/-!
# Cutting a text at a delimiter

`cut? d s` finds the first occurrence of `d` in `s` and gives the text on its two sides.
`split` repeats it to the end of the text: the occurrences it takes are the leftmost ones
that do not overlap, so `aaa` split at `aa` is an empty field and `a`.

The empty delimiter is a case of its own: it separates every character from the next, and
the empty text has no fields at all.
-/

namespace StackTemplate
namespace Text

/-- The text before and after the first occurrence of `d`. -/
def cut? (d : List Char) : List Char → Option (List Char × List Char)
  | [] => if d.isEmpty then some ([], []) else none
  | c :: r =>
    if d.isPrefixOf (c :: r) then some ([], (c :: r).drop d.length)
    else (cut? d r).map fun (before, after) => (c :: before, after)

/-- Cutting loses only the delimiter itself. -/
theorem eq_of_cut? {d s a b : List Char} (h : cut? d s = some (a, b)) : s = a ++ d ++ b := by
  induction s generalizing a with
  | nil =>
    simp only [cut?] at h
    split at h
    · next hd => simp_all [List.isEmpty_iff]
    · simp at h
  | cons c r ih =>
    rw [cut?] at h
    split at h
    · next hd =>
      obtain ⟨t, ht⟩ := List.isPrefixOf_iff_prefix.mp hd
      simp only [Option.some.injEq, Prod.mk.injEq] at h
      obtain ⟨rfl, rfl⟩ := h
      rw [← ht]
      simp
    · obtain ⟨⟨x, y⟩, hxy, h⟩ := Option.map_eq_some_iff.mp h
      simp only [Prod.mk.injEq] at h
      obtain ⟨rfl, rfl⟩ := h
      rw [ih hxy]
      simp

/-- A text is cut if the delimiter occurs in it. -/
theorem cut?_eq_none_iff {d s : List Char} : cut? d s = none ↔ ¬ d <:+: s := by
  constructor
  · rintro h ⟨u, v, hs⟩
    induction s generalizing u with
    | nil => simp_all [cut?]
    | cons c r ih =>
      rw [cut?] at h
      split at h
      · cases h
      · next hd =>
        cases u with
        | nil => exact hd (List.isPrefixOf_iff_prefix.mpr ⟨v, by simpa using hs⟩)
        | cons c' u =>
          simp only [List.cons_append, List.cons.injEq] at hs
          exact ih (Option.map_eq_none_iff.mp h) u hs.2
  · intro h
    cases hcut : cut? d s with
    | none => rfl
    | some parts => exact absurd ⟨parts.1, parts.2, (eq_of_cut? hcut).symm⟩ h

/-- No occurrence of the delimiter starts before the one where the text is cut. -/
theorem length_le_of_cut? {d s a b u v : List Char} (h : cut? d s = some (a, b))
    (hs : s = u ++ d ++ v) : a.length ≤ u.length := by
  induction s generalizing a u with
  | nil =>
    rw [cut?] at h
    split at h
    · cases h
      exact Nat.zero_le _
    · cases h
  | cons c r ih =>
    rw [cut?] at h
    split at h
    · cases h
      exact Nat.zero_le _
    · next hd =>
      obtain ⟨⟨x, y⟩, hxy, h⟩ := Option.map_eq_some_iff.mp h
      cases h
      cases u with
      | nil => exact absurd (List.isPrefixOf_iff_prefix.mpr ⟨v, by simpa using hs.symm⟩) hd
      | cons c' u =>
        simp only [List.cons_append, List.cons.injEq] at hs
        exact Nat.succ_le_succ (ih hxy hs.2)

/-- **The text is cut at the first occurrence of the delimiter.** -/
theorem cut?_eq_some_iff {d s a b : List Char} :
    cut? d s = some (a, b) ↔
      s = a ++ d ++ b ∧ ∀ u v, s = u ++ d ++ v → a.length ≤ u.length := by
  constructor
  · exact fun h => ⟨eq_of_cut? h, fun u v => length_le_of_cut? h⟩
  · rintro ⟨hs, hfirst⟩
    cases hcut : cut? d s with
    | none => exact absurd ⟨a, b, hs.symm⟩ (cut?_eq_none_iff.mp hcut)
    | some parts =>
      obtain ⟨a', b'⟩ := parts
      have hs' := eq_of_cut? hcut
      have hlength : a.length = a'.length :=
        Nat.le_antisymm (hfirst a' b' hs') (length_le_of_cut? hcut hs)
      rw [hs, List.append_assoc, List.append_assoc] at hs'
      obtain ⟨rfl, hrest⟩ := List.append_inj hs' hlength
      rw [List.append_cancel_left hrest]

/-- What stands after a nonempty delimiter is shorter than the text. -/
theorem length_lt_of_cut? {d s a b : List Char} (hd : d ≠ []) (h : cut? d s = some (a, b)) :
    b.length < s.length := by
  have hpos : 0 < d.length := List.length_pos_iff.mpr hd
  rw [eq_of_cut? h]
  simp only [List.length_append]
  omega

/-- A text is cut at a character if it has one... -/
theorem cut?_singleton_eq_none_iff {c : Char} {s : List Char} :
    cut? [c] s = none ↔ c ∉ s := by
  rw [cut?_eq_none_iff]
  refine not_congr ⟨fun h => h.subset (List.mem_singleton_self c), fun h => ?_⟩
  obtain ⟨u, v, rfl⟩ := List.append_of_mem h
  exact ⟨u, v, by simp⟩

/-- ...and then the character is not in the part before. -/
theorem not_mem_of_cut?_singleton {c : Char} {s a b : List Char}
    (h : cut? [c] s = some (a, b)) : c ∉ a := by
  intro hc
  obtain ⟨u, v, rfl⟩ := List.append_of_mem hc
  have hle := length_le_of_cut? h (u := u) (v := v ++ [c] ++ b) (by simp [eq_of_cut? h])
  simp only [List.length_append, List.length_cons] at hle
  omega

/-- A text without the character is cut off where the character stands after it. -/
theorem cut?_singleton_append {c : Char} {before : List Char} (h : c ∉ before)
    (after : List Char) : cut? [c] (before ++ [c] ++ after) = some (before, after) := by
  refine cut?_eq_some_iff.mpr ⟨rfl, ?_⟩
  intro u v hs
  rw [List.append_assoc, List.append_assoc, List.append_eq_append_iff] at hs
  rcases hs with ⟨as, rfl, -⟩ | ⟨bs, rfl, hbs⟩
  · simp
  · -- the character would stand in the text before it
    cases bs with
    | nil => simp
    | cons d bs =>
      cases hbs
      simp at h

/-- The fields of `s` between the occurrences of `d`.  The empty delimiter makes a field of
every character. -/
def split (d s : List Char) : List (List Char) :=
  if _ : d = [] then s.map fun c => [c]
  else
    match _ : cut? d s with
    | none => [s]
    | some (before, after) => before :: split d after
termination_by s.length
decreasing_by exact length_lt_of_cut? ‹_› ‹_›

theorem split_empty (s : List Char) : split [] s = s.map fun c => [c] := by
  rw [split]
  simp

theorem split_of_cut?_none {d s : List Char} (hd : d ≠ []) (h : cut? d s = none) :
    split d s = [s] := by
  rw [split, dif_neg hd]
  split
  · rfl
  · next h' => rw [h] at h'; cases h'

theorem split_of_cut?_some {d s a b : List Char} (hd : d ≠ []) (h : cut? d s = some (a, b)) :
    split d s = a :: split d b := by
  rw [split, dif_neg hd]
  split
  · next h' => rw [h] at h'; cases h'
  · next h' =>
    rw [h] at h'
    cases h'
    rfl

/-- `cut?` on strings. -/
def cutString? (d s : String) : Option (String × String) :=
  (cut? d.toList s.toList).map fun (before, after) => (String.ofList before, String.ofList after)

theorem cutString?_eq_none_iff {d s : String} {c : Char} (hd : d.toList = [c]) :
    cutString? d s = none ↔ c ∉ s.toList := by
  rw [cutString?, Option.map_eq_none_iff, hd, cut?_singleton_eq_none_iff]

theorem cutString?_append {d before : String} {c : Char} (hd : d.toList = [c])
    (h : c ∉ before.toList) (after : String) :
    cutString? d (before ++ d ++ after) = some (before, after) := by
  have hcut := cut?_singleton_append h after.toList
  rw [cutString?, String.toList_append, String.toList_append, hd, hcut]
  simp

/-- `split` on strings. -/
def splitString (d s : String) : List String :=
  (split d.toList s.toList).map String.ofList

end Text
end StackTemplate
