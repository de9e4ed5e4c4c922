/-!
# Blank characters and trimming

Names in a template are read with the blanks around them removed.  A blank is a character
with the Unicode property `White_Space`: 25 characters, of which core's
`Char.isWhitespace` knows four.

`trim` removes blanks at both ends and nothing else; `isBlankText` asks whether anything is
left.
-/

namespace StackTemplate
namespace Text

/-- The characters with the Unicode property `White_Space`. -/
def isBlank (c : Char) : Bool :=
  let n := c.toNat
  (9 ≤ n && n ≤ 13) || n == 0x20 || n == 0x85 || n == 0xA0 || n == 0x1680 ||
    (0x2000 ≤ n && n ≤ 0x200A) || n == 0x2028 || n == 0x2029 || n == 0x202F ||
    n == 0x205F || n == 0x3000

/-- The text without its leading blanks. -/
def trimLeft (s : List Char) : List Char := s.dropWhile isBlank

/-- The text without its trailing blanks. -/
def trimRight (s : List Char) : List Char := (s.reverse.dropWhile isBlank).reverse

/-- The text without the blanks at its two ends. -/
def trim (s : List Char) : List Char := trimRight (trimLeft s)

/-- `trim` on strings. -/
def trimmed (s : String) : String := String.ofList (trim s.toList)

/-- A text of blanks alone, the empty one included. -/
def isBlankText (s : String) : Bool := s.toList.all isBlank

theorem trimLeft_isSuffix (s : List Char) : trimLeft s <:+ s := List.dropWhile_suffix _

theorem trimRight_isPrefix (s : List Char) : trimRight s <+: s := by
  rw [trimRight, ← List.reverse_suffix, List.reverse_reverse]
  exact List.dropWhile_suffix _

theorem trim_isInfix (s : List Char) : trim s <:+: s :=
  (trimRight_isPrefix _).isInfix.trans (trimLeft_isSuffix s).isInfix

/-- A text keeps its first characters if the first one is no blank... -/
theorem trimLeft_eq_self_iff {s : List Char} :
    trimLeft s = s ↔ ∀ c, s.head? = some c → isBlank c = false := by
  cases s with
  | nil => simp [trimLeft]
  | cons c rest =>
    simp only [trimLeft, List.dropWhile_cons, List.head?_cons, Option.some.injEq, forall_eq']
    cases hc : isBlank c with
    | false => simp
    | true =>
      simp only [if_true, Bool.true_eq_false, iff_false]
      intro h
      have hle := (trimLeft_isSuffix rest).length_le
      rw [trimLeft, h, List.length_cons] at hle
      omega

/-- ...and its last ones if the last one is no blank. -/
theorem trimRight_eq_self_iff {s : List Char} :
    trimRight s = s ↔ ∀ c, s.getLast? = some c → isBlank c = false := by
  rw [← List.head?_reverse, ← trimLeft_eq_self_iff, trimRight, ← trimLeft, List.reverse_eq_iff]

/-- Trimming leaves a text as it is if neither end is a blank. -/
theorem trim_eq_self_iff {s : List Char} :
    trim s = s ↔ (∀ c, s.head? = some c → isBlank c = false) ∧
      ∀ c, s.getLast? = some c → isBlank c = false := by
  rw [← trimLeft_eq_self_iff, ← trimRight_eq_self_iff]
  constructor
  · intro h
    have hle := (trimRight_isPrefix (trimLeft s)).length_le
    rw [← trim, h] at hle
    have hleft : trimLeft s = s := (trimLeft_isSuffix s).eq_of_length_le hle
    rw [trim, hleft] at h
    exact ⟨hleft, h⟩
  · rintro ⟨hleft, hright⟩
    rw [trim, hleft, hright]

/-- Nothing is left to trim. -/
theorem trim_trim (s : List Char) : trim (trim s) = trim s := by
  refine trim_eq_self_iff.mpr ⟨fun c hc => ?_, fun c hc => ?_⟩
  · have hhead := List.head?_dropWhile_not isBlank s
    obtain ⟨after, hafter⟩ := trimRight_isPrefix (trimLeft s)
    rw [← trimLeft, ← hafter, ← trim, List.head?_append, hc] at hhead
    simpa using hhead
  · have hlast := List.head?_dropWhile_not isBlank (trimLeft s).reverse
    rw [trim, trimRight, List.getLast?_reverse] at hc
    rw [hc] at hlast
    simpa using hlast

end Text
end StackTemplate
