/-!
# Whole numbers in decimal

Reading and writing of whole numbers.  A numeral is one or more ASCII digits; any number of
leading zeros is allowed.  A signed numeral may carry one `+` or `-` in front.

`fixed` writes a number with a least width, as dates need it.
-/

namespace StackTemplate
namespace Text

/-- The value of a run of ASCII digits; `none` for the empty run and for any other
character. -/
def readNat? (s : List Char) : Option Nat :=
  if !s.isEmpty && s.all Char.isDigit then some (Nat.ofDigitChars 10 s 0) else none

/-- The value of a numeral with an optional sign. -/
def readInt? : List Char → Option Int
  | '-' :: s => (readNat? s).map fun n => -(n : Int)
  | '+' :: s => (readNat? s).map fun n => (n : Int)
  | s => (readNat? s).map fun n => (n : Int)

/-- The least and the greatest signed 64-bit integer are `-wordBound` and `wordBound - 1`. -/
def wordBound : Nat := 1 <<< 63

/-- The value of a signed numeral that a signed 64-bit word can hold. -/
def readWord? (s : List Char) : Option Int :=
  (readInt? s).filter fun i => -(wordBound : Int) ≤ i && i < (wordBound : Int)

/-- The value of an unsigned numeral, with an optional `+`, that an unsigned 64-bit word can
hold. -/
def readSize? (s : List Char) : Option Nat :=
  let digits := match s with
    | '+' :: rest => rest
    | _ => s
  (readNat? digits).filter fun n => n < 2 * wordBound

/-- The decimal digits of `n`, with `-` in front of a negative number. -/
def writeInt : Int → String
  | .ofNat n => n.repr
  | .negSucc n => "-" ++ (n + 1).repr

/-- The decimal digits of `n`, filled up with zeros on the left to `width` places. -/
def fixed (width n : Nat) : String :=
  let digits := n.repr
  String.ofList (List.replicate (width - digits.length) '0') ++ digits

/-- One or more digits. -/
def IsNumeral (s : List Char) : Prop := s ≠ [] ∧ ∀ c ∈ s, c.isDigit = true

theorem readNat?_eq_some_iff {s : List Char} {n : Nat} :
    readNat? s = some n ↔ IsNumeral s ∧ Nat.ofDigitChars 10 s 0 = n := by
  simp [readNat?, IsNumeral]

theorem isDigit_of_mem_repr {n : Nat} {c : Char} (h : c ∈ n.repr.toList) : c.isDigit = true := by
  rw [Nat.toList_repr] at h
  exact Nat.isDigit_of_mem_toDigits (by decide) (by decide) h

theorem isNumeral_repr (n : Nat) : IsNumeral n.repr.toList := by
  refine ⟨?_, fun c hc => isDigit_of_mem_repr hc⟩
  rw [Nat.toList_repr]
  exact Nat.toDigits_ne_nil

theorem ofDigitChars_repr (n : Nat) : Nat.ofDigitChars 10 n.repr.toList 0 = n := by
  rw [Nat.toList_repr, Nat.ofDigitChars_toDigits (by decide) (by decide)]

/-- Reading undoes writing. -/
theorem readNat?_repr (n : Nat) : readNat? n.repr.toList = some n :=
  readNat?_eq_some_iff.mpr ⟨isNumeral_repr n, ofDigitChars_repr n⟩

/-- A digit is no sign. -/
theorem ne_sign_of_isDigit {c : Char} (h : c.isDigit = true) : c ≠ '-' ∧ c ≠ '+' := by
  constructor
  all_goals
    rintro rfl
    exact absurd h (by decide)

/-- A run of digits has no sign. -/
theorem readInt?_of_digits {s : List Char} (h : ∀ c ∈ s, c.isDigit = true) :
    readInt? s = (readNat? s).map fun n => (n : Int) := by
  cases s with
  | nil => rfl
  | cons c rest =>
    obtain ⟨hminus, hplus⟩ := ne_sign_of_isDigit (h c List.mem_cons_self)
    simp [readInt?, hminus, hplus]

/-- Reading undoes writing, whatever the sign. -/
theorem readInt?_writeInt (i : Int) : readInt? (writeInt i).toList = some i := by
  cases i with
  | ofNat n =>
    rw [writeInt, readInt?_of_digits fun c hc => isDigit_of_mem_repr hc, readNat?_repr]
    rfl
  | negSucc n =>
    have htext : (writeInt (.negSucc n)).toList = '-' :: (n + 1).repr.toList := by
      rw [writeInt, String.toList_append]
      rfl
    rw [htext, readInt?, readNat?_repr]
    rfl

end Text
end StackTemplate
