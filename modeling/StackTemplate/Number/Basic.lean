import StackTemplate.Number.Numeral
import StackTemplate.Number.Shortest

/-!
# Numbers

A number is a whole number that fits a signed or an unsigned 64-bit word, or a finite
double.  The two kinds never compare equal, and each has its own text: a whole number is
written as its digits, a double always shows a fraction or an exponent.
-/

namespace StackTemplate

/-- The whole numbers that a signed or an unsigned 64-bit word can hold. -/
def Number.IsWord (i : Int) : Prop :=
  -(Text.wordBound : Int) ≤ i ∧ i < 2 * (Text.wordBound : Int)

instance (i : Int) : Decidable (Number.IsWord i) := by
  unfold Number.IsWord
  infer_instance

/-- A number of a template. -/
inductive Number where
  | integer (value : Int) (isWord : Number.IsWord value)
  | real (value : Double)

namespace Number

/-- Equal kind and equal value; the two zeros of the doubles are equal. -/
def same : Number → Number → Bool
  | .integer i _, .integer j _ => i == j
  | .real x, .real y => x.same y
  | _, _ => false

/-- The decimal text of a number. -/
def text : Number → String
  | .integer i _ => Text.writeInt i
  | .real x => x.text

/-- The value as a signed 64-bit integer; `none` for doubles and for whole numbers from
`2 ^ 63` on. -/
def asIndex? : Number → Option Int
  | .integer i _ => if i < (Text.wordBound : Int) then some i else none
  | .real _ => none

/-- A whole number, if a 64-bit word can hold it. -/
def ofInt? (i : Int) : Option Number :=
  if h : IsWord i then some (.integer i h) else none

/-- The number that a text stands for.  A signed numeral in the range of a signed 64-bit
word is a whole number; any other decimal numeral is rounded to a double. -/
def ofText? (s : List Char) : Option Number :=
  match (Text.readWord? s).bind ofInt? with
  | some n => some n
  | none => ((Numeral.read? s).bind Numeral.toDouble?).map .real

theorem same_refl (n : Number) : n.same n = true := by
  cases n <;> simp [same, Double.same_refl]

end Number
end StackTemplate
