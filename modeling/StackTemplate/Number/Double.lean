/-!
# Finite numbers of double precision

A `Double` is a sign and a code.  The code counts the representable magnitudes from zero
upwards: code 0 is zero, code 1 is `2 ^ (-1074)`, and the next code is always the next larger
magnitude.  Codes below `2 ^ 52` are spaced by `2 ^ (-1074)`; from there on each run of
`2 ^ 52` codes covers one power of two.  There is no infinity and no indeterminate value, so
the comparison below is an equivalence.

`Double.ofRatio?` rounds a quotient of whole numbers to the nearest magnitude, a tie to the
even code, and gives `none` where the nearest one would be out of range.
-/

namespace StackTemplate

/-- The number of codes in one run, which is also the least significand of a normal
number. -/
abbrev Double.run : Nat := 1 <<< 52

/-- The first code that stands for no finite number. -/
abbrev Double.codeBound : Nat := 2047 * Double.run

/-- A finite number of double precision. -/
structure Double where
  negative : Bool
  code : Nat
  code_lt : code < Double.codeBound

namespace Double

/-- Zero with the given sign. -/
def zero (negative : Bool) : Double := ⟨negative, 0, by decide⟩

/-- The whole number `m` in the magnitude `m * 2 ^ scale`. -/
def significand (x : Double) : Nat :=
  if x.code < run then x.code else run + x.code % run

/-- The power of two in the magnitude `significand * 2 ^ scale`. -/
def scale (x : Double) : Int := max 1 (x.code / run : Nat) - 1075

/-- Two numbers compare equal: the magnitudes agree, and the signs agree unless both are
zero. -/
def same (x y : Double) : Bool :=
  x.code == y.code && (x.code == 0 || x.negative == y.negative)

theorem same_refl (x : Double) : x.same x = true := by simp [same]

/-! ## Rounding -/

/-- The whole number nearest to `num / den`; a tie goes to the even one. -/
def roundDiv (num den : Nat) : Nat :=
  let q := num / den
  let twice := 2 * (num % den)
  if twice < den then q
  else if den < twice then q + 1
  else q + q % 2

/-- The power of two at or below `num / den`, for positive `num` and `den`. -/
def floorLog (num den : Nat) : Int :=
  let k : Int := (num.log2 : Int) - den.log2
  let reached := if 0 ≤ k then den <<< k.toNat ≤ num else den ≤ num <<< (-k).toNat
  if reached then k else k - 1

/-- The number nearest to `num / den`, with the given sign; `none` where its magnitude is
out of range. -/
def ofRatio? (negative : Bool) (num den : Nat) : Option Double :=
  if num = 0 then some (zero negative)
  else
    let scale := max (-1074) (floorLog num den - 52)
    let m :=
      if 0 ≤ scale then roundDiv num (den <<< scale.toNat)
      else roundDiv (num <<< (-scale).toNat) den
    let code := (scale + 1074).toNat * run + m
    if h : code < codeBound then some ⟨negative, code, h⟩ else none

end Double
end StackTemplate
