import StackTemplate.Number.Double
import StackTemplate.Text.Decimal

/-!
# Decimal numerals

A numeral is a sign, a run of digits read as a whole number, and a power of ten.
`Numeral.read?` reads

    [+-] digits [ . digits ] [ (e|E) [+-] digits ]

where the digits on one side of the point may be missing, but not on both.

`Numeral.toDouble?` rounds the value once, from the exact decimal.  The power of ten is
looked at first, so a numeral with a huge exponent costs no more than its own digits.
-/

namespace StackTemplate

/-- The number `±digits * 10 ^ exponent`. -/
structure Numeral where
  negative : Bool
  digits : Nat
  exponent : Int
deriving DecidableEq

namespace Numeral

/-- The power of ten after the mark `e` or `E`; zero when there is no mark. -/
def readExponent? : List Char → Option Int
  | [] => some 0
  | c :: s => if c == 'e' || c == 'E' then Text.readInt? s else none

/-- The digits before the point, and what follows them. -/
def readUnsigned? (negative : Bool) (s : List Char) : Option Numeral :=
  let whole := s.takeWhile Char.isDigit
  let rest := s.dropWhile Char.isDigit
  let (fraction, tail) := match rest with
    | '.' :: r => (r.takeWhile Char.isDigit, r.dropWhile Char.isDigit)
    | _ => ([], rest)
  if whole.isEmpty && fraction.isEmpty then none
  else (readExponent? tail).map fun e =>
    { negative
      digits := Nat.ofDigitChars 10 (whole ++ fraction) 0
      exponent := e - fraction.length }

/-- Read a whole text as a numeral. -/
def read? : List Char → Option Numeral
  | '-' :: s => readUnsigned? true s
  | '+' :: s => readUnsigned? false s
  | s => readUnsigned? false s

/-- The finite number nearest to a numeral's value; `none` where it is out of range.

A value of at least `10 ^ 310` is beyond the greatest finite number and one below
`10 ^ (-330)` is nearest to zero; between the two the quotient is formed and rounded. -/
def toDouble? (x : Numeral) : Option Double :=
  let places : Int := (Nat.toDigits 10 x.digits).length + x.exponent
  if x.digits = 0 then some (Double.zero x.negative)
  else if 310 < places then none
  else if places < -330 then some (Double.zero x.negative)
  else if 0 ≤ x.exponent then Double.ofRatio? x.negative (x.digits * Nat.pow 10 x.exponent.toNat) 1
  else Double.ofRatio? x.negative x.digits (Nat.pow 10 (-x.exponent).toNat)

end Numeral
end StackTemplate
