import StackTemplate.Number.Double

/-!
# The shortest decimal of a double

Every decimal in a small interval around a double reads back as that double.
`Double.shortest` takes the coarsest power-of-ten grid with a point in the interval, and of
two such points the nearer one (a tie to the even one).  All tests are comparisons of whole
numbers.

The interval reaches halfway to the neighbouring magnitudes, and its ends belong to it iff
the code is even.  Below a power of two the neighbour is half as far.  If a point of a grid
lies in the interval, so does one of the double's two neighbours on that grid, so it is
enough to look at those two.

`Double.text` lays the digits out: positionally from `10 ^ (-5)` up to below `10 ^ 16`, with
at least one digit on each side of the point, and else with an exponent of explicit sign.
-/

namespace StackTemplate

/-- The decimal `digits * 10 ^ exponent`. -/
structure Decimal where
  digits : Nat
  exponent : Int
deriving DecidableEq

namespace Double

/-! ## 1. The grid search -/

/-- The double and the ends of its interval, as multiples of a common unit that is also the
unit of a grid.  `value / unit` is the double's place on the grid. -/
structure Span where
  low : Nat
  value : Nat
  high : Nat
  unit : Nat
  closed : Bool

/-- The span of `x` on the grid of multiples of `10 ^ exponent`.  The distances to the
neighbours are counted in quarters of the last place. -/
def span (x : Double) (exponent : Int) : Span :=
  let quarter := x.scale - 2
  let factor := Nat.pow 10 (-exponent).toNat <<< quarter.toNat
  let below := if x.significand = run && run < x.code then 1 else 2
  { low := (4 * x.significand - below) * factor
    value := 4 * x.significand * factor
    high := (4 * x.significand + 2) * factor
    unit := Nat.pow 10 exponent.toNat <<< (-quarter).toNat
    closed := x.code % 2 == 0 }

/-- The grid point `n` reads back as the double. -/
def Span.holds (s : Span) (n : Nat) : Bool :=
  let p := n * s.unit
  if s.closed then s.low ≤ p && p ≤ s.high else s.low < p && p < s.high

/-- The grid point in the span that is nearest to the double, a tie to the even one. -/
def Span.nearest? (s : Span) : Option Nat :=
  let n := s.value / s.unit
  let twice := 2 * (s.value % s.unit)
  let upper := s.unit < twice || (twice == s.unit && n % 2 == 1)
  match s.holds n, s.holds (n + 1) with
  | true, true => some (if upper then n + 1 else n)
  | true, false => some n
  | false, true => some (n + 1)
  | false, false => none

/-- A power of ten that is at least as large as the magnitude. -/
def topExponent (x : Double) : Int :=
  (x.scale + x.significand.log2 + 1) * 30103 / 100000 + 1

/-- The shortest decimal that reads back as the magnitude of `x`, the nearest of those.
Seventeen digits always suffice and `topExponent` overshoots by two at most, so twenty grids
are enough. -/
def shortest (x : Double) : Decimal :=
  let found := (List.range 20).findSome? fun (k : Nat) =>
    let exponent := x.topExponent - k
    (x.span exponent).nearest?.map fun n => (⟨n, exponent⟩ : Decimal)
  found.getD ⟨0, 0⟩

/-! ## 2. The layout -/

/-- The exponents of the leading digit for which a decimal is written positionally. -/
def isPositional (leading : Int) : Bool := -5 ≤ leading && leading ≤ 15

/-- A run of `n` zeros. -/
def zeros (n : Nat) : List Char := List.replicate n '0'

/-- The text of a positive decimal. -/
def layout (d : Decimal) : List Char :=
  let ds := Nat.toDigits 10 d.digits
  let leading : Int := d.exponent + ds.length - 1
  if isPositional leading then
    if 0 ≤ d.exponent then ds ++ zeros d.exponent.toNat ++ ['.', '0']
    else if 0 ≤ leading then
      ds.take (leading.toNat + 1) ++ '.' :: ds.drop (leading.toNat + 1)
    else '0' :: '.' :: zeros (-leading - 1).toNat ++ ds
  else
    let point := if ds.length = 1 then [] else '.' :: ds.drop 1
    let sign := if leading < 0 then '-' else '+'
    ds.take 1 ++ point ++ 'e' :: sign :: Nat.toDigits 10 leading.natAbs

/-- The text of a double: the shortest digits that read back, and `-` for a negative sign,
that of zero included. -/
def text (x : Double) : String :=
  let body := if x.code = 0 then ['0', '.', '0'] else layout x.shortest
  String.ofList (if x.negative then '-' :: body else body)

end Double
end StackTemplate
