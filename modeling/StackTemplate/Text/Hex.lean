/-!
# Hexadecimal digits

The value of a hexadecimal digit, in either case.  Core's `Nat.digitChar` writes the lower
case.
-/

namespace StackTemplate
namespace Text

/-- The value of a hexadecimal digit of either case. -/
def hexDigit? (c : Char) : Option Nat :=
  if c.isDigit then some (c.toNat - '0'.toNat)
  else if 'a' ≤ c && c ≤ 'f' then some (c.toNat - 'a'.toNat + 10)
  else if 'A' ≤ c && c ≤ 'F' then some (c.toNat - 'A'.toNat + 10)
  else none

end Text
end StackTemplate
