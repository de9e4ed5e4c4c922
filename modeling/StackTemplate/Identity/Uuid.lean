import StackTemplate.Identity.Sha1
import StackTemplate.Text.Hex

/-!
# Universally unique identifiers

A 128-bit identifier, its 32 lower-case hexadecimal digits, and its text, which sets them in
groups of 8, 4, 4, 4 and 12.  `Uuid.named` derives an identifier from a name within
the space of another identifier, by the SHA-1 rule (version 5).  Section 12 of the
specification makes up all identifiers in this way.
-/

namespace StackTemplate

/-- A universally unique identifier. -/
structure Uuid where
  bits : BitVec 128
deriving DecidableEq

namespace Uuid

def nil : Uuid := ⟨0⟩

/-- The sixteen octets, the leading one first. -/
def octets (u : Uuid) : List UInt8 := Sha1.octets 16 u.bits.toNat

/-- The identifier of a name in the space of `space`: the leading 128 bits of the digest of
both, with the version set to 5 and the variant to binary 10. -/
def named (space : Uuid) (name : String) : Uuid :=
  let hash := (Sha1.digest (space.octets ++ name.toUTF8.toList)).extractLsb' 32 128
  let version := (0xF : BitVec 128) <<< 76
  let variant := (0x3 : BitVec 128) <<< 62
  ⟨(hash &&& ~~~version &&& ~~~variant) ||| (0x5 : BitVec 128) <<< 76 |||
    (0x2 : BitVec 128) <<< 62⟩

/-- The 32 hexadecimal digits. -/
def digits (u : Uuid) : List Char :=
  let ds := Nat.toDigits 16 u.bits.toNat
  List.replicate (32 - ds.length) '0' ++ ds

/-- The digits in groups of 8, 4, 4, 4 and 12, separated by hyphens. -/
def text (u : Uuid) : String :=
  let ds := u.digits
  "-".intercalate ([(0, 8), (8, 4), (12, 4), (16, 4), (20, 12)].map fun (start, count) =>
    String.ofList ((ds.drop start).take count))

/-- Reads 32 hexadecimal digits of either case, with or without the four hyphens. -/
def read? (s : String) : Option Uuid :=
  let cs := s.toList
  let grouped := cs.length == 36 && [8, 13, 18, 23].all fun i => cs[i]? == some '-'
  let ds := if grouped then cs.filter (· != '-') else cs
  if ds.length = 32 then
    (ds.mapM Text.hexDigit?).map fun ns => ⟨BitVec.ofNat 128 (ns.foldl (fun n d => 16 * n + d) 0)⟩
  else none

end Uuid
end StackTemplate
