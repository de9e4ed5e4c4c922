/-!
# The SHA-1 digest

The digest that name-based identifiers are made from.  A message is filled up to a whole
number of 64-octet blocks; each block is expanded to 80 words, and 80 rounds mix them into
five chaining words.
-/

namespace StackTemplate
namespace Sha1

/-- The five chaining words. -/
structure Chain where
  a : UInt32
  b : UInt32
  c : UInt32
  d : UInt32
  e : UInt32

def start : Chain := ⟨0x67452301, 0xEFCDAB89, 0x98BADCFE, 0x10325476, 0xC3D2E1F0⟩

/-- Rotation to the left, for `0 < k < 32`. -/
def rotate (x : UInt32) (k : UInt32) : UInt32 := (x <<< k) ||| (x >>> (32 - k))

/-- The big-endian octets of `n`, `count` of them. -/
def octets (count n : Nat) : List UInt8 :=
  (List.range count).map fun k => UInt8.ofNat (n >>> (8 * (count - 1 - k)))

/-- The message with a closing one bit, zeros and its length in bits. -/
def padded (message : List UInt8) : List UInt8 :=
  message ++ 0x80 :: List.replicate ((119 - message.length % 64) % 64) 0 ++
    octets 8 (8 * message.length)

/-- The big-endian word of four octets. -/
def word (a b c d : UInt8) : UInt32 :=
  (a.toUInt32 <<< 24) ||| (b.toUInt32 <<< 16) ||| (c.toUInt32 <<< 8) ||| d.toUInt32

/-- The words of a run of octets. -/
def words : List UInt8 → List UInt32
  | a :: b :: c :: d :: rest => word a b c d :: words rest
  | _ => []

/-- The sixteen words of a block and the sixty-four that follow from them. -/
def schedule (block : List UInt32) : Array UInt32 :=
  (List.range 64).foldl (fun w t =>
    w.push (rotate (w.getD (t + 13) 0 ^^^ w.getD (t + 8) 0 ^^^ w.getD (t + 2) 0 ^^^ w.getD t 0) 1))
    block.toArray

/-- The mixing function and the constant of round `t`. -/
def mix (t : Nat) (b c d : UInt32) : UInt32 × UInt32 :=
  if t < 20 then ((b &&& c) ||| (~~~b &&& d), 0x5A827999)
  else if t < 40 then (b ^^^ c ^^^ d, 0x6ED9EBA1)
  else if t < 60 then ((b &&& c) ||| (b &&& d) ||| (c &&& d), 0x8F1BBCDC)
  else (b ^^^ c ^^^ d, 0xCA62C1D6)

/-- One round with its word of the schedule. -/
def round (h : Chain) (t : Nat) (w : UInt32) : Chain :=
  let (f, k) := mix t h.b h.c h.d
  ⟨rotate h.a 5 + f + h.e + k + w, h.a, rotate h.b 30, h.c, h.d⟩

/-- The chaining words after one block. -/
def compress (h : Chain) (block : List UInt32) : Chain :=
  let w := schedule block
  let r := (List.range 80).foldl (fun r t => round r t (w.getD t 0)) h
  ⟨h.a + r.a, h.b + r.b, h.c + r.c, h.d + r.d, h.e + r.e⟩

/-- The digest of a message as one 160-bit number. -/
def digest (message : List UInt8) : BitVec 160 :=
  let ws := words (padded message)
  let h := (List.range (ws.length / 16)).foldl
    (fun h k => compress h ((ws.drop (16 * k)).take 16)) start
  h.a.toBitVec ++ h.b.toBitVec ++ h.c.toBitVec ++ h.d.toBitVec ++ h.e.toBitVec

/-- The filled-up message consists of whole blocks. -/
theorem length_padded_mod (message : List UInt8) : (padded message).length % 64 = 0 := by
  simp only [padded, octets, List.length_append, List.length_cons, List.length_replicate,
    List.length_map, List.length_range]
  omega

end Sha1
end StackTemplate
