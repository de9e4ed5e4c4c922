import StackTemplate.Value.Basic

/-!
# Structural equality

Two values are the same when they have the same shape and the same scalars.  Lists are
compared item by item; mappings are compared as finite maps, so the order of their keys does
not matter at any level.

This is the equality test of section 4.2 of the specification.

Mappings of equal size are the same as soon as every entry of the first has its counterpart
in the second.  For mappings that repeat no key this is symmetric.
-/

namespace StackTemplate
namespace Value

mutual

/-- Structural equality of two values. -/
def same : Value → Value → Bool
  | .null, .null => true
  | .boolean a, .boolean b => a == b
  | .number a, .number b => a.same b
  | .string a, .string b => a == b
  | .list a, .list b => sameItems a b
  | .mapping a, .mapping b => a.length == b.length && sameEntries a b
  | _, _ => false

/-- Lists of the same length with the same items in the same places. -/
def sameItems : List Value → List Value → Bool
  | [], [] => true
  | v :: a, w :: b => v.same w && sameItems a b
  | _, _ => false

/-- Every entry of the first mapping has the same value under its key in the second. -/
def sameEntries : Entries → Entries → Bool
  | [], _ => true
  | (key, v) :: rest, other =>
    (match other.lookup key with
      | some w => v.same w
      | none => false) && sameEntries rest other

end

theorem sameEntries_iff {entries other : Entries} :
    sameEntries entries other = true ↔
      ∀ e ∈ entries, ∃ w, other.lookup e.1 = some w ∧ e.2.same w = true := by
  induction entries with
  | nil => simp [sameEntries]
  | cons e rest ih =>
    obtain ⟨key, v⟩ := e
    rw [sameEntries, Bool.and_eq_true, ih, List.forall_mem_cons]
    cases other.lookup key <;> simp

end Value
end StackTemplate
