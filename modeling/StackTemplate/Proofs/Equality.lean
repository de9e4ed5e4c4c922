import Mathlib.Algebra.Order.Field.Rat
import Mathlib.Algebra.Order.Field.Power
import Mathlib.Data.List.Perm.Subperm
import Mathlib.Tactic.NormNum
import Mathlib.Tactic.Positivity
import StackTemplate.Proofs.Reordered

/-!
# The comparison of values is structural equality

`Value.same` compares by a test that is not symmetric to look at: two mappings must have as many
entries, and each entry of the first must have its counterpart in the second.  `Value.Equals` is the
relation that is meant, with the same keys on both sides and no word about their order, and with
numbers of one kind compared by what they are worth.  It is an equivalence and a congruence, and so
it is an equality.

The test decides it where no mapping repeats a key: then the counterparts of the entries are all
there is.

* `Double.same_iff_toRat_eq`: doubles compare equal if they are the same rational number.
* `Value.same_iff_equals`: the test decides structural equality.
* `Equals.of_replaces`: a part may be replaced by an equal one.
-/

namespace StackTemplate

/-! ## 1. What a double is worth -/

namespace Double

/-- The magnitude of a number, exactly. -/
def magnitude (x : Double) : ℚ := x.significand * 2 ^ x.scale

/-- The exact value of a number. -/
def toRat (x : Double) : ℚ := if x.negative then -x.magnitude else x.magnitude

/-- A code counts the runs before it and its place in its own run. -/
theorem code_eq (x : Double) :
    x.code = (max 1 (x.code / run) - 1) * run + x.significand := by
  unfold significand
  split
  · next h => simp [Nat.div_eq_of_lt h]
  · next h =>
    have hdiv : 1 ≤ x.code / run := (Nat.one_le_div_iff (by decide)).mpr (Nat.le_of_not_lt h)
    obtain ⟨k, hk⟩ := Nat.exists_eq_add_of_le' hdiv
    calc
      x.code = run * (x.code / run) + x.code % run := (Nat.div_add_mod _ _).symm
      _ = k * run + (run + x.code % run) := by rw [hk, Nat.mul_succ, Nat.mul_comm, Nat.add_assoc]
      _ = (max 1 (x.code / run) - 1) * run + (run + x.code % run) := by
        rw [max_eq_right hdiv, hk, Nat.add_sub_cancel]

theorem significand_lt (x : Double) : x.significand < 2 * run := by
  have hmod : x.code % run < run := Nat.mod_lt _ (by decide)
  unfold significand
  split <;> omega

theorem run_le_significand {x : Double} (h : 1 < max 1 (x.code / run)) : run ≤ x.significand := by
  unfold significand
  split
  · next hlt =>
    rw [Nat.div_eq_of_lt hlt] at h
    omega
  · exact Nat.le_add_right _ _

/-- Of two equal magnitudes the one with the smaller scale has the same scale, because it would have
too large a significand. -/
theorem code_eq_of_magnitude_eq {x y : Double} (hle : x.scale ≤ y.scale)
    (h : x.magnitude = y.magnitude) : x.code = y.code := by
  obtain ⟨d, hd⟩ := Int.exists_add_of_le hle
  have hsignificand : x.significand = y.significand * 2 ^ d := by
    have hpow : (2 : ℚ) ^ x.scale ≠ 0 := zpow_ne_zero _ (by norm_num)
    have hrat : (x.significand : ℚ) * 2 ^ x.scale = (y.significand * 2 ^ d : ℚ) * 2 ^ x.scale := by
      rw [magnitude, magnitude, hd, zpow_add₀ (by norm_num), zpow_natCast] at h
      rw [h, mul_assoc, mul_comm (2 ^ d : ℚ)]
    exact_mod_cast mul_right_cancel₀ hpow hrat
  unfold scale at hd
  rcases Nat.eq_zero_or_pos d with rfl | hpos
  · have hmax : max 1 (x.code / run) = max 1 (y.code / run) := by omega
    rw [x.code_eq, y.code_eq, hmax, hsignificand, Nat.pow_zero, Nat.mul_one]
  · have hlarge : run ≤ y.significand := run_le_significand (by omega)
    have hdouble : y.significand * 2 ≤ x.significand := by
      rw [hsignificand]
      exact Nat.mul_le_mul_left _ (Nat.le_self_pow hpos.ne' 2)
    have hsmall := x.significand_lt
    omega

theorem magnitude_eq_iff {x y : Double} : x.magnitude = y.magnitude ↔ x.code = y.code := by
  constructor
  · intro h
    rcases le_total x.scale y.scale with hle | hle
    · exact code_eq_of_magnitude_eq hle h
    · exact (code_eq_of_magnitude_eq hle h.symm).symm
  · intro h
    simp only [magnitude, significand, scale, h]

theorem magnitude_eq_zero_iff {x : Double} : x.magnitude = 0 ↔ x.code = 0 := by
  have hzero : (zero false).magnitude = 0 := by simp [magnitude, significand, zero]
  rw [← hzero, magnitude_eq_iff, zero]

theorem abs_toRat (x : Double) : |x.toRat| = x.magnitude := by
  have hnonneg : 0 ≤ x.magnitude := by
    unfold magnitude
    positivity
  unfold toRat
  split
  · rw [abs_neg, abs_of_nonneg hnonneg]
  · rw [abs_of_nonneg hnonneg]

/-- **Numbers compare equal exactly if they have the same value.** -/
theorem same_iff_toRat_eq {x y : Double} : x.same y = true ↔ x.toRat = y.toRat := by
  simp only [same, Bool.and_eq_true, Bool.or_eq_true, beq_iff_eq]
  constructor
  · rintro ⟨hcode, hzero | hsign⟩
    · rw [← magnitude_eq_iff] at hcode
      rw [← magnitude_eq_zero_iff] at hzero
      simp [toRat, ← hcode, hzero]
    · rw [toRat, toRat, hsign, magnitude_eq_iff.mpr hcode]
  · intro h
    have hmagnitude : x.magnitude = y.magnitude := by
      rw [← abs_toRat, h, abs_toRat]
    refine ⟨magnitude_eq_iff.mp hmagnitude, ?_⟩
    rw [or_iff_not_imp_left, ← magnitude_eq_zero_iff]
    intro hzero
    by_contra hsign
    -- of two opposite numbers with the same magnitude both are zero
    refine hzero (self_eq_neg.mp ?_)
    rw [toRat, toRat, ← hmagnitude] at h
    cases hy : y.negative with
    | true => simpa [hy, Bool.eq_false_of_not_eq_true (hy ▸ hsign)] using h
    | false => simpa [hy, Bool.eq_true_of_not_eq_false (hy ▸ hsign)] using h.symm

end Double

/-! ## 2. Structural equality -/

/-- A relation is transitive between lists if it is so at the items of the first list. -/
theorem forall₂_trans_of_mem {α : Type} {R : α → α → Prop} {a b c : List α}
    (hab : List.Forall₂ R a b) (hbc : List.Forall₂ R b c)
    (hR : ∀ x ∈ a, ∀ y z, R x y → R y z → R x z) : List.Forall₂ R a c := by
  induction hab generalizing c with
  | nil => exact hbc
  | cons hxy _ ih =>
    cases hbc with
    | cons hyz hbc =>
      obtain ⟨hhead, hrest⟩ := List.forall_mem_cons.mp hR
      exact .cons (hhead _ _ hxy hyz) (ih hbc hrest)

namespace Value

/-- **Structural equality.**  Values are equal if they are of one kind and are the same boolean or
the same text, whole numbers of the same value or doubles of the same value, lists with equal items
one by one, or mappings with the same keys and equal values under each key. -/
inductive Equals : Value → Value → Prop
  | null : Equals .null .null
  | boolean (b : Bool) : Equals (.boolean b) (.boolean b)
  | integer (i : Int) (h : Number.IsWord i) :
      Equals (.number (.integer i h)) (.number (.integer i h))
  | real {x y : Double} (h : x.toRat = y.toRat) : Equals (.number (.real x)) (.number (.real y))
  | string (s : String) : Equals (.string s) (.string s)
  | list {a b : List Value} (hitems : List.Forall₂ Equals a b) : Equals (.list a) (.list b)
  | mapping {a b : Entries} (hkeys : ∀ key, key ∈ a.map Prod.fst ↔ key ∈ b.map Prod.fst)
      (hvalues : ∀ key v w, a.lookup key = some v → b.lookup key = some w → Equals v w) :
      Equals (.mapping a) (.mapping b)

variable {u u' v v' w : Value}

theorem equals_number_iff {m n : Number} :
    Equals (.number m) (.number n) ↔ m.same n = true := by
  constructor
  · intro h
    cases h with
    | integer i h => exact Number.same_refl _
    | real h => exact Double.same_iff_toRat_eq.mpr h
  · intro h
    cases m with
    | integer i hi =>
      cases n with
      | integer j hj =>
        obtain rfl : i = j := by simpa [Number.same] using h
        exact .integer i hi
      | real y => cases h
    | real x =>
      cases n with
      | integer j hj => cases h
      | real y => exact .real (Double.same_iff_toRat_eq.mp h)

theorem Equals.refl (v : Value) : v.Equals v := by
  induction v using Value.induct with
  | null => exact .null
  | boolean b => exact .boolean b
  | number n => exact equals_number_iff.mpr n.same_refl
  | string s => exact .string s
  | list items ih => exact .list (List.forall₂_same.mpr ih)
  | mapping entries ih =>
    refine .mapping (fun _ => Iff.rfl) ?_
    intro key v w hv hw
    obtain rfl : v = w := Option.some.inj (hv.symm.trans hw)
    exact ih _ (mem_of_lookup hv)

theorem Equals.symm (h : v.Equals w) : w.Equals v := by
  induction v using Value.induct generalizing w with
  | null | boolean | string =>
    cases h
    exact .refl _
  | number m =>
    cases h with
    | integer i hi => exact .integer i hi
    | real h => exact .real h.symm
  | list items ih =>
    cases h with
    | list hitems =>
      exact .list (List.Forall₂.flip (forall₂_imp_of_mem hitems fun u hu _ huw => ih u hu huw))
  | mapping entries ih =>
    cases h with
    | mapping hkeys hvalues =>
      refine .mapping (fun key => (hkeys key).symm) ?_
      intro key v w hv hw
      exact ih _ (mem_of_lookup hw) (hvalues key w v hw hv)

theorem Equals.trans (huv : u.Equals v) (hvw : v.Equals w) : u.Equals w := by
  induction u using Value.induct generalizing v w with
  | null | boolean | string =>
    cases huv
    exact hvw
  | number m =>
    cases huv with
    | integer i hi => exact hvw
    | real h =>
      cases hvw with
      | real h' => exact .real (h.trans h')
  | list items ih =>
    cases huv with
    | list hitems =>
      cases hvw with
      | list hothers =>
        exact .list (forall₂_trans_of_mem hitems hothers fun u hu _ _ h h' => ih u hu h h')
  | mapping entries ih =>
    cases huv with
    | mapping hkeys hvalues =>
      cases hvw with
      | mapping hkeys' hvalues' =>
        refine .mapping (fun key => (hkeys key).trans (hkeys' key)) ?_
        intro key x z hx hz
        obtain ⟨y, hy⟩ := exists_lookup ((hkeys key).mp (mem_keys_of_lookup hx))
        exact ih _ (mem_of_lookup hx) (hvalues key x y hx hy) (hvalues' key y z hy hz)

theorem equals_equivalence : Equivalence Equals := ⟨.refl, .symm, .trans⟩

/-! ## 3. The test -/

/-- Keys of which none is repeated, as many as there are on the other side and all found there, are
the keys on the other side. -/
theorem perm_keys_of_subset {a b : Entries} (hkeys : (a.map Prod.fst).Nodup)
    (hlength : a.length = b.length) (h : a.map Prod.fst ⊆ b.map Prod.fst) :
    (a.map Prod.fst).Perm (b.map Prod.fst) := by
  refine (List.subperm_of_subset hkeys h).perm_of_length_le ?_
  simp [hlength]

theorem equals_of_same (hv : v.WellKeyed) (h : v.same w = true) : v.Equals w := by
  induction v using Value.induct generalizing w with
  | null =>
    cases w with
    | null => exact .null
    | boolean | number | string | list | mapping => cases h
  | boolean b =>
    cases w with
    | boolean c =>
      obtain rfl : b = c := by simpa [same] using h
      exact .boolean b
    | null | number | string | list | mapping => cases h
  | number m =>
    cases w with
    | number n => exact equals_number_iff.mpr h
    | null | boolean | string | list | mapping => cases h
  | string s =>
    cases w with
    | string t =>
      obtain rfl : s = t := by simpa [same] using h
      exact .string s
    | null | boolean | number | list | mapping => cases h
  | list items ih =>
    cases w with
    | list others =>
      have hitems := wellKeyedItems_iff.mp hv
      rw [same, sameItems_iff] at h
      exact .list (forall₂_imp_of_mem h fun u hu _ hsame => ih u hu (hitems u hu) hsame)
    | null | boolean | number | string | mapping => cases h
  | mapping entries ih =>
    cases w with
    | mapping others =>
      obtain ⟨hkeys, hentries⟩ := hv
      rw [wellKeyedEntries_iff] at hentries
      simp only [same, Bool.and_eq_true, beq_iff_eq, sameEntries_iff] at h
      obtain ⟨hlength, hfound⟩ := h
      have hperm : (entries.map Prod.fst).Perm (others.map Prod.fst) := by
        refine perm_keys_of_subset hkeys hlength fun key hkey => ?_
        obtain ⟨e, he, rfl⟩ := List.mem_map.mp hkey
        obtain ⟨x, hx, -⟩ := hfound e he
        exact mem_keys_of_lookup hx
      refine .mapping (fun key => hperm.mem_iff) ?_
      intro key u x hu hx
      obtain ⟨x', hx', hsame⟩ := hfound _ (mem_of_lookup hu)
      obtain rfl : x' = x := Option.some.inj (hx'.symm.trans hx)
      exact ih _ (mem_of_lookup hu) (hentries _ (mem_of_lookup hu)) hsame
    | null | boolean | number | string | list => cases h

theorem Equals.same (hv : v.WellKeyed) (hw : w.WellKeyed) (h : v.Equals w) : v.same w = true := by
  induction v using Value.induct generalizing w with
  | null =>
    cases h
    rfl
  | boolean b =>
    cases h
    exact beq_self_eq_true b
  | number m =>
    cases w with
    | number n => exact equals_number_iff.mp h
    | null | boolean | string | list | mapping => cases h
  | string s =>
    cases h
    exact beq_self_eq_true s
  | list items ih =>
    cases h with
    | @list _ others hothers =>
      have hitems := wellKeyedItems_iff.mp hv
      have hboth : List.Forall₂ (fun x u => x.WellKeyed ∧ u.Equals x) others items :=
        (List.forall₂_and_left _ _).mpr ⟨wellKeyedItems_iff.mp hw, hothers.flip⟩
      rw [Value.same, sameItems_iff]
      exact forall₂_imp_of_mem hboth.flip fun u hu x h => ih u hu (hitems u hu) h.1 h.2
  | mapping entries ih =>
    cases h with
    | @mapping _ others hkeys hvalues =>
      obtain ⟨hnodup, hentries⟩ := hv
      obtain ⟨hnodup', hothers⟩ := hw
      rw [wellKeyedEntries_iff] at hentries hothers
      have hperm := (List.perm_ext_iff_of_nodup hnodup hnodup').mpr hkeys
      simp only [Value.same, Bool.and_eq_true, beq_iff_eq, sameEntries_iff]
      refine ⟨by simpa using hperm.length_eq, fun e he => ?_⟩
      obtain ⟨x, hx⟩ := exists_lookup ((hkeys e.1).mp (List.mem_map_of_mem he))
      have hequals := hvalues e.1 e.2 x (lookup_of_mem hnodup he) hx
      exact ⟨x, hx, ih e he (hentries e he) (hothers _ (mem_of_lookup hx)) hequals⟩

/-- **The test decides structural equality** of values in which no mapping repeats a key. -/
theorem same_iff_equals (hv : v.WellKeyed) (hw : w.WellKeyed) :
    v.same w = true ↔ v.Equals w :=
  ⟨equals_of_same hv, Equals.same hv hw⟩

/-! ## 4. Parts of equal values -/

/-- The second value is the first one with `u'` in the place of one occurrence of `u`, at any
depth. -/
inductive Replaces (u u' : Value) : Value → Value → Prop
  | here : Replaces u u' u u'
  | item (before after : List Value) {v v' : Value} (h : Replaces u u' v v') :
      Replaces u u' (.list (before ++ v :: after)) (.list (before ++ v' :: after))
  | entry (before after : Entries) (key : String) {v v' : Value} (h : Replaces u u' v v') :
      Replaces u u' (.mapping (before ++ (key, v) :: after))
        (.mapping (before ++ (key, v') :: after))

theorem lookup_append_cons (before after : Entries) (key : String) (v : Value) (other : String) :
    (before ++ (key, v) :: after).lookup other =
      (before.lookup other).or (if other = key then some v else after.lookup other) := by
  rw [List.lookup_append, List.lookup_cons]
  by_cases h : other = key
  · simp [h]
  · simp [h, beq_eq_false_iff_ne.mpr h]

/-- **A part may be replaced by an equal one.** -/
theorem Equals.of_replaces (hu : u.Equals u') (h : Replaces u u' v v') : v.Equals v' := by
  have hrefl (items : List Value) : List.Forall₂ Equals items items :=
    List.forall₂_same.mpr fun x _ => .refl x
  induction h with
  | here => exact hu
  | item before after _ ih => exact .list (List.rel_append (hrefl before) (.cons ih (hrefl after)))
  | entry before after key _ ih =>
    refine .mapping (fun other => by simp) ?_
    intro other x x' hx hx'
    rw [lookup_append_cons] at hx hx'
    cases hbefore : before.lookup other with
    | some y =>
      rw [hbefore, Option.some_or] at hx hx'
      obtain rfl : x = x' := Option.some.inj (hx.symm.trans hx')
      exact .refl x
    | none =>
      rw [hbefore, Option.none_or] at hx hx'
      split at hx
      · next hkey =>
        rw [if_pos hkey] at hx'
        obtain rfl := Option.some.inj hx
        obtain rfl := Option.some.inj hx'
        exact ih
      · next hkey =>
        rw [if_neg hkey, hx] at hx'
        obtain rfl : x = x' := Option.some.inj hx'
        exact .refl x

end Value

end StackTemplate
