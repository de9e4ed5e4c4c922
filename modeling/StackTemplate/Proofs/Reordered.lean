import Mathlib.Data.List.Perm.Basic
import StackTemplate.Proofs.CallFree
import StackTemplate.Proofs.Parallel
import StackTemplate.Value.Equality

/-!
# Values up to the order of their keys

The entries of a mapping are written in some order, and two values that differ in nothing else, at
any depth, are the same to whoever looks entries up by their keys.  `Value.Reordered` says that
two values differ in nothing else.

* `Reordered.alike`: such values are alike level by level.
* `Reordered.symm`: it does not matter which of the two comes first.
* `reordered_self_iff`: the relation is about values in which no mapping repeats a key.
* `Reordered.same_eq`: structural equality cannot tell them apart.
* `ofCall?_of_reordered`: one is a call if and only if the other is, of the same function.
-/

namespace StackTemplate

/-! ## 1. Lists of entries -/

section Lists

variable {α β : Type}

theorem lookup_of_mem {entries : List (String × α)} (hkeys : (entries.map Prod.fst).Nodup)
    {key : String} {a : α} (h : (key, a) ∈ entries) : entries.lookup key = some a := by
  obtain ⟨before, after, rfl⟩ := List.append_of_mem h
  refine List.lookup_eq_some_iff.mpr ⟨before, after, rfl, fun e he => ?_⟩
  rw [List.map_append, List.nodup_append] at hkeys
  have hne := hkeys.2.2 e.1 (List.mem_map_of_mem he) key (by simp)
  simpa using Ne.symm hne

theorem exists_lookup {entries : List (String × α)} {key : String}
    (h : key ∈ entries.map Prod.fst) : ∃ a, entries.lookup key = some a := by
  obtain ⟨e, he, rfl⟩ := List.mem_map.mp h
  cases hl : entries.lookup e.1 with
  | some a => exact ⟨a, rfl⟩
  | none => simpa using List.lookup_eq_none_iff.mp hl e he

theorem mem_keys_of_lookup {entries : List (String × α)} {key : String} {a : α}
    (h : entries.lookup key = some a) : key ∈ entries.map Prod.fst :=
  List.mem_map.mpr ⟨(key, a), mem_of_lookup h, rfl⟩

/-- The entries under `keys`, in the order of `keys`. -/
theorem map_lookup_perm {entries : List (String × α)} (hkeys : (entries.map Prod.fst).Nodup)
    {keys : List String} (h : keys.Perm (entries.map Prod.fst)) (default : α) :
    (keys.map fun key => (key, (entries.lookup key).getD default)).Perm entries := by
  have hself : (entries.map Prod.fst).map (fun key => (key, (entries.lookup key).getD default)) =
      entries := by
    rw [List.map_map]
    refine (List.map_congr_left fun e he => ?_).trans (List.map_id entries)
    rw [Function.comp, lookup_of_mem hkeys he]
    rfl
  have hperm := h.map fun key => (key, (entries.lookup key).getD default)
  rwa [hself] at hperm

/-- A relation between lists may be replaced by one that it implies for their items. -/
theorem forall₂_imp_of_mem {R S : α → β → Prop} {l : List α} {l' : List β}
    (h : List.Forall₂ R l l') (hRS : ∀ a ∈ l, ∀ b, R a b → S a b) : List.Forall₂ S l l' := by
  induction h with
  | nil => exact .nil
  | cons hab _ ih =>
    obtain ⟨hhead, hrest⟩ := List.forall_mem_cons.mp hRS
    exact .cons (hhead _ hab) (ih hrest)

theorem exists_of_mem_left {R : α → β → Prop} {l : List α} {l' : List β}
    (h : List.Forall₂ R l l') {a : α} (ha : a ∈ l) : ∃ b ∈ l', R a b := by
  induction h with
  | nil => cases ha
  | cons hab _ ih =>
    rcases List.mem_cons.mp ha with rfl | ha
    · exact ⟨_, List.mem_cons_self, hab⟩
    · obtain ⟨b, hb, hR⟩ := ih ha
      exact ⟨b, List.mem_cons_of_mem _ hb, hR⟩

theorem exists_of_mem_right {R : α → β → Prop} {l : List α} {l' : List β}
    (h : List.Forall₂ R l l') {b : β} (hb : b ∈ l') : ∃ a ∈ l, R a b :=
  exists_of_mem_left (List.Forall₂.flip h) hb

theorem map_fst_eq {l : List (String × α)} {l' : List (String × β)}
    (h : List.Forall₂ (fun a b => b.1 = a.1) l l') : l'.map Prod.fst = l.map Prod.fst := by
  induction h with
  | nil => rfl
  | cons hab _ ih => rw [List.map_cons, List.map_cons, hab, ih]

theorem exists_of_rel_some {R : α → β → Prop} {x : Option α} {b : β}
    (h : Option.Rel R x (some b)) : ∃ a, x = some a ∧ R a b := by
  cases h with
  | some hab => exact ⟨_, rfl, hab⟩

theorem rel_bind {γ δ : Type} {R : α → β → Prop} {S : γ → δ → Prop} {x : Option α} {y : Option β}
    {f : α → Option γ} {g : β → Option δ} (h : Option.Rel R x y)
    (hf : ∀ a b, R a b → Option.Rel S (f a) (g b)) : Option.Rel S (x.bind f) (y.bind g) := by
  cases h with
  | none => exact .none
  | some hab => exact hf _ _ hab

end Lists

namespace Value

/-! ## 2. The relation -/

mutual

/-- **The values differ in the order of keys alone**, at any depth.  Mappings have the same keys,
each once, and under each key values that differ in the order of keys alone. -/
def Reordered : Value → Value → Prop
  | .null, .null => True
  | .boolean a, .boolean b => a = b
  | .number a, .number b => a = b
  | .string a, .string b => a = b
  | .list a, .list b => ReorderedItems a b
  | .mapping a, .mapping b =>
    (a.map Prod.fst).Nodup ∧ (a.map Prod.fst).Perm (b.map Prod.fst) ∧ ReorderedEntries a b
  | _, _ => False

def ReorderedItems : List Value → List Value → Prop
  | [], [] => True
  | v :: a, w :: b => v.Reordered w ∧ ReorderedItems a b
  | _, _ => False

def ReorderedEntries : Entries → Entries → Prop
  | [], _ => True
  | (key, v) :: rest, other =>
    (∃ w, other.lookup key = some w ∧ v.Reordered w) ∧ ReorderedEntries rest other

end

theorem reorderedItems_iff {a b : List Value} :
    ReorderedItems a b ↔ List.Forall₂ Reordered a b := by
  induction a generalizing b with
  | nil => cases b <;> simp [ReorderedItems]
  | cons v rest ih => cases b <;> simp [ReorderedItems, ih]

theorem reorderedEntries_iff {a b : Entries} :
    ReorderedEntries a b ↔ ∀ e ∈ a, ∃ w, b.lookup e.1 = some w ∧ e.2.Reordered w := by
  induction a with
  | nil => simp [ReorderedEntries]
  | cons e rest ih => simp [ReorderedEntries, ih]

theorem reordered_list_iff {a b : List Value} :
    (Value.list a).Reordered (.list b) ↔ List.Forall₂ Reordered a b :=
  reorderedItems_iff

theorem reordered_mapping_iff {a b : Entries} :
    (Value.mapping a).Reordered (.mapping b) ↔
      (a.map Prod.fst).Nodup ∧ (a.map Prod.fst).Perm (b.map Prod.fst) ∧
        ∀ e ∈ a, ∃ w, b.lookup e.1 = some w ∧ e.2.Reordered w := by
  rw [Reordered, reorderedEntries_iff]

variable {v w : Value}

/-- Values that differ in the order of keys are alike level by level. -/
theorem Reordered.alike (h : v.Reordered w) : v.Alike Reordered w := by
  cases v with
  | null =>
    cases w with
    | null => exact .null
    | boolean | number | string | list | mapping => exact False.elim h
  | boolean a =>
    cases w with
    | boolean b =>
      obtain rfl : a = b := h
      exact .boolean a
    | null | number | string | list | mapping => exact False.elim h
  | number a =>
    cases w with
    | number b =>
      obtain rfl : a = b := h
      exact .number a
    | null | boolean | string | list | mapping => exact False.elim h
  | string a =>
    cases w with
    | string b =>
      obtain rfl : a = b := h
      exact .string a
    | null | boolean | number | list | mapping => exact False.elim h
  | list a =>
    cases w with
    | list b => exact .list (reordered_list_iff.mp h)
    | null | boolean | number | string | mapping => exact False.elim h
  | mapping a =>
    cases w with
    | mapping b =>
      obtain ⟨-, hperm, hentries⟩ := reordered_mapping_iff.mp h
      refine .mapping (by simpa using hperm.length_eq.symm) fun key => ?_
      cases hkey : a.lookup key with
      | some v =>
        obtain ⟨w, hw, hvw⟩ := hentries _ (mem_of_lookup hkey)
        rw [hw]
        exact .some hvw
      | none =>
        cases hkey' : b.lookup key with
        | none => exact .none
        | some w =>
          obtain ⟨v, hv⟩ := exists_lookup (hperm.mem_iff.mpr (mem_keys_of_lookup hkey'))
          cases hkey.symm.trans hv
    | null | boolean | number | string | list => exact False.elim h

/-- **What it is to write the keys in another order**: the values stay under their keys, each with
its own keys in another order, and then the entries change places. -/
theorem reordered_mapping_iff_perm {a b : Entries} :
    (Value.mapping a).Reordered (.mapping b) ↔ (a.map Prod.fst).Nodup ∧
      ∃ entries : Entries, entries.Perm b ∧
        List.Forall₂ (fun e e' => e'.1 = e.1 ∧ e.2.Reordered e'.2) a entries := by
  rw [reordered_mapping_iff]
  refine and_congr_right fun hkeys => ⟨fun ⟨hperm, hentries⟩ => ?_, fun ⟨entries, hperm, h⟩ => ?_⟩
  · have hkeys' : (b.map Prod.fst).Nodup := hperm.nodup_iff.mp hkeys
    refine ⟨_, map_lookup_perm hkeys' hperm .null, ?_⟩
    rw [List.map_map, List.forall₂_map_right_iff, List.forall₂_same]
    intro e he
    obtain ⟨w, hw, hvw⟩ := hentries e he
    rw [Function.comp, hw]
    exact ⟨rfl, hvw⟩
  · have hfst : entries.map Prod.fst = a.map Prod.fst := map_fst_eq (h.imp fun _ _ h => h.1)
    have hkeys' : (b.map Prod.fst).Nodup := by
      rw [← (hperm.map Prod.fst).nodup_iff, hfst]
      exact hkeys
    refine ⟨by rw [← hfst]; exact hperm.map Prod.fst, fun e he => ?_⟩
    obtain ⟨e', he', hkey, hvalue⟩ := exists_of_mem_left h he
    refine ⟨e'.2, lookup_of_mem hkeys' ?_, hvalue⟩
    rw [← hkey]
    exact hperm.mem_iff.mp he'

/-- Values may be replaced under their keys, in both orders. -/
theorem Reordered.replace {S T : Value → Value → Prop} {a b results results' : Entries}
    (h : (Value.mapping a).Reordered (.mapping b))
    (ha : List.Forall₂ (fun e x => x.1 = e.1 ∧ S e.2 x.2) a results)
    (hb : List.Forall₂ (fun e x => x.1 = e.1 ∧ T e.2 x.2) b results')
    (hST : ∀ v v' w w', v.Reordered v' → S v w → T v' w' → w.Reordered w') :
    (Value.mapping results).Reordered (.mapping results') := by
  obtain ⟨hkeys, hperm, hentries⟩ := reordered_mapping_iff.mp h
  have hfst : results.map Prod.fst = a.map Prod.fst := map_fst_eq (ha.imp fun _ _ h => h.1)
  have hfst' : results'.map Prod.fst = b.map Prod.fst := map_fst_eq (hb.imp fun _ _ h => h.1)
  rw [reordered_mapping_iff, hfst, hfst']
  refine ⟨hkeys, hperm, fun x hx => ?_⟩
  -- `x` comes from `e`, which has its counterpart under the same key of `b`
  obtain ⟨e, he, hxe, hS⟩ := exists_of_mem_right ha hx
  obtain ⟨v', hv', hev'⟩ := hentries e he
  obtain ⟨⟨key, w'⟩, hx', rfl, hT⟩ := exists_of_mem_left hb (mem_of_lookup hv')
  rw [hxe]
  refine ⟨w', lookup_of_mem ?_ hx', hST _ _ _ _ hev' hS hT⟩
  rw [hfst']
  exact hperm.nodup_iff.mp hkeys

/-- Scalars and lists that are alike differ in the order of keys alone. -/
theorem reordered_of_alike (hv : v.kind ≠ .mapping) (h : v.Alike Reordered w) :
    v.Reordered w := by
  cases h with
  | null => exact trivial
  | boolean | number | string => exact rfl
  | list h => exact reordered_list_iff.mpr h
  | mapping _ _ => exact absurd rfl hv

theorem Reordered.symm (h : v.Reordered w) : w.Reordered v := by
  induction v using Value.induct generalizing w with
  | null | boolean | number | string =>
    cases h.alike
    exact h
  | list items ih =>
    cases h.alike with
    | list hitems =>
      refine reordered_list_iff.mpr (List.Forall₂.flip ?_)
      exact forall₂_imp_of_mem hitems fun u hu _ huw => ih u hu huw
  | mapping entries ih =>
    cases h.alike with
    | @mapping _ entries' _ hlookup =>
      obtain ⟨hkeys, hperm, -⟩ := reordered_mapping_iff.mp h
      refine reordered_mapping_iff.mpr ⟨hperm.nodup_iff.mp hkeys, hperm.symm, ?_⟩
      rintro ⟨key, u'⟩ he'
      have hkey := hlookup key
      rw [lookup_of_mem (hperm.nodup_iff.mp hkeys) he'] at hkey
      cases hu : entries.lookup key with
      | none =>
        rw [hu] at hkey
        cases hkey
      | some u =>
        rw [hu] at hkey
        cases hkey with
        | some huu' => exact ⟨u, rfl, ih _ (mem_of_lookup hu) huu'⟩

/-- A value is among those that differ from it in the order of keys if and only if no mapping in
it repeats a key. -/
theorem reordered_self_iff : v.Reordered v ↔ v.WellKeyed := by
  induction v using Value.induct with
  | null | boolean | number | string => simp [Reordered, WellKeyed]
  | list items ih =>
    rw [reordered_list_iff, List.forall₂_same, WellKeyed, wellKeyedItems_iff]
    exact forall₂_congr ih
  | mapping entries ih =>
    rw [reordered_mapping_iff, WellKeyed, wellKeyedEntries_iff]
    refine and_congr_right fun hkeys => ?_
    rw [and_iff_right (List.Perm.refl _)]
    refine forall₂_congr fun e he => ?_
    rw [lookup_of_mem hkeys he, ← ih e he]
    simp

/-- A value without mappings is the only one that differs from it in the order of keys. -/
theorem Reordered.eq_of_no_mapping (h : v.Reordered w)
    (hv : ∀ entries, ¬ v.Contains (.mapping entries)) : v = w := by
  induction v using Value.induct generalizing w with
  | null | boolean | number | string =>
    cases h.alike
    rfl
  | list items ih =>
    cases h.alike with
    | list hitems =>
      refine congrArg Value.list (List.forall₂_eq_eq_eq ▸ ?_)
      refine forall₂_imp_of_mem hitems fun u hu _ huw => ih u hu huw fun entries hc => ?_
      exact hv entries (.item hu hc)
  | mapping entries _ => exact absurd (.self _) (hv entries)

/-! ## 3. What cannot tell them apart -/

theorem Reordered.get? (h : v.Reordered w) (key : String) :
    Option.Rel Reordered (v.get? key) (w.get? key) := by
  cases h.alike with
  | mapping _ hlookup => exact hlookup key
  | null | boolean | number | string | list => exact .none

theorem Reordered.getString?_eq (h : v.Reordered w) (key : String) :
    w.getString? key = v.getString? key := by
  unfold getString?
  have hkey := h.get? key
  generalize v.get? key = found, w.get? key = found' at hkey
  cases hkey with
  | none => rfl
  | some huw => cases huw.alike <;> rfl

theorem sameItems_iff {a b : List Value} :
    sameItems a b = true ↔ List.Forall₂ (fun v w => v.same w = true) a b := by
  induction a generalizing b with
  | nil => cases b <;> simp [sameItems]
  | cons v rest ih => cases b <;> simp [sameItems, ih]

/-- Replacing the items of two lists that are the same, one by one. -/
theorem sameItems_of_forall₂ {R : Value → Value → Prop} {a a' b b' : List Value}
    (hR : ∀ v ∈ a, ∀ v' w w', R v v' → R w w' → v.same w = true → v'.same w' = true)
    (ha : List.Forall₂ R a a') (hb : List.Forall₂ R b b')
    (h : sameItems a b = true) : sameItems a' b' = true := by
  rw [sameItems_iff] at h ⊢
  induction h generalizing a' b' with
  | nil =>
    cases ha
    cases hb
    exact .nil
  | cons hvw _ ih =>
    cases ha with
    | cons hv ha =>
      cases hb with
      | cons hw hb =>
        obtain ⟨hhead, hrest⟩ := List.forall_mem_cons.mp hR
        exact .cons (hhead _ _ _ hv hw hvw) (ih hrest ha hb)

theorem same_of_reordered {v' w' : Value} (hv : v.Reordered v') (hw : w.Reordered w')
    (h : v.same w = true) : v'.same w' = true := by
  induction v using Value.induct generalizing v' w w' with
  | null | boolean | number | string =>
    cases hv.alike
    cases hw.alike <;> exact h
  | list items ih =>
    cases hv.alike with
    | list hitems =>
      cases hw.alike with
      | list hothers =>
        exact sameItems_of_forall₂ (fun u hu _ _ _ h h' => ih u hu h h') hitems hothers h
      | null | boolean | number | string | mapping => exact h
  | mapping entries ih =>
    cases hv.alike with
    | @mapping _ entries' hlength hlookup =>
      cases hw.alike with
      | @mapping others others' hlength' hlookup' =>
        simp only [same, Bool.and_eq_true, beq_iff_eq, sameEntries_iff] at h ⊢
        refine ⟨by omega, ?_⟩
        rintro ⟨key, u'⟩ he'
        -- the entry comes from one of `entries`, which has its counterpart in `others`
        obtain ⟨u, hu, huu'⟩ := (reordered_mapping_iff.mp hv.symm).2.2 _ he'
        obtain ⟨x, hx, hux⟩ := h.2 _ (mem_of_lookup hu)
        obtain ⟨x', hx', hxx'⟩ := (reordered_mapping_iff.mp hw).2.2 _ (mem_of_lookup hx)
        exact ⟨x', hx', ih _ (mem_of_lookup hu) huu'.symm hxx' hux⟩
      | null | boolean | number | string | list => exact h

/-- Structural equality does not see the order of keys, on either side. -/
theorem Reordered.same_eq {v' w' : Value} (hv : v.Reordered v') (hw : w.Reordered w') :
    v'.same w' = v.same w := by
  rw [Bool.eq_iff_iff]
  exact ⟨same_of_reordered hv.symm hw.symm, same_of_reordered hv hw⟩

/-- A mapping of one entry has one order only. -/
theorem Reordered.single {key : String} {arg : Value} {entries : Entries}
    (h : (Value.mapping [(key, arg)]).Reordered (.mapping entries)) :
    ∃ arg', entries = [(key, arg')] ∧ arg.Reordered arg' := by
  obtain ⟨-, hperm, hentries⟩ := reordered_mapping_iff.mp h
  obtain ⟨arg', hlookup, harg⟩ := hentries (key, arg) (by simp)
  obtain ⟨e, rfl⟩ := List.length_eq_one_iff.mp (by simpa using hperm.length_eq.symm)
  obtain rfl : (key, arg') = e := by simpa using mem_of_lookup hlookup
  exact ⟨arg', rfl, harg⟩

end Value

namespace Intrinsic

open Value (Reordered)

theorem claims_eq_of_reordered (f : Intrinsic) {arg arg' : Value} (h : arg.Reordered arg') :
    f.claims arg' = f.claims arg := by
  cases f with
  | condition =>
    cases h.alike with
    | @mapping entries entries' hlength _ =>
      rcases entries with _ | ⟨⟨key, v⟩, _ | ⟨_, _⟩⟩
      · obtain rfl := List.length_eq_zero_iff.mp hlength
        rfl
      · obtain ⟨v', rfl, -⟩ := h.single
        rfl
      · rcases entries' with _ | ⟨_, _ | ⟨_, _⟩⟩
        · cases hlength
        · cases hlength
        · rfl
    | null | boolean | number | string | list => rfl
  | ref | getAtt | findInMap | join | select | split | sub | base64 | getAzs | importValue | equals
  | and | or | not | ifElse => rfl

/-- **A mapping is a call if and only if it is one in another order**, of the same function. -/
theorem ofCall?_of_reordered {entries entries' : Entries}
    (h : (Value.mapping entries).Reordered (.mapping entries')) :
    Option.Rel (fun call call' => call'.1 = call.1 ∧ call.2.Reordered call'.2)
      (ofCall? entries) (ofCall? entries') := by
  cases hc : ofCall? entries with
  | some call =>
    obtain ⟨f, arg⟩ := call
    obtain ⟨rfl, hclaims⟩ := ofCall?_eq_some_iff.mp hc
    obtain ⟨arg', rfl, harg⟩ := h.single
    rw [ofCall?_eq_some_iff.mpr ⟨rfl, (f.claims_eq_of_reordered harg).trans hclaims⟩]
    exact .some ⟨rfl, harg⟩
  | none =>
    cases hc' : ofCall? entries' with
    | none => exact .none
    | some call =>
      obtain ⟨f, arg'⟩ := call
      obtain ⟨rfl, hclaims⟩ := ofCall?_eq_some_iff.mp hc'
      obtain ⟨arg, rfl, harg⟩ := h.symm.single
      rw [ofCall?_eq_some_iff.mpr ⟨rfl, (f.claims_eq_of_reordered harg).trans hclaims⟩] at hc
      cases hc

end Intrinsic
end StackTemplate
