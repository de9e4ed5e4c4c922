import StackTemplate.Proofs.History
import StackTemplate.Proofs.Joining

/-!
# Selecting by an integer

`Fn::Select` takes an integer that is written as a number, or as a text with blanks around it and
perhaps a sign.  What is meant by that is said here without a reader (`Value.Spells`), and the
reader finds exactly what is meant as long as a signed word can hold it (`indexOf?_eq_some_iff`).

An index that a signed word can hold picks an item, or null where there is none; it is never an
error.  An index beyond that is no integer to the function, although it is as far out of range as an
index can be.  In either case it does not matter how the integer is written.

* `Text.decimalForm_iff`: reading finds the integer that a text is a decimal form of.
* `Intrinsic.indexOf?_eq_some_iff`: an index is the integer that is spelled.
* `gives_selectCall_iff`: the value of the index is all that matters about it.
-/

namespace StackTemplate

/-! ## 1. Integers that are spelled -/

namespace Text

/-- **A decimal form of an integer**: a numeral, with or without a sign in front. -/
inductive DecimalForm : List Char → Int → Prop
  | unsigned {s : List Char} (h : IsNumeral s) : DecimalForm s (Nat.ofDigitChars 10 s 0)
  | plus {s : List Char} (h : IsNumeral s) : DecimalForm ('+' :: s) (Nat.ofDigitChars 10 s 0)
  | minus {s : List Char} (h : IsNumeral s) : DecimalForm ('-' :: s) (-Nat.ofDigitChars 10 s 0)

theorem of_map_readNat? {s : List Char} {f : Int → Int} {i : Int}
    (h : Option.map f (readNat? s) = some i) : IsNumeral s ∧ f (Nat.ofDigitChars 10 s 0) = i := by
  cases hread : readNat? s with
  | none =>
    rw [hread] at h
    cases h
  | some n =>
    rw [hread] at h
    obtain ⟨hnumeral, rfl⟩ := readNat?_eq_some_iff.mp hread
    exact ⟨hnumeral, Option.some.inj h⟩

/-- **Reading finds the integer.** -/
theorem decimalForm_iff {s : List Char} {i : Int} : DecimalForm s i ↔ readInt? s = some i := by
  constructor
  · intro h
    cases h with
    | unsigned h =>
      rw [readInt?_of_digits h.2, readNat?_eq_some_iff.mpr ⟨h, rfl⟩]
      rfl
    | plus h =>
      rw [readInt?, readNat?_eq_some_iff.mpr ⟨h, rfl⟩]
      rfl
    | minus h =>
      rw [readInt?, readNat?_eq_some_iff.mpr ⟨h, rfl⟩]
      rfl
  · intro h
    unfold readInt? at h
    split at h
    · obtain ⟨hnumeral, rfl⟩ := of_map_readNat? h
      exact .minus hnumeral
    · obtain ⟨hnumeral, rfl⟩ := of_map_readNat? h
      exact .plus hnumeral
    · obtain ⟨hnumeral, rfl⟩ := of_map_readNat? h
      exact .unsigned hnumeral

end Text

/-- **The value spells an integer**: it is the integer as a number, or a text that is a decimal form
of it when the blanks around it are left out. -/
inductive Value.Spells : Value → Int → Prop
  | number {i : Int} (h : Number.IsWord i) : Spells (.number (.integer i h)) i
  | text {s : String} {i : Int} (h : Text.DecimalForm (Text.trim s.toList) i) :
      Spells (.string s) i

/-- The integers that a signed word can hold. -/
def Number.IsSignedWord (i : Int) : Prop := -(Text.wordBound : Int) ≤ i ∧ i < (Text.wordBound : Int)

instance : DecidablePred Number.IsSignedWord := fun i =>
  inferInstanceAs (Decidable (-(Text.wordBound : Int) ≤ i ∧ i < (Text.wordBound : Int)))

namespace Intrinsic

/-- **An index is the integer that is spelled**, if a signed word can hold it. -/
theorem indexOf?_eq_some_iff {x : Value} {i : Int} :
    indexOf? x = some i ↔ x.Spells i ∧ Number.IsSignedWord i := by
  constructor
  · intro h
    cases x with
    | number n =>
      cases n with
      | integer j hj =>
        simp only [indexOf?, Number.asIndex?, Option.ite_none_right_eq_some] at h
        obtain ⟨hhigh, hji⟩ := h
        cases hji
        exact ⟨.number hj, hj.1, hhigh⟩
      | real x => cases h
    | string s =>
      simp only [indexOf?, Text.readWord?, Option.filter_eq_some_iff, Bool.and_eq_true,
        decide_eq_true_eq] at h
      obtain ⟨hread, hsigned⟩ := h
      exact ⟨.text (Text.decimalForm_iff.mpr hread), hsigned⟩
    | null | boolean | list | mapping => cases h
  · rintro ⟨hspells, hlow, hhigh⟩
    cases hspells with
    | number h => simp [indexOf?, Number.asIndex?, hhigh]
    | text h =>
      rw [Text.decimalForm_iff] at h
      simp [indexOf?, Text.readWord?, h, Option.filter, hlow, hhigh]

/-- A value stands for no index if every integer that it spells is too large or too small, or if it
spells none. -/
theorem indexOf?_eq_none_iff {x : Value} :
    indexOf? x = none ↔ ∀ i, x.Spells i → ¬ Number.IsSignedWord i := by
  rw [Option.eq_none_iff_forall_not_mem]
  simp [indexOf?_eq_some_iff]

end Intrinsic

/-- A value spells one integer at most. -/
theorem Value.Spells.unique {x : Value} {i j : Int} (hi : x.Spells i) (hj : x.Spells j) :
    i = j := by
  cases hi with
  | number h =>
    cases hj
    rfl
  | text hi =>
    cases hj with
    | text hj =>
      rw [Text.decimalForm_iff] at hi hj
      exact Option.some.inj (hi.symm.trans hj)

namespace Intrinsic

/-- **The spelling does not matter.** -/
theorem indexOf?_congr {x y : Value} {i : Int} (hx : x.Spells i) (hy : y.Spells i) :
    indexOf? x = indexOf? y := by
  ext j
  rw [indexOf?_eq_some_iff, indexOf?_eq_some_iff]
  constructor
  · rintro ⟨hj, hsigned⟩
    obtain rfl := hx.unique hj
    exact ⟨hy, hsigned⟩
  · rintro ⟨hj, hsigned⟩
    obtain rfl := hy.unique hj
    exact ⟨hx, hsigned⟩

/-! ## 2. Items at an index -/

theorem itemAt_of_lt {items : List Value} {n : Nat} (h : n < items.length) :
    itemAt items n = items[n] := by
  have hnot : ¬ (n : Int) < 0 := by omega
  rw [itemAt, if_neg hnot, Int.toNat_natCast, List.getElem?_eq_getElem h]
  rfl

/-- Before the first item and after the last one there is null. -/
theorem itemAt_of_out {items : List Value} {i : Int} (h : i < 0 ∨ (items.length : Int) ≤ i) :
    itemAt items i = .null := by
  rcases lt_or_ge i 0 with hneg | hpos
  · rw [itemAt, if_pos hneg]
  · have hout : items.length ≤ i.toNat := by omega
    rw [itemAt, if_neg (by omega), List.getElem?_eq_none hout]
    rfl

end Intrinsic

namespace Stack

open Intrinsic (indexOf? itemAt)

variable {stack : Stack} {busy : Set String} {index list x : Value}

/-! ## 3. The call -/

/-- The call of `Fn::Select` with an index and a list. -/
def selectCall (index list : Value) : Value := .mapping [("Fn::Select", .list [index, list])]

/-- What a call of `Fn::Select` goes on with when it has the value of its index. -/
def selectFrom (list : Value) : Option Int → Plan Value
  | none => Intrinsic.select.reject .indexNotInteger
  | some i => do
    match ← Plan.ask list with
    | .list items => return itemAt items i
    | _ => Intrinsic.select.reject .secondNotList

theorem callSelect_eq (index list : Value) :
    callSelect (.list [index, list]) =
      Plan.ask index >>= fun x => selectFrom list (indexOf? x) := by
  refine congrArg (Plan.ask index >>= ·) (funext fun x => ?_)
  cases indexOf? x <;> rfl

/-- The value of the index is all that matters about it. -/
theorem gives_selectCall_iff (hindex : stack.Gives busy (stack.plan index) (.ok x))
    {outcome : Except ResolutionError Value} :
    stack.Gives busy (stack.plan (selectCall index list)) outcome ↔
      stack.Gives busy (selectFrom list (indexOf? x)) outcome := by
  have hask : stack.Gives busy (Plan.ask index) (.ok x) := gives_ask_iff.mpr hindex
  change stack.Gives busy (callSelect (.list [index, list])) outcome ↔ _
  rw [callSelect_eq, gives_bind_iff]
  constructor
  · rintro (⟨y, hy, h⟩ | ⟨e, -, he⟩)
    · cases hask.unique hy
      exact h
    · cases hask.unique he
  · exact fun h => Or.inl ⟨x, hask, h⟩

theorem gives_selectFrom_list {vs : List Value}
    (hlist : stack.Gives busy (stack.plan list) (.ok (.list vs))) (i : Int) :
    stack.Gives busy (selectFrom list (some i)) (.ok (itemAt vs i)) :=
  (gives_ask_iff.mpr hlist).bind (.done _)

/-- **`Fn::Select` honours the integers of a signed word.**  Depth aside, a call whose index is such
an integer, as a number or as a text, gives the item at that place, and null where the list has
none.  A call whose index is no such integer is refused.  And an integer that is written in two ways
is one index, whatever the list resolves to. -/
theorem select_honours_signed_indexes (stack : Stack) {index x : Value} (list : Value)
    (hindex : stack.ResolvesTo index (.ok x)) :
    (∀ i, x.Spells i → Number.IsSignedWord i → ∀ vs, stack.ResolvesTo list (.ok (.list vs)) →
      (∀ n (hn : n < vs.length), i = n →
        stack.ResolvesTo (selectCall index list) (.ok vs[n])) ∧
      (i < 0 ∨ (vs.length : Int) ≤ i → stack.ResolvesTo (selectCall index list) (.ok .null))) ∧
    ((∀ i, x.Spells i → ¬ Number.IsSignedWord i) → stack.ResolvesTo (selectCall index list)
      (.error (.invalidArguments .select .indexNotInteger))) ∧
    ∀ i, x.Spells i → ∀ other y, stack.ResolvesTo other (.ok y) → y.Spells i → ∀ outcome,
      stack.ResolvesTo (selectCall other list) outcome ↔
        stack.ResolvesTo (selectCall index list) outcome := by
  simp only [resolvesTo_iff_gives] at hindex ⊢
  refine ⟨?_, ?_, ?_⟩
  · intro i hspells hsigned vs hlist
    have hi : indexOf? x = some i := Intrinsic.indexOf?_eq_some_iff.mpr ⟨hspells, hsigned⟩
    have hitem : stack.Gives ∅ (stack.plan (selectCall index list)) (.ok (itemAt vs i)) := by
      rw [gives_selectCall_iff hindex, hi]
      exact gives_selectFrom_list hlist i
    constructor
    · rintro n hn rfl
      rwa [Intrinsic.itemAt_of_lt hn] at hitem
    · intro hout
      rwa [Intrinsic.itemAt_of_out hout] at hitem
  · intro hnone
    rw [gives_selectCall_iff hindex, Intrinsic.indexOf?_eq_none_iff.mpr hnone]
    exact gives_reject _ _
  · intro i hx other y hother hy outcome
    rw [gives_selectCall_iff hother, gives_selectCall_iff hindex, Intrinsic.indexOf?_congr hy hx]

/-- The second item of a list by a text with blanks around it, nothing beyond the end, and an index
that is no integer. -/
theorem index_with_blanks_is_honoured :
    let stack := ofDocument (.mapping [])
    let list := Value.list [.string "a", .string "b"]
    stack.ResolvesTo (selectCall (.string " +1 ") list) (.ok (.string "b")) ∧
      stack.ResolvesTo (selectCall (.string "-1") list) (.ok .null) ∧
      stack.ResolvesTo (selectCall (.string "one") list)
        (.error (.invalidArguments .select .indexNotInteger)) := by
  intro stack list
  have hlist : stack.ResolvesTo list (.ok list) := resolvesTo_of_resolvedUnder 9 [] rfl
  have htext (text : String) : stack.ResolvesTo (.string text) (.ok (.string text)) :=
    resolvesTo_of_resolvedUnder 9 [] rfl
  have hspells (text : String) (i : Int)
      (h : Text.readInt? (Text.trim text.toList) = some i) : (Value.string text).Spells i :=
    .text (Text.decimalForm_iff.mpr h)
  obtain ⟨hone, -⟩ := stack.select_honours_signed_indexes list (htext " +1 ")
  obtain ⟨hminus, -⟩ := stack.select_honours_signed_indexes list (htext "-1")
  obtain ⟨-, hrefused, -⟩ := stack.select_honours_signed_indexes list (htext "one")
  refine ⟨?_, ?_, hrefused ?_⟩
  · exact (hone 1 (hspells " +1 " 1 (by decide)) (by decide) _ hlist).1 1 (by decide) rfl
  · exact (hminus (-1) (hspells "-1" (-1) (by decide)) (by decide) _ hlist).2 (by decide)
  · intro i h
    cases h with
    | text h =>
      rw [Text.decimalForm_iff] at h
      cases h

/-- The least integer that no signed word can hold is beyond the end of a list, and it is refused
all the same. -/
theorem large_index_is_refused :
    let stack := ofDocument (.mapping [])
    let index := Value.number (.integer 9223372036854775808 (by decide))
    let list := Value.list [.string "x"]
    stack.ResolvesTo index (.ok index) ∧ index.Spells 9223372036854775808 ∧
      stack.ResolvesTo list (.ok (.list [.string "x"])) ∧
      ((["x"].length : Nat) : Int) ≤ 9223372036854775808 ∧
      ¬ stack.ResolvesTo (selectCall index list) (.ok .null) ∧
      stack.ResolvesTo (selectCall index list)
        (.error (.invalidArguments .select .indexNotInteger)) := by
  intro stack index list
  have hindex : stack.ResolvesTo index (.ok index) := resolvesTo_of_resolvedUnder 9 [] rfl
  have hlist : stack.ResolvesTo list (.ok (.list [.string "x"])) :=
    resolvesTo_of_resolvedUnder 9 [] rfl
  have hrefused : stack.ResolvesTo (selectCall index list)
      (.error (.invalidArguments .select .indexNotInteger)) := by
    rw [resolvesTo_iff_gives] at hindex ⊢
    rw [gives_selectCall_iff hindex]
    exact gives_reject _ _
  refine ⟨hindex, .number _, hlist, by decide, ?_, hrefused⟩
  intro hnull
  rw [resolvesTo_iff_gives] at hrefused hnull
  cases hrefused.unique hnull

end Stack
end StackTemplate
