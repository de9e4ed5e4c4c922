import Mathlib.Data.List.TakeWhile
import Mathlib.Data.Nat.Digits.Defs
import StackTemplate.Proofs.Equality
import StackTemplate.Proofs.ListParameter

/-!
# Whole numbers as parameters

A parameter is a text before it is a number, and so is the default of a parameter that is written as
a number.  A whole number is written as its digits, which lose nothing.  They are read as an integer
if they can be, and else as a double (section 13 of the specification); and the integers that can be
read are signed words.  So a whole number that only an unsigned word can hold is read as a double,
which has 53 digits to the base two where the number has 64.

So a whole number that is written in a template is not always the number that a parameter has for
it.  Below `2 ^ 63` it is; from there on the parameter has a double that is up to `2 ^ 10` away.

* `Double.exists_ofRatio?`: how far a large whole number is rounded.
* `Number.exists_readBack`: what the digits of a whole number are read back as.
* `Parameter.Receives`: what a parameter is given, as its default or as a supplied text.
-/

namespace StackTemplate

/-! ## 1. Large whole numbers are rounded -/

namespace Double

/-- A quotient is rounded by half a unit at most. -/
theorem roundDiv_near (num : Nat) {den : Nat} (h : 0 < den) :
    2 * num ≤ 2 * (den * roundDiv num den) + den ∧
      2 * (den * roundDiv num den) ≤ 2 * num + den := by
  have hsplit : den * (num / den) + num % den = num := Nat.div_add_mod num den
  have hmod : num % den < den := Nat.mod_lt num h
  have hsucc : den * (num / den + 1) = den * (num / den) + den := Nat.mul_succ _ _
  simp only [roundDiv]
  split
  · omega
  · split
    · omega
    · -- a tie: the remainder is half of the divisor, and the quotient stays or goes up by one
      obtain heven | hodd : num / den % 2 = 0 ∨ num / den % 2 = 1 := by omega
      · rw [heven, Nat.add_zero]
        omega
      · rw [hodd]
        omega

theorem floorLog_one {n k : Nat} (hlow : 2 ^ k ≤ n) (hhigh : n < 2 ^ (k + 1)) :
    floorLog n 1 = k := by
  have hpos : 0 < 2 ^ k := Nat.pow_pos (by decide)
  have hlog : n.log2 = k := (Nat.log2_eq_iff (by omega)).mpr ⟨hlow, hhigh⟩
  have hone : Nat.log2 1 = 0 := by decide
  simp only [floorLog, hlog, hone]
  simp [Nat.one_shiftLeft, hlow]

/-- In the runs of normal numbers a code is a place in a run, the end of the run included. -/
theorem magnitude_of_code {x : Double} {e m : Nat} (hcode : x.code = e * run + m)
    (hlow : run ≤ m) (hhigh : m ≤ 2 * run) : x.magnitude = m * 2 ^ ((e : Int) - 1074) := by
  have hrun : 0 < run := by decide
  obtain ⟨r, rfl⟩ := Nat.exists_eq_add_of_le hlow
  have hnot : ¬ x.code < run := by omega
  rcases Nat.lt_or_ge r run with hr | hr
  · have hplace : x.code = r + run * (e + 1) := by
      rw [hcode]
      ring
    have hdiv : x.code / run = e + 1 := by
      rw [hplace, Nat.add_mul_div_left _ _ hrun, Nat.div_eq_of_lt hr, Nat.zero_add]
    have hmod : x.code % run = r := by
      rw [hplace, Nat.add_mul_mod_self_left, Nat.mod_eq_of_lt hr]
    have hscale : x.scale = (e : Int) - 1074 := by
      rw [scale, hdiv]
      omega
    rw [magnitude, significand, if_neg hnot, hmod, hscale]
  · obtain rfl : r = run := by omega
    have hplace : x.code = run * (e + 2) := by
      rw [hcode]
      ring
    have hdiv : x.code / run = e + 2 := by
      rw [hplace, Nat.mul_div_cancel_left _ hrun]
    have hmod : x.code % run = 0 := by
      rw [hplace, Nat.mul_mod_right]
    have hscale : x.scale = 1 + ((e : Int) - 1074) := by
      rw [scale, hdiv]
      omega
    rw [magnitude, significand, if_neg hnot, hmod, hscale, zpow_add₀ (by norm_num)]
    push_cast
    ring

/-- A number between two powers of two is that many places between the two powers. -/
theorem roundDiv_mem {n k d : Nat} (hlow : 2 ^ (k + d) ≤ n) (hhigh : n < 2 ^ (k + d + 1)) :
    2 ^ k ≤ roundDiv n (2 ^ d) ∧ roundDiv n (2 ^ d) ≤ 2 * 2 ^ k := by
  have hpos : 0 < 2 ^ d := Nat.pow_pos (by decide)
  obtain ⟨hover, hunder⟩ := roundDiv_near n hpos
  have hpow : 2 ^ (k + d) = 2 ^ d * 2 ^ k := by ring
  have hpow' : 2 ^ (k + d + 1) = 2 ^ d * (2 * 2 ^ k) := by ring
  constructor
  · by_contra hlt
    have hstep := Nat.mul_le_mul_left (2 ^ d) (Nat.succ_le_of_lt (Nat.lt_of_not_le hlt))
    rw [Nat.mul_succ] at hstep
    omega
  · by_contra hlt
    have hstep := Nat.mul_le_mul_left (2 ^ d) (Nat.succ_le_of_lt (Nat.lt_of_not_le hlt))
    rw [Nat.mul_succ] at hstep
    omega

/-- A whole number with more than 53 digits to the base two is rounded to a multiple of the unit of
its last place. -/
theorem exists_rounded {n d : Nat} (hd : d ≤ 969) (hlow : 2 ^ (52 + (d + 1)) ≤ n)
    (hhigh : n < 2 ^ (52 + (d + 1) + 1)) :
    ∃ x, ofRatio? false n 1 = some x ∧ x.toRat = roundDiv n (2 ^ (d + 1)) * 2 ^ (d + 1) := by
  have hne : n ≠ 0 := by
    have hpos : 0 < 2 ^ (52 + (d + 1)) := Nat.pow_pos (by decide)
    omega
  have hscale : max (-1074) (floorLog n 1 - 52) = ((d + 1 : Nat) : Int) := by
    rw [floorLog_one hlow hhigh]
    omega
  have hshift : 1 <<< (d + 1) = 2 ^ (d + 1) := Nat.one_shiftLeft _
  obtain ⟨hrun, hrun'⟩ : run ≤ roundDiv n (2 ^ (d + 1)) ∧ roundDiv n (2 ^ (d + 1)) ≤ 2 * run :=
    roundDiv_mem hlow hhigh
  have hcode : (d + 1075) * run + roundDiv n (2 ^ (d + 1)) < codeBound := by
    have hmul : (d + 1075) * run ≤ 2044 * run := Nat.mul_le_mul_right _ (by omega)
    have hpos : 0 < run := by decide
    unfold codeBound
    omega
  have hexponent : (((d + 1 : Nat) : Int) + 1074).toNat = d + 1075 := by omega
  let x : Double := ⟨false, (d + 1075) * run + roundDiv n (2 ^ (d + 1)), hcode⟩
  refine ⟨x, ?_, ?_⟩
  · rw [ofRatio?, if_neg hne]
    simp only [hscale, hexponent, if_pos (Int.natCast_nonneg (d + 1)), Int.toNat_natCast, hshift,
      dif_pos hcode]
    rfl
  · have hmagnitude : x.magnitude = _ := magnitude_of_code rfl hrun hrun'
    have hplace : ((d + 1075 : Nat) : Int) - 1074 = ((d + 1 : Nat) : Int) := by omega
    rw [toRat, hmagnitude, hplace, zpow_natCast]
    rfl

/-- **A whole number with more than 53 digits to the base two** is rounded by half a unit of its
last place at most. -/
theorem exists_ofRatio? {n d : Nat} (hd : d ≤ 969) (hlow : 2 ^ (52 + (d + 1)) ≤ n)
    (hhigh : n < 2 ^ (52 + (d + 1) + 1)) :
    ∃ x, ofRatio? false n 1 = some x ∧ |x.toRat - n| ≤ 2 ^ d := by
  obtain ⟨x, hround, hvalue⟩ := exists_rounded hd hlow hhigh
  refine ⟨x, hround, ?_⟩
  obtain ⟨hover, hunder⟩ := roundDiv_near n (Nat.pow_pos (n := d + 1) (Nat.succ_pos 1))
  have hover' : (2 : ℚ) * n ≤
      2 * (2 ^ (d + 1) * roundDiv n (2 ^ (d + 1))) + 2 ^ (d + 1) := by exact_mod_cast hover
  have hunder' : (2 : ℚ) * (2 ^ (d + 1) * roundDiv n (2 ^ (d + 1))) ≤
      2 * n + 2 ^ (d + 1) := by exact_mod_cast hunder
  have hhalf : (2 : ℚ) ^ (d + 1) = 2 * 2 ^ d := by ring
  rw [hvalue, abs_le]
  constructor <;> linarith

end Double

/-! ## 2. Digits are read back -/

theorem Numeral.read?_of_isNumeral {s : List Char} (h : Text.IsNumeral s) :
    read? s = some ⟨false, Nat.ofDigitChars 10 s 0, 0⟩ := by
  have hunsigned : read? s = readUnsigned? false s := by
    cases s with
    | nil => rfl
    | cons c rest =>
      obtain ⟨hminus, hplus⟩ := Text.ne_sign_of_isDigit (h.2 c List.mem_cons_self)
      simp [read?, hminus, hplus]
  have hwhole : s.takeWhile Char.isDigit = s := List.takeWhile_eq_self_iff.mpr h.2
  have hrest : s.dropWhile Char.isDigit = [] := List.dropWhile_eq_nil_iff.mpr h.2
  rw [hunsigned, readUnsigned?, hwhole, hrest]
  simp [h.1, readExponent?]

namespace Number

/-- **What a whole number is read back as**: itself below `2 ^ 63`, and from there on a double that
is at most `2 ^ 10` away. -/
structure ReadBack (i : Int) (h : IsWord i) (n : Number) : Prop where
  exact : i < (Text.wordBound : Int) → n = .integer i h
  rounded : (Text.wordBound : Int) ≤ i → ∃ x : Double, n = .real x ∧ |x.toRat - i| ≤ 2 ^ 10

/-- A whole number that no signed word can hold is read as a double next to it. -/
theorem exists_real_of_repr {n : Nat} (hlow : Text.wordBound ≤ n)
    (hhigh : n < 2 * Text.wordBound) :
    ∃ x, (Numeral.read? n.repr.toList).bind Numeral.toDouble? = some x ∧
      |x.toRat - n| ≤ 2 ^ 10 := by
  have hword : Text.wordBound = 2 ^ 63 := by decide
  have hpositive : n ≠ 0 := by omega
  have hread : Numeral.read? n.repr.toList = some ⟨false, n, 0⟩ := by
    rw [Numeral.read?_of_isNumeral (Text.isNumeral_repr n), Text.ofDigitChars_repr]
  have hplaces : (Nat.toDigits 10 n).length ≤ 20 :=
    Nat.toDigits_length 10 n 20 (by decide) (by omega)
  have hround : Numeral.toDouble? ⟨false, n, 0⟩ = Double.ofRatio? false n 1 := by
    simp only [Numeral.toDouble?]
    rw [if_neg hpositive, if_neg (by omega), if_neg (by omega), if_pos (le_refl 0)]
    simp
  obtain ⟨x, hx, hnear⟩ : ∃ x, Double.ofRatio? false n 1 = some x ∧ |x.toRat - n| ≤ 2 ^ 10 :=
    Double.exists_ofRatio? (by decide) (by omega) (by omega)
  refine ⟨x, ?_, hnear⟩
  rw [hread, Option.bind_some, hround, hx]

/-- **The digits of every whole number are read back.** -/
theorem exists_readBack {i : Int} (h : IsWord i) :
    ∃ n, ofText? (Text.writeInt i).toList = some n ∧ ReadBack i h n := by
  have hword : Text.readWord? (Text.writeInt i).toList =
      if i < (Text.wordBound : Int) then some i else none := by
    have hlow := h.1
    rw [Text.readWord?, Text.readInt?_writeInt]
    simp [Option.filter, hlow]
  by_cases hsigned : i < (Text.wordBound : Int)
  · refine ⟨.integer i h, ?_, fun _ => rfl, fun hlarge => absurd hsigned (not_lt.mpr hlarge)⟩
    rw [ofText?, hword, if_pos hsigned]
    simp [ofInt?, h]
  · obtain ⟨n, rfl⟩ : ∃ n : Nat, i = n := Int.eq_ofNat_of_zero_le (by omega)
    have hhigh := h.2
    obtain ⟨x, hx, hnear⟩ := exists_real_of_repr (n := n) (by omega) (by omega)
    refine ⟨.real x, ?_, fun hsmall => absurd hsmall hsigned, fun _ => ⟨x, rfl, ?_⟩⟩
    · have htext : Text.writeInt (n : Int) = n.repr := rfl
      rw [ofText?, hword, if_neg hsigned, htext, hx]
      rfl
    · exact_mod_cast hnear

end Number

/-! ## 3. What a parameter is given -/

/-- No digit and no sign is a comma. -/
theorem Text.comma_not_mem_writeInt (i : Int) : ',' ∉ (writeInt i).toList := by
  have hdigits (n : Nat) : ',' ∉ n.repr.toList := by
    intro hmem
    exact absurd (isDigit_of_mem_repr hmem) (by decide)
  cases i with
  | ofNat n => exact hdigits n
  | negSucc n =>
    rw [writeInt, String.toList_append]
    simpa using hdigits (n + 1)

namespace Parameter

/-- **The parameter is given the value**: nothing is supplied and the value is the default, or the
text that the value has as a default is supplied. -/
def Receives (declaration : Value) (supplied : Option String) (v : Value) : Prop :=
  ∃ raw, defaultText? (some v) = some raw ∧
    (supplied = some raw ∨ supplied = none ∧ declaration.get? "Default" = some v)

section Received

variable {name : String} {declaration : Value} {supplied : Option String}

/-- Either way the text is read by the declared type. -/
theorem Receives.value_eq {v : Value} (h : Receives declaration supplied v) {raw : String}
    (hraw : defaultText? (some v) = some raw) {type : ParameterType}
    (htype : ParameterType.ofDeclared? (declaredType declaration) = some type) :
    value name declaration supplied = interpret name raw type := by
  obtain ⟨raw', hraw', hgiven⟩ := h
  obtain rfl : raw = raw' := Option.some.inj (hraw.symm.trans hraw')
  rcases hgiven with rfl | ⟨rfl, hdefault⟩
  · exact value_of_supplied htype
  · exact value_of_default htype (hdefault ▸ hraw)

theorem interpret_integer {i : Int} {n : Number}
    (hn : Number.ofText? (Text.writeInt i).toList = some n) :
    interpret name (Text.writeInt i) .number = .ok (.number n) := by
  rw [interpret, number, hn]

/-- **A whole number** is read back by a number. -/
theorem Receives.exists_number {i : Int} {h : Number.IsWord i}
    (hgiven : Receives declaration supplied (.number (.integer i h)))
    (htype : ParameterType.ofDeclared? (declaredType declaration) = some .number) :
    ∃ n, Number.ReadBack i h n ∧ value name declaration supplied = .ok (.number n) := by
  obtain ⟨n, hn, hback⟩ := Number.exists_readBack h
  refine ⟨n, hback, ?_⟩
  rw [hgiven.value_eq rfl htype]
  exact interpret_integer hn

/-- A whole number among the items of a list is one item, between those before it and those
after. -/
theorem items_integer {before after : List String} (i : Int) :
    items (",".intercalate (before ++ Text.writeInt i :: after)) =
      before.flatMap items ++ Text.writeInt i :: after.flatMap items := by
  rw [items_intercalate (by simp), List.flatMap_append, List.flatMap_cons,
    items_of_not_mem (Text.comma_not_mem_writeInt i)]
  rfl

/-- **Among the items of a list** it is read back in its place. -/
theorem Receives.exists_item {before after : List Value} {i : Int} {h : Number.IsWord i}
    (hgiven : Receives declaration supplied (.list (before ++ .number (.integer i h) :: after)))
    (htype : ParameterType.ofDeclared? (declaredType declaration) = some .numberList) :
    ∃ n, Number.ReadBack i h n ∧ ∀ v, value name declaration supplied = .ok v →
      ∃ vs ws, v = .list (vs ++ .number n :: ws) ∧
        List.Forall₂ (fun text v => interpret name text .number = .ok v)
          ((before.map itemText).flatMap items) vs ∧
        List.Forall₂ (fun text v => interpret name text .number = .ok v)
          ((after.map itemText).flatMap items) ws := by
  obtain ⟨n, hn, hback⟩ := Number.exists_readBack h
  refine ⟨n, hback, ?_⟩
  intro v hv
  have htext : itemText (.number (.integer i h)) = Text.writeInt i := rfl
  rw [hgiven.value_eq rfl htype, interpret_numberList_ok_iff, List.map_append, List.map_cons,
    htext, items_integer] at hv
  obtain ⟨all, rfl, hall⟩ := hv
  obtain ⟨vs, rest, rfl, hbefore, hrest⟩ := exists_of_forall₂_append hall
  obtain ⟨w, ws, hw, hafter, rfl⟩ := List.forall₂_cons_left_iff.mp hrest
  rw [interpret_integer hn] at hw
  cases hw
  exact ⟨vs, ws, rfl, hbefore, hafter⟩

/-- **A list of whole numbers** is read back one by one. -/
theorem Receives.exists_numbers {numbers : List {i : Int // Number.IsWord i}}
    (hne : numbers ≠ [])
    (hgiven : Receives declaration supplied
      (.list (numbers.map fun i => .number (.integer i.1 i.2))))
    (htype : ParameterType.ofDeclared? (declaredType declaration) = some .numberList) :
    ∃ ns, List.Forall₂ (fun i n => Number.ReadBack i.1 i.2 n) numbers ns ∧
      value name declaration supplied = .ok (.list (ns.map .number)) := by
  choose back hread hback using fun i : {i : Int // Number.IsWord i} => Number.exists_readBack i.2
  refine ⟨numbers.map back, ?_, ?_⟩
  · rw [List.forall₂_map_right_iff, List.forall₂_same]
    exact fun i _ => hback i
  · have htexts : AreItems (",".intercalate (numbers.map fun i => Text.writeInt i.1))
        (numbers.map fun i => Text.writeInt i.1) := by
      refine ⟨fun hnil => hne (List.map_eq_nil_iff.mp hnil), ?_, rfl⟩
      intro text htext
      obtain ⟨i, -, rfl⟩ := List.mem_map.mp htext
      exact Text.comma_not_mem_writeInt i.1
    have hmap : (numbers.map fun i => Value.number (.integer i.1 i.2)).map itemText =
        numbers.map fun i => Text.writeInt i.1 := by
      rw [List.map_map]
      rfl
    rw [hgiven.value_eq rfl htype, hmap]
    refine interpret_numberList_ok_iff.mpr ⟨_, rfl, ?_⟩
    rw [← areItems_iff.mp htexts, List.forall₂_map_left_iff, List.forall₂_map_right_iff,
      List.forall₂_map_right_iff, List.forall₂_same]
    exact fun i _ => interpret_integer (hread i)

end Received
end Parameter

namespace Stack

open Parameter (Receives declaredType interpret items itemText)

variable (stack : Stack)

/-! ## 4. Whole numbers as parameters -/

/-- **Whole numbers are kept below `2 ^ 63`.**  With two levels, after any operations, a whole
number that is given to a parameter is read back as itself if it is below `2 ^ 63`, and as a double
near it if it is not.

Declared as a number, the parameter is what is read back, and a placeholder for it gives the text of
that.

Declared as a list of numbers, the parameter has at the place of each whole number what that number
is read back as, with the numbers of the other items before it and after it; and if all items are
whole numbers, then it has a value, and a placeholder for it gives their texts with commas. -/
theorem whole_number_is_read_back {name : String} {declaration : Value}
    (hlimit : 2 ≤ stack.config.maxDepth) (hname : Placeholder.Plain name)
    (hdeclared : stack.template.parameter? name = some declaration) (ops : List Operation) :
    let s := stack.after ops .start
    let supplied := stack.supplied.lookup name
    (declaredType declaration = "Number" → ∀ (i : Int) (h : Number.IsWord i),
      Receives declaration supplied (.number (.integer i h)) → ∃ n, Number.ReadBack i h n ∧
        stack.operate (.resolve (referenceCall name)) s = (.ok (.value (.number n)), s) ∧
        stack.operate (.resolve (placeholderCall name)) s =
          (.ok (.value (.string n.text)), s)) ∧
    (declaredType declaration = "List<Number>" →
      (∀ (before after : List Value) (i : Int) (h : Number.IsWord i),
        Receives declaration supplied (.list (before ++ .number (.integer i h) :: after)) →
          ∃ n, Number.ReadBack i h n ∧ ∀ v,
            stack.operate (.resolve (referenceCall name)) s = (.ok (.value v), s) →
              ∃ vs ws, v = .list (vs ++ .number n :: ws) ∧
                List.Forall₂ (fun text v => interpret name text .number = .ok v)
                  ((before.map itemText).flatMap items) vs ∧
                List.Forall₂ (fun text v => interpret name text .number = .ok v)
                  ((after.map itemText).flatMap items) ws) ∧
      ∀ numbers : List {i : Int // Number.IsWord i}, numbers ≠ [] →
        Receives declaration supplied
            (.list (numbers.map fun i => .number (.integer i.1 i.2))) →
          ∃ ns, List.Forall₂ (fun i n => Number.ReadBack i.1 i.2 n) numbers ns ∧
            stack.operate (.resolve (referenceCall name)) s =
              (.ok (.value (.list (ns.map .number))), s) ∧
            stack.operate (.resolve (placeholderCall name)) s =
              (.ok (.value (.string (",".intercalate (ns.map Number.text)))), s)) := by
  intro s supplied
  have hs : 2 ≤ stack.levelsLeft s := by
    rwa [stack.levelsLeft_after]
  have href := stack.resolve_parameter hname.unreserved hdeclared hs
  have hboth {v : Value} {text : String}
      (hvalue : Parameter.value name declaration supplied = .ok v)
      (htext : v.plainText? = some text) :
      stack.operate (.resolve (referenceCall name)) s = (.ok (.value v), s) ∧
        stack.operate (.resolve (placeholderCall name)) s = (.ok (.value (.string text)), s) := by
    have hplaceholder :=
      stack.resolve_placeholderCall_parameter hname hdeclared hs hvalue htext
    exact ⟨(stack.operate_resolve_ok_iff href).mpr hvalue,
      (stack.operate_resolve_ok_iff hplaceholder).mpr rfl⟩
  refine ⟨fun hnumber => ?_, fun hnumbers => ⟨?_, ?_⟩⟩
  · intro i h hgiven
    obtain ⟨n, hback, hvalue⟩ := hgiven.exists_number (by rw [hnumber]; decide)
    exact ⟨n, hback, hboth hvalue rfl⟩
  · intro before after i h hgiven
    obtain ⟨n, hback, hitem⟩ := hgiven.exists_item (by rw [hnumbers]; decide)
    exact ⟨n, hback, fun v hv => hitem v ((stack.operate_resolve_ok_iff href).mp hv)⟩
  · intro numbers hne hgiven
    obtain ⟨ns, hback, hvalue⟩ := hgiven.exists_numbers hne (by rw [hnumbers]; decide)
    exact ⟨ns, hback, hboth hvalue (Value.plainText?_list_map (fun _ => rfl) ns)⟩

/-- The largest number of a signed word as a default, and the smallest one as an item of a list that
is supplied.  Both are kept, and a placeholder gives their digits. -/
theorem ends_of_signed_words_are_kept :
    let largest : Number := .integer 9223372036854775807 (by decide)
    let smallest : Number := .integer (-9223372036854775808) (by decide)
    let number := Value.mapping [("Type", .string "Number"), ("Default", .number largest)]
    let numbers := Value.mapping [("Type", .string "List<Number>")]
    let sections := Value.mapping [("Parameters", .mapping
      [("Limit", number), ("Limits", numbers)])]
    let stack := { (ofDocument sections).withLimit 2 with
      supplied := [("Limits", "-9223372036854775808,9223372036854775807")] }
    2 ≤ stack.config.maxDepth ∧ Placeholder.Plain "Limit" ∧ Placeholder.Plain "Limits" ∧
      Receives number none (.number largest) ∧
      Receives numbers (some "-9223372036854775808,9223372036854775807")
        (.list [.number smallest, .number largest]) ∧
      (stack.operate (.resolve (referenceCall "Limit")) .start).1 =
        .ok (.value (.number largest)) ∧
      (stack.operate (.resolve (placeholderCall "Limit")) .start).1 =
        .ok (.value (.string "9223372036854775807")) ∧
      (stack.operate (.resolve (referenceCall "Limits")) .start).1 =
        .ok (.value (.list [.number smallest, .number largest])) := by
  intro largest smallest number numbers sections stack
  have hlimit : 2 ≤ stack.config.maxDepth := by decide
  have hname : Placeholder.Plain "Limit" := Placeholder.plain_of_alphanumeric (by decide)
  have hnames : Placeholder.Plain "Limits" := Placeholder.plain_of_alphanumeric (by decide)
  have hgiven : Receives number none (.number largest) := ⟨_, rfl, Or.inr ⟨rfl, rfl⟩⟩
  have hgivens : Receives numbers (some "-9223372036854775808,9223372036854775807")
      (.list [.number smallest, .number largest]) := ⟨_, rfl, Or.inl rfl⟩
  obtain ⟨hnumber, -⟩ := stack.whole_number_is_read_back hlimit hname rfl []
  obtain ⟨-, hnumbers⟩ := stack.whole_number_is_read_back hlimit hnames rfl []
  obtain ⟨n, hback, href, hsub⟩ := hnumber rfl _ _ hgiven
  obtain rfl := hback.exact (by decide)
  obtain ⟨-, hall⟩ := hnumbers rfl
  obtain ⟨ns, hbacks, hrefs, -⟩ :=
    hall [⟨-9223372036854775808, by decide⟩, ⟨9223372036854775807, by decide⟩] (by simp) hgivens
  obtain ⟨m, ms, hm, hms, rfl⟩ := List.forall₂_cons_left_iff.mp hbacks
  obtain ⟨k, ks, hk, hks, rfl⟩ := List.forall₂_cons_left_iff.mp hms
  cases hks
  obtain rfl := hm.exact (by decide)
  obtain rfl := hk.exact (by decide)
  exact ⟨hlimit, hname, hnames, hgiven, hgivens, congrArg Prod.fst href, congrArg Prod.fst hsub,
    congrArg Prod.fst hrefs⟩

/-- The largest number of an unsigned word as a default.  The parameter has a double for it, which
is another number than the one in the template. -/
theorem largest_unsigned_word_is_rounded :
    let largest : Number := .integer 18446744073709551615 (by decide)
    let number := Value.mapping [("Type", .string "Number"), ("Default", .number largest)]
    let stack := ofDocument (.mapping [("Parameters", .mapping [("P", number)])])
    2 ≤ stack.config.maxDepth ∧ Placeholder.Plain "P" ∧
      stack.template.parameter? "P" = some number ∧ declaredType number = "Number" ∧
      Receives number (stack.supplied.lookup "P") (.number largest) ∧
      (stack.operate (.resolve (.number largest)) .start).1 = .ok (.value (.number largest)) ∧
      (stack.operate (.resolve (referenceCall "P")) .start).1 ≠ .ok (.value (.number largest)) ∧
      ∃ x : Double, (stack.operate (.resolve (referenceCall "P")) .start).1 =
        .ok (.value (.number (.real x))) := by
  intro largest number stack
  have hname : Placeholder.Plain "P" := Placeholder.plain_of_alphanumeric (by decide)
  have hgiven : Receives number (stack.supplied.lookup "P") (.number largest) :=
    ⟨_, rfl, Or.inr ⟨rfl, rfl⟩⟩
  obtain ⟨n, hback, hvalue⟩ : ∃ n, Number.ReadBack 18446744073709551615 (by decide) n ∧
      Parameter.value "P" number (stack.supplied.lookup "P") = .ok (.number n) :=
    hgiven.exists_number (by decide)
  obtain ⟨x, rfl, -⟩ := hback.rounded (by decide)
  have href := stack.resolve_parameter (s := .start) hname.unreserved rfl (by decide)
  have hreal : (stack.operate (.resolve (referenceCall "P")) .start).1 =
      .ok (.value (.number (.real x))) :=
    congrArg Prod.fst ((stack.operate_resolve_ok_iff href).mpr hvalue)
  refine ⟨by decide, hname, rfl, rfl, hgiven, rfl, ?_, x, hreal⟩
  rw [hreal]
  simp [largest]

end Stack
end StackTemplate
