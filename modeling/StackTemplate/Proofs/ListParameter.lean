import StackTemplate.Proofs.Fields
import StackTemplate.Proofs.Spelling
import StackTemplate.Proofs.Traversal

/-!
# Parameters with a list of items

The text of a list parameter has a comma between one item and the next, and nothing else is said by
it: blanks belong to the items, and an item may be empty.  So a text has one list of items, and the
list has the text in it (`Parameter.areItems_iff`).  All ways from the text to a list and back agree
about the commas: the parameter, `Fn::Split`, `Fn::Join`, and a placeholder in a text.

A list of numbers is read item by item, and the first item that is no number is the error.

A default that is a list is written as a text first, without any escape, and the text is split
again.  It keeps its text, but its items only if there is one and none of them has a comma in it.

* `Text.split_append`: two texts with the character between them are split one after the other.
* `Parameter.items_intercalate`: so are texts with commas between them.
* `resolve_parameter`: what a reference to a parameter gives, in every session.
* `resolve_list_of_items`: what a list of texts gives, in the three ways to ask for it.
-/

namespace StackTemplate

/-! ## 1. Fields between single characters -/

namespace Text

variable {c : Char}

theorem split_of_not_mem {s : List Char} (h : c ∉ s) : split [c] s = [s] :=
  split_of_cut?_none (by simp) (cut?_singleton_eq_none_iff.mpr h)

/-- **One text after another**, with the character between them: the fields of the one come before
the fields of the other. -/
theorem split_append (a b : List Char) :
    split [c] (a ++ [c] ++ b) = split [c] a ++ split [c] b := by
  induction hn : a.length using Nat.strongRecOn generalizing a with
  | _ n ih =>
    cases hcut : cut? [c] a with
    | none =>
      have hc := cut?_singleton_eq_none_iff.mp hcut
      rw [split_of_cut?_some (by simp) (cut?_singleton_append hc b), split_of_not_mem hc]
      rfl
    | some parts =>
      obtain ⟨before, after⟩ := parts
      have hlt := length_lt_of_cut? (by simp) hcut
      have hc := not_mem_of_cut?_singleton hcut
      have hcut' := cut?_singleton_append hc (after ++ [c] ++ b)
      rw [split_of_cut?_some (by simp) hcut]
      obtain rfl := eq_of_cut? hcut
      have hassoc : before ++ [c] ++ after ++ [c] ++ b = before ++ [c] ++ (after ++ [c] ++ b) := by
        simp
      rw [hassoc, split_of_cut?_some (by simp) hcut', ih after.length (by omega) after rfl]
      rfl

/-- No field has the character in it. -/
theorem not_mem_of_mem_split {s f : List Char} (h : f ∈ split [c] s) : c ∉ f := by
  induction hn : s.length using Nat.strongRecOn generalizing s with
  | _ n ih =>
    cases hcut : cut? [c] s with
    | none =>
      rw [split_of_cut?_none (by simp) hcut, List.mem_singleton] at h
      rw [h]
      exact cut?_singleton_eq_none_iff.mp hcut
    | some parts =>
      obtain ⟨before, after⟩ := parts
      have hlt := length_lt_of_cut? (by simp) hcut
      rw [split_of_cut?_some (by simp) hcut] at h
      rcases List.mem_cons.mp h with rfl | h
      · exact not_mem_of_cut?_singleton hcut
      · exact ih after.length (by omega) h rfl

/-- Joined texts are split one by one. -/
theorem split_intercalate {texts : List (List Char)} (h : texts ≠ []) :
    split [c] ([c].intercalate texts) = texts.flatMap (split [c]) := by
  induction texts with
  | nil => exact absurd rfl h
  | cons text rest ih =>
    cases rest with
    | nil => simp
    | cons next rest =>
      rw [List.intercalate_cons_cons, split_append, ih (by simp)]
      rfl

end Text

/-! ## 2. Items -/

namespace Parameter

/-- **The items of a text**: there is an item, no item has a comma in it, and with commas between
them they are the text. -/
structure AreItems (raw : String) (texts : List String) : Prop where
  nonempty : texts ≠ []
  undivided : ∀ text ∈ texts, ',' ∉ text.toList
  joined : ",".intercalate texts = raw

theorem items_of_not_mem {raw : String} (h : ',' ∉ raw.toList) : items raw = [raw] := by
  have hsplit : Text.split [','] raw.toList = [raw.toList] := Text.split_of_not_mem h
  rw [items, Text.splitString_eq_iff]
  exact hsplit

/-- The items of texts with commas between them are the items of the texts, in turn. -/
theorem items_intercalate {texts : List String} (h : texts ≠ []) :
    items (",".intercalate texts) = texts.flatMap items := by
  have hne : texts.map String.toList ≠ [] := by simpa using h
  have hsplit := Text.split_intercalate (c := ',') hne
  rw [items, Text.splitString_eq_iff, String.toList_intercalate, List.map_flatMap]
  rw [List.flatMap_map] at hsplit
  simpa [items, Text.splitString, Function.comp_def] using hsplit

/-- **A text has one list of items.** -/
theorem areItems_iff {raw : String} {texts : List String} :
    AreItems raw texts ↔ texts = items raw := by
  constructor
  · rintro ⟨hne, hcomma, rfl⟩
    have hitems : ∀ text ∈ texts, items text = [text] :=
      fun text htext => items_of_not_mem (hcomma text htext)
    rw [items_intercalate hne, List.flatMap_congr hitems]
    simp
  · rintro rfl
    refine ⟨?_, fun text htext => ?_, Text.intercalate_splitString "," raw⟩
    · simpa [items, Text.splitString] using Text.split_ne_nil (by simp) raw.toList
    · obtain ⟨field, hfield, rfl⟩ := List.mem_map.mp htext
      rw [String.toList_ofList]
      exact Text.not_mem_of_mem_split hfield

/-- Joined texts are found again if there is one and none has a comma in it. -/
theorem items_intercalate_eq_iff {texts : List String} :
    items (",".intercalate texts) = texts ↔
      texts ≠ [] ∧ ∀ text ∈ texts, ',' ∉ text.toList := by
  rw [eq_comm, ← areItems_iff]
  exact ⟨fun h => ⟨h.nonempty, h.undivided⟩, fun h => ⟨h.1, h.2, rfl⟩⟩

/-- **A list of texts is declared**, by the generic type or as a list of some type of resource. -/
def DeclaresTexts (declaration : Value) : Prop :=
  declaredType declaration = "CommaDelimitedList" ∨
    (Text.startsWith "List<AWS::" (declaredType declaration) = true ∧
      Text.endsWith ">" (declaredType declaration) = true)

theorem ofDeclared?_of_declaresTexts {declaration : Value} (h : DeclaresTexts declaration) :
    ParameterType.ofDeclared? (declaredType declaration) = some .stringList := by
  rcases h with h | ⟨hstart, hend⟩
  · rw [h]
    decide
  · have hne (other : String) (hother : Text.startsWith "List<AWS::" other = false) :
        declaredType declaration ≠ other := by
      rintro rfl
      rw [hstart] at hother
      cases hother
    have hstring := hne "String" (by decide)
    have hnumber := hne "Number" (by decide)
    have hgeneric := hne "CommaDelimitedList" (by decide)
    have hnumbers := hne "List<Number>" (by decide)
    simp [ParameterType.ofDeclared?, hstring, hnumber, hgeneric, hnumbers, hstart, hend]

/-- A supplied text is read by the declared type. -/
theorem value_of_supplied {name raw : String} {declaration : Value} {type : ParameterType}
    (h : ParameterType.ofDeclared? (declaredType declaration) = some type) :
    value name declaration (some raw) = interpret name raw type := by
  simp only [value, h]

/-- If none is supplied, so is the text of the default. -/
theorem value_of_default {name raw : String} {declaration : Value} {type : ParameterType}
    (h : ParameterType.ofDeclared? (declaredType declaration) = some type)
    (hraw : defaultText? (declaration.get? "Default") = some raw) :
    value name declaration none = interpret name raw type := by
  simp only [value, h, hraw]

/-- The text of a list of texts. -/
theorem defaultText?_strings (texts : List String) :
    defaultText? (some (.list (texts.map .string))) = some (",".intercalate texts) := by
  have hitems : (texts.map Value.string).map itemText = texts := by
    rw [List.map_map]
    exact List.map_id texts
  rw [defaultText?, hitems]

/-- **A list of texts as a default** comes back as the items of its text. -/
theorem value_of_texts {name : String} {declaration : Value} {texts : List String}
    (htexts : DeclaresTexts declaration)
    (hdefault : declaration.get? "Default" = some (.list (texts.map .string))) :
    value name declaration none =
      .ok (.list ((items (",".intercalate texts)).map .string)) := by
  have hraw : defaultText? (declaration.get? "Default") = some (",".intercalate texts) := by
    rw [hdefault, defaultText?_strings]
  rw [value_of_default (ofDeclared?_of_declaresTexts htexts) hraw]
  rfl

/-- A text that stands for no number is the error. -/
theorem interpret_number_error_iff {name text : String} {e : ResolutionError} :
    interpret name text .number = .error e ↔
      (∀ v, interpret name text .number ≠ .ok v) ∧ e = .invalidParameterValue name text := by
  rw [interpret, number]
  cases Number.ofText? text.toList with
  | some n => simp
  | none => simp [eq_comm]

theorem interpret_numberList (name raw : String) :
    interpret name raw .numberList =
      ((items raw).mapM fun text => interpret name text .number).map .list := rfl

/-- **A list of numbers** is a number for each item... -/
theorem interpret_numberList_ok_iff {name raw : String} {v : Value} :
    interpret name raw .numberList = .ok v ↔ ∃ vs, v = .list vs ∧
      List.Forall₂ (fun text v => interpret name text .number = .ok v) (items raw) vs := by
  rw [interpret_numberList, map_ok_iff]
  simp only [mapM_ok_iff]

/-- ...or the error of the first item that stands for none. -/
theorem interpret_numberList_error_iff {name raw : String} {e : ResolutionError} :
    interpret name raw .numberList = .error e ↔ ∃ before text after,
      items raw = before ++ text :: after ∧
      (∀ other ∈ before, ∃ v, interpret name other .number = .ok v) ∧
      interpret name text .number = .error e := by
  rw [interpret_numberList, map_error_iff, mapM_error_iff]

theorem exists_interpret_numberList_iff {name raw : String} :
    (∃ v, interpret name raw .numberList = .ok v) ↔
      ∀ text ∈ items raw, ∃ v, interpret name text .number = .ok v := by
  rw [interpret_numberList, ← exists_mapM_ok_iff]
  simp only [map_ok_iff, exists_comm, exists_eq_left]

end Parameter

/-- A list is written with commas. -/
theorem Value.plainText?_list_map {α : Type} {value : α → Value} {text : α → String}
    (h : ∀ x, (value x).plainText? = some (text x)) (xs : List α) :
    (Value.list (xs.map value)).plainText? = some (",".intercalate (xs.map text)) := by
  have htexts : plainTexts? (xs.map value) = some (xs.map text) := by
    induction xs with
    | nil => rfl
    | cons x rest ih => simp [plainTexts?, h, ih]
  rw [plainText?, htexts]
  rfl

theorem Value.plainText?_strings (texts : List String) :
    (Value.list (texts.map .string)).plainText? = some (",".intercalate texts) := by
  have hplain (text : String) : (Value.string text).plainText? = some text := rfl
  simpa using plainText?_list_map hplain texts

namespace Stack

open Parameter (AreItems DeclaresTexts declaredType interpret)
open Text (joinCall splitCall)

variable (stack : Stack) {name : String} {declaration : Value} {s : Session}

/-! ## 3. References to parameters -/

/-- The call of `Ref` for a name. -/
def referenceCall (name : String) : Value := .mapping [("Ref", .string name)]

/-- **A reference to a parameter** gives its value or its error with two levels, and leaves the
session as it is. -/
theorem resolveWithin_parameter (hname : PseudoParameter.ofName? name = none)
    (hdeclared : stack.template.parameter? name = some declaration) (levels : Nat) :
    stack.resolveWithin (levels + 2) (referenceCall name) s =
      (Parameter.value name declaration (stack.supplied.lookup name), s) := by
  rw [referenceCall, resolveWithin_ref]
  simp only [reference, hname, hdeclared]
  cases Parameter.value name declaration (stack.supplied.lookup name) <;> rfl

theorem resolve_parameter (hname : PseudoParameter.ofName? name = none)
    (hdeclared : stack.template.parameter? name = some declaration)
    (hs : 2 ≤ stack.levelsLeft s) :
    stack.resolve (referenceCall name) s =
      (Parameter.value name declaration (stack.supplied.lookup name), s) := by
  obtain ⟨levels, hlevels⟩ := Nat.exists_eq_add_of_le' hs
  rw [resolve, hlevels, stack.resolveWithin_parameter hname hdeclared]

/-- A placeholder for a parameter gives the plain text of its value. -/
theorem resolve_placeholderCall_parameter (hname : Placeholder.Plain name)
    (hdeclared : stack.template.parameter? name = some declaration)
    (hs : 2 ≤ stack.levelsLeft s) {v : Value} {text : String}
    (hvalue : Parameter.value name declaration (stack.supplied.lookup name) = .ok v)
    (htext : v.plainText? = some text) :
    stack.resolve (placeholderCall name) s = (.ok (.string text), s) := by
  have href := stack.resolve_parameter hname.unreserved hdeclared hs
  rw [hvalue, referenceCall, ← hname.asCall_eq] at href
  exact stack.resolve_placeholderCall_ok hname.toQuotable hs href htext

/-- **A list of texts** that are the items of a text: joined it is the text again, and so is the
placeholder. -/
theorem resolve_list_of_items (hname : Placeholder.Plain name)
    (hdeclared : stack.template.parameter? name = some declaration) {raw : String}
    (hvalue : Parameter.value name declaration (stack.supplied.lookup name) =
      .ok (.list ((Parameter.items raw).map .string))) {levels : Nat}
    (hs : stack.levelsLeft s = levels + 3) :
    stack.resolve (referenceCall name) s =
        (.ok (.list ((Parameter.items raw).map .string)), s) ∧
      stack.resolve (joinCall "," (referenceCall name)) s = (.ok (.string raw), s) ∧
      stack.resolve (placeholderCall name) s = (.ok (.string raw), s) := by
  have hjoined : ",".intercalate (Parameter.items raw) = raw := Text.intercalate_splitString _ _
  refine ⟨?_, ?_, ?_⟩
  · rw [stack.resolve_parameter hname.unreserved hdeclared (by omega), hvalue]
  · have href := stack.resolveWithin_parameter (s := s) hname.unreserved hdeclared levels
    rw [hvalue] at href
    rw [resolve, hs, stack.resolveWithin_joinCall "," href, hjoined]
  · have htext := Value.plainText?_strings (Parameter.items raw)
    rw [hjoined] at htext
    exact stack.resolve_placeholderCall_parameter hname hdeclared (by omega) hvalue htext

/-! ## 4. Text that is kept -/

section Lists

variable {raw : String} (hname : Placeholder.Plain name)
  (hdeclared : stack.template.parameter? name = some declaration)
  (hraw : stack.supplied.lookup name = some raw)
include hname hdeclared hraw

/-- **A list of texts** has the items of the text; joined it is the text again, and so is the
placeholder. -/
theorem resolve_list_of_texts (htexts : DeclaresTexts declaration) {levels : Nat}
    (hs : stack.levelsLeft s = levels + 3) :
    stack.resolve (referenceCall name) s =
        (.ok (.list ((Parameter.items raw).map .string)), s) ∧
      stack.resolve (joinCall "," (referenceCall name)) s = (.ok (.string raw), s) ∧
      stack.resolve (placeholderCall name) s = (.ok (.string raw), s) := by
  refine stack.resolve_list_of_items hname hdeclared ?_ hs
  rw [hraw, Parameter.value_of_supplied (Parameter.ofDeclared?_of_declaresTexts htexts)]
  rfl

/-- **A list of numbers** is read from the items of the text. -/
theorem resolve_list_of_numbers (hnumbers : declaredType declaration = "List<Number>")
    (hs : 2 ≤ stack.levelsLeft s) :
    stack.resolve (referenceCall name) s = (interpret name raw .numberList, s) := by
  have htype : ParameterType.ofDeclared? (declaredType declaration) = some .numberList := by
    rw [hnumbers]
    decide
  rw [stack.resolve_parameter hname.unreserved hdeclared hs, hraw,
    Parameter.value_of_supplied htype]

/-- **A list parameter neither loses nor invents text.**  The text that is supplied has one list of
items, which is what `Fn::Split` gives for it at a comma.

Declared as a list of texts, the parameter is this list; joined with commas it is the text again,
and so is a placeholder for it.

Declared as a list of numbers, it is the list of the numbers that the items stand for, in order, if
each of them stands for one; and otherwise the error is about the first item that does not. -/
theorem list_parameter_keeps_its_text (hlimit : 3 ≤ stack.config.maxDepth)
    (ops : List Operation) :
    let s := stack.after ops .start
    ∃ texts : List String, (∀ other, AreItems raw other ↔ other = texts) ∧
      stack.operate (.resolve (splitCall "," (.string raw))) s =
        (.ok (.value (.list (texts.map .string))), s) ∧
      (DeclaresTexts declaration →
        stack.operate (.resolve (referenceCall name)) s =
          (.ok (.value (.list (texts.map .string))), s) ∧
        stack.operate (.resolve (joinCall "," (referenceCall name))) s =
          (.ok (.value (.string raw)), s) ∧
        stack.operate (.resolve (placeholderCall name)) s = (.ok (.value (.string raw)), s)) ∧
      (declaredType declaration = "List<Number>" →
        ((∃ v, stack.operate (.resolve (referenceCall name)) s = (.ok (.value v), s)) ↔
          ∀ text ∈ texts, ∃ v, interpret name text .number = .ok v) ∧
        (∀ v, stack.operate (.resolve (referenceCall name)) s = (.ok (.value v), s) ↔
          ∃ vs, v = .list vs ∧
            List.Forall₂ (fun text v => interpret name text .number = .ok v) texts vs) ∧
        ∀ e, stack.operate (.resolve (referenceCall name)) s = (.error e, s) ↔
          ∃ before text after, texts = before ++ text :: after ∧
            (∀ other ∈ before, ∃ v, interpret name other .number = .ok v) ∧
            (∀ v, interpret name text .number ≠ .ok v) ∧
            e = .invalidParameterValue name text) := by
  intro s
  obtain ⟨levels, hlevels⟩ := Nat.exists_eq_add_of_le' hlimit
  have hs : stack.levelsLeft s = levels + 3 := by
    rw [stack.levelsLeft_after, hlevels]
  have hok {v w : Value} (h : stack.resolve v s = (.ok w, s)) :
      stack.operate (.resolve v) s = (.ok (.value w), s) := (stack.operate_resolve_ok_iff h).mpr rfl
  refine ⟨Parameter.items raw, fun other => Parameter.areItems_iff, hok ?_, ?_, ?_⟩
  · rw [resolve, hs]
    exact stack.resolveWithin_splitCall "," (stack.resolveWithin_string levels raw s)
  · intro htexts
    obtain ⟨href, hjoin, hsub⟩ := stack.resolve_list_of_texts hname hdeclared hraw htexts hs
    exact ⟨hok href, hok hjoin, hok hsub⟩
  · intro hnumbers
    have href := stack.resolve_list_of_numbers (s := s) hname hdeclared hraw hnumbers (by omega)
    refine ⟨?_, fun v => ?_, fun e => ?_⟩
    · simp only [stack.operate_resolve_ok_iff href, Parameter.exists_interpret_numberList_iff]
    · rw [stack.operate_resolve_ok_iff href, Parameter.interpret_numberList_ok_iff]
    · rw [stack.operate_resolve_error_iff href, Parameter.interpret_numberList_error_iff]
      simp only [Parameter.interpret_number_error_iff]

end Lists

/-- A list of subnets with blanks and an empty item, and a list of numbers with blanks in the
second of three items.  The one is kept as it is, and the other is refused for that item. -/
theorem blanks_and_empty_items_are_kept :
    let parameter := fun type : String => Value.mapping [("Type", .string type)]
    let sections := Value.mapping [("Parameters", .mapping
      [("Subnets", parameter "List<AWS::EC2::Subnet::Id>"), ("Ports", parameter "List<Number>")])]
    let stack := { (ofDocument sections).withLimit 3 with
      supplied := [("Subnets", "a, b,,"), ("Ports", "80, 81,82")] }
    3 ≤ stack.config.maxDepth ∧ Placeholder.Plain "Subnets" ∧ Placeholder.Plain "Ports" ∧
      (stack.operate (.resolve (referenceCall "Subnets")) .start).1 =
        .ok (.value (.list [.string "a", .string " b", .string "", .string ""])) ∧
      (stack.operate (.resolve (joinCall "," (referenceCall "Subnets"))) .start).1 =
        .ok (.value (.string "a, b,,")) ∧
      (stack.operate (.resolve (placeholderCall "Subnets")) .start).1 =
        .ok (.value (.string "a, b,,")) ∧
      (stack.operate (.resolve (referenceCall "Ports")) .start).1 =
        .error (.invalidParameterValue "Ports" " 81") := by
  intro parameter sections stack
  have hlimit : 3 ≤ stack.config.maxDepth := by decide
  have hsubnets : Placeholder.Plain "Subnets" := Placeholder.plain_of_alphanumeric (by decide)
  have hports : Placeholder.Plain "Ports" := Placeholder.plain_of_alphanumeric (by decide)
  have hraw : stack.supplied.lookup "Subnets" = some "a, b,," := rfl
  have hraw' : stack.supplied.lookup "Ports" = some "80, 81,82" := rfl
  obtain ⟨texts, hitems, -, htexts, -⟩ :=
    stack.list_parameter_keeps_its_text hsubnets rfl hraw hlimit []
  obtain ⟨ports, hitems', -, -, hnumbers⟩ :=
    stack.list_parameter_keeps_its_text hports rfl hraw' hlimit []
  have hfour : ["a", " b", "", ""] = texts :=
    (hitems _).mp ⟨by decide, by decide, by decide⟩
  have hthree : ["80", " 81", "82"] = ports :=
    (hitems' _).mp ⟨by decide, by decide, by decide⟩
  subst hfour hthree
  obtain ⟨href, hjoin, hsub⟩ := htexts (Or.inr ⟨by decide, by decide⟩)
  obtain ⟨-, -, herror⟩ := hnumbers rfl
  have hrefused := (herror _).mpr ⟨["80"], " 81", ["82"], rfl, ?_, ?_, rfl⟩
  · exact ⟨hlimit, hsubnets, hports, congrArg Prod.fst href, congrArg Prod.fst hjoin,
      congrArg Prod.fst hsub, congrArg Prod.fst hrefused⟩
  · intro other hother
    obtain rfl := List.mem_singleton.mp hother
    exact ⟨_, rfl⟩
  · intro v h
    cases h

/-! ## 5. Lists that are kept -/

/-- **A list as a default survives its text exactly when it can.**  Declared as a list of texts, and
without a supplied text, the parameter has a value, which is the default itself if and only if the
default has an item and none of its items has a comma in it.

In every case the items that come back are those of the text: none of them has a comma in it, and
joined they are what the items of the default are, joined.

A reference to the parameter gives these items, in every stack that declares it so, after any
operations; and to join them, or to fill in the parameter, gives their text. -/
theorem list_default_survives_iff (name : String) {declaration : Value} {texts : List String}
    (htexts : DeclaresTexts declaration)
    (hdefault : declaration.get? "Default" = some (.list (texts.map .string))) :
    (Parameter.value name declaration none = .ok (.list (texts.map .string)) ↔
      texts ≠ [] ∧ ∀ text ∈ texts, ',' ∉ text.toList) ∧
    ∃ found : List String,
      Parameter.value name declaration none = .ok (.list (found.map .string)) ∧
      AreItems (",".intercalate texts) found ∧
      ∀ (stack : Stack) (ops : List Operation), 3 ≤ stack.config.maxDepth →
        Placeholder.Plain name → stack.template.parameter? name = some declaration →
        stack.supplied.lookup name = none →
          let s := stack.after ops .start
          stack.operate (.resolve (referenceCall name)) s =
            (.ok (.value (.list (found.map .string))), s) ∧
          stack.operate (.resolve (joinCall "," (referenceCall name))) s =
            (.ok (.value (.string (",".intercalate texts))), s) ∧
          stack.operate (.resolve (placeholderCall name)) s =
            (.ok (.value (.string (",".intercalate texts))), s) := by
  have hvalue : Parameter.value name declaration none = _ :=
    Parameter.value_of_texts htexts hdefault
  refine ⟨?_, Parameter.items (",".intercalate texts), hvalue, Parameter.areItems_iff.mpr rfl, ?_⟩
  · have hinjective : Function.Injective (List.map Value.string) :=
      List.map_injective_iff.mpr fun _ _ h => Value.string.inj h
    rw [hvalue, Except.ok.injEq, Value.list.injEq, hinjective.eq_iff]
    exact Parameter.items_intercalate_eq_iff
  · intro stack ops hlimit hname hdeclared hsupplied s
    obtain ⟨levels, hlevels⟩ := Nat.exists_eq_add_of_le' hlimit
    have hs : stack.levelsLeft s = levels + 3 := by
      rw [stack.levelsLeft_after, hlevels]
    rw [← hsupplied] at hvalue
    obtain ⟨href, hjoin, hsub⟩ := stack.resolve_list_of_items hname hdeclared hvalue hs
    exact ⟨(stack.operate_resolve_ok_iff href).mpr rfl,
      (stack.operate_resolve_ok_iff hjoin).mpr rfl, (stack.operate_resolve_ok_iff hsub).mpr rfl⟩

/-- A default with an empty item and blanks, which survives; one with a comma in an item, which
comes back as three items; and the empty list, which comes back as one empty item. -/
theorem comma_in_default_divides_its_item :
    let declared := fun texts : List String => Value.mapping
      [("Type", .string "List<AWS::EC2::Subnet::Id>"), ("Default", .list (texts.map .string))]
    let stack := ofDocument (.mapping [("Parameters", .mapping [("Zones", declared ["a,b", "c"])])])
    DeclaresTexts (declared ["a,b", "c"]) ∧
    (declared ["a,b", "c"]).get? "Default" = some (.list [.string "a,b", .string "c"]) ∧
    Parameter.value "Zones" (declared ["a", "", " b"]) none =
      .ok (.list [.string "a", .string "", .string " b"]) ∧
    Parameter.value "Zones" (declared ["a,b", "c"]) none =
      .ok (.list [.string "a", .string "b", .string "c"]) ∧
    Parameter.value "Zones" (declared []) none = .ok (.list [.string ""]) ∧
    (stack.operate (.resolve (joinCall "," (referenceCall "Zones"))) .start).1 =
      .ok (.value (.string "a,b,c")) := by
  intro declared stack
  have htexts (texts : List String) : DeclaresTexts (declared texts) := by
    have htype : declaredType (declared texts) = "List<AWS::EC2::Subnet::Id>" := rfl
    exact Or.inr ⟨by rw [htype]; decide, by rw [htype]; decide⟩
  have hdefault (texts : List String) :
      (declared texts).get? "Default" = some (.list (texts.map .string)) := rfl
  obtain ⟨hkept, -⟩ :=
    list_default_survives_iff "Zones" (htexts ["a", "", " b"]) (hdefault ["a", "", " b"])
  obtain ⟨-, found, hfound, hitems, hstack⟩ :=
    list_default_survives_iff "Zones" (htexts ["a,b", "c"]) (hdefault ["a,b", "c"])
  obtain ⟨-, found', hfound', hitems', -⟩ :=
    list_default_survives_iff "Zones" (htexts []) (hdefault [])
  have hthree : found = ["a", "b", "c"] :=
    (Parameter.areItems_iff.mp hitems).trans
      (Parameter.areItems_iff.mp ⟨by decide, by decide, by decide⟩).symm
  have hone : found' = [""] :=
    (Parameter.areItems_iff.mp hitems').trans
      (Parameter.areItems_iff.mp ⟨by decide, by decide, by decide⟩).symm
  subst hthree hone
  have hname : Placeholder.Plain "Zones" := Placeholder.plain_of_alphanumeric (by decide)
  obtain ⟨-, hjoin, -⟩ := hstack stack [] (by decide) hname rfl rfl
  exact ⟨htexts _, hdefault _, hkept.mpr ⟨by decide, by decide⟩, hfound, hfound',
    congrArg Prod.fst hjoin⟩

end Stack
end StackTemplate
