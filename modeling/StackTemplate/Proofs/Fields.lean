import StackTemplate.Proofs.Balance
import StackTemplate.Proofs.Height

/-!
# Fields of a text

`Fn::Split` takes a text apart at a delimiter and `Fn::Join` puts fields together with one.  One way
round the two are inverse to each other for every delimiter, the empty one included: whatever the
fields are, nothing but the delimiters between them is missing (section 8 of the specification asks
for it where the delimiter is in no field).

The other way round they are not.  A delimiter may begin in a field and end in the delimiter after
it, and then the text is cut too early; so it is not enough that no field contains the delimiter.
What is enough, and has to be so, is that in each field with the delimiter after it the delimiter
occurs at the end only.  Nothing further to the right can matter, because an occurrence that begins
in the field is over before the delimiter after it is.

* `intercalate_split`: the fields of a text, joined, are the text.
* `cut?_append_iff`: where a field is cut off depends on the field and the delimiter alone.
* `split_intercalate_iff`: when the fields of a joined text are those that were joined.
* `resolveWithin_splitCall`, `resolveWithin_joinCall`: how many levels the two calls take.
-/

namespace StackTemplate

/-! ## 1. Splitting and joining texts -/

namespace Text

/-- `d` occurs in `s` at the offset `n`. -/
def OccursAt (d s : List Char) (n : Nat) : Prop := d <+: s.drop n

/-- The first occurrence of `d` in `s` is at the offset `n`. -/
def FirstOccursAt (d s : List Char) (n : Nat) : Prop :=
  OccursAt d s n ∧ ∀ m < n, ¬ OccursAt d s m

instance (d s : List Char) (n : Nat) : Decidable (OccursAt d s n) :=
  inferInstanceAs (Decidable (d <+: s.drop n))

instance (d s : List Char) (n : Nat) : Decidable (FirstOccursAt d s n) :=
  inferInstanceAs (Decidable (_ ∧ _))

theorem occursAt_append (d f : List Char) : OccursAt d (f ++ d) f.length := by
  simp [OccursAt]

/-- **A field is cut off behind its end** if the delimiter does not occur before, in the field with
the delimiter after it.  What comes next does not matter. -/
theorem cut?_append_iff {d f rest : List Char} :
    cut? d (f ++ d ++ rest) = some (f, rest) ↔ FirstOccursAt d (f ++ d) f.length := by
  rw [cut?_eq_some_iff, and_iff_right rfl, FirstOccursAt, and_iff_right (occursAt_append d f)]
  constructor
  · rintro hfirst m hm ⟨v, hv⟩
    have hcut : f ++ d ++ rest = (f ++ d).take m ++ d ++ (v ++ rest) :=
      calc
        f ++ d ++ rest = (f ++ d).take m ++ (f ++ d).drop m ++ rest := by
          rw [List.take_append_drop]
        _ = (f ++ d).take m ++ (d ++ v) ++ rest := by rw [hv]
        _ = (f ++ d).take m ++ d ++ (v ++ rest) := by simp only [List.append_assoc]
    have hle := hfirst _ _ hcut
    rw [List.length_take] at hle
    omega
  · intro hnone u v hs
    by_contra hlt
    -- the occurrence begins in the field, so it is over before the delimiter is
    refine hnone u.length (by omega) ?_
    have hd : d <+: (f ++ d ++ rest).drop u.length := by
      rw [hs, List.append_assoc, List.drop_left]
      exact List.prefix_append d v
    have hlength : u.length + d.length ≤ (f ++ d).length := by
      rw [List.length_append]
      omega
    rw [List.drop_append_of_le_length (by omega)] at hd
    refine List.prefix_of_prefix_length_le hd (List.prefix_append _ rest) ?_
    rw [List.length_drop]
    omega

/-- A text has a field. -/
theorem split_ne_nil {d : List Char} (hd : d ≠ []) (s : List Char) : split d s ≠ [] := by
  cases hcut : cut? d s with
  | none => simp [split_of_cut?_none hd hcut]
  | some parts => simp [split_of_cut?_some hd hcut]

/-- **The fields of a text, joined, are the text.** -/
theorem intercalate_split (d s : List Char) : d.intercalate (split d s) = s := by
  by_cases hd : d = []
  · subst hd
    rw [split_empty]
    induction s with
    | nil => rfl
    | cons c rest ih => cases rest <;> simp_all
  · induction hn : s.length using Nat.strongRecOn generalizing s with
    | _ n ih =>
      cases hcut : cut? d s with
      | none => rw [split_of_cut?_none hd hcut, List.intercalate_singleton]
      | some parts =>
        obtain ⟨before, after⟩ := parts
        have hlt := length_lt_of_cut? hd hcut
        rw [split_of_cut?_some hd hcut, List.intercalate_cons_of_ne_nil (split_ne_nil hd after),
          ih _ (by omega) after rfl]
        exact (eq_of_cut? hcut).symm

/-- One field after another: the first is cut off where it ends, and the others are the fields of
what comes after. -/
theorem split_append_iff {d : List Char} (hd : d ≠ []) {f rest : List Char}
    {fields : List (List Char)} (hfields : fields ≠ []) :
    split d (f ++ d ++ rest) = f :: fields ↔
      FirstOccursAt d (f ++ d) f.length ∧ split d rest = fields := by
  rw [← @cut?_append_iff d f rest]
  constructor
  · intro h
    cases hcut : cut? d (f ++ d ++ rest) with
    | none =>
      rw [split_of_cut?_none hd hcut] at h
      exact absurd (List.cons.inj h).2.symm hfields
    | some parts =>
      obtain ⟨before, after⟩ := parts
      rw [split_of_cut?_some hd hcut] at h
      obtain ⟨rfl, rfl⟩ := List.cons.inj h
      obtain rfl := List.append_cancel_left (eq_of_cut? hcut)
      exact ⟨rfl, rfl⟩
  · rintro ⟨hcut, hsplit⟩
    rw [split_of_cut?_some hd hcut, hsplit]

theorem split_eq_singleton_iff {d : List Char} (hd : d ≠ []) {s f : List Char} :
    split d s = [f] ↔ s = f ∧ ¬ d <:+: f := by
  cases hcut : cut? d s with
  | none =>
    rw [split_of_cut?_none hd hcut, List.cons.injEq, and_iff_left rfl]
    exact (and_iff_left_of_imp fun h => h ▸ cut?_eq_none_iff.mp hcut).symm
  | some parts =>
    rw [split_of_cut?_some hd hcut]
    simp only [List.cons.injEq, split_ne_nil hd, and_false, false_iff, not_and, not_not]
    rintro rfl
    exact ⟨parts.1, parts.2, (eq_of_cut? hcut).symm⟩

/-- **When the fields of a joined text are those that were joined**: there is a field; the delimiter
occurs in each field but the last, with the delimiter after it, at the end only; and it does not
occur in the last one. -/
theorem split_intercalate_iff {d : List Char} (hd : d ≠ []) {fields : List (List Char)} :
    split d (d.intercalate fields) = fields ↔ fields ≠ [] ∧
      (∀ f ∈ fields.dropLast, FirstOccursAt d (f ++ d) f.length) ∧
      ∀ f, fields.getLast? = some f → ¬ d <:+: f := by
  induction fields with
  | nil => simp [split_ne_nil hd]
  | cons f rest ih =>
    cases rest with
    | nil => simp [split_eq_singleton_iff hd]
    | cons g rest =>
      rw [List.intercalate_cons_cons, split_append_iff hd (by simp), ih]
      simp [and_assoc]

/-- The fields of a text, joined, are the text. -/
theorem intercalate_splitString (d s : String) : d.intercalate (splitString d s) = s := by
  rw [← String.toList_inj, String.toList_intercalate, splitString, List.map_map]
  simp [Function.comp_def, intercalate_split]

theorem splitString_eq_iff {d s : String} {fields : List String} :
    splitString d s = fields ↔ split d.toList s.toList = fields.map String.toList := by
  rw [splitString]
  constructor
  · rintro rfl
    simp [Function.comp_def]
  · intro h
    simp [h, Function.comp_def]

theorem splitString_intercalate_iff {d : String} (hd : d ≠ "") {fields : List String} :
    splitString d (d.intercalate fields) = fields ↔ fields ≠ [] ∧
      (∀ f ∈ fields.dropLast, FirstOccursAt d.toList (f ++ d).toList f.length) ∧
      ∀ f, fields.getLast? = some f → ¬ d.toList <:+: f.toList := by
  have hne : d.toList ≠ [] := by simpa using hd
  rw [splitString_eq_iff, String.toList_intercalate, split_intercalate_iff hne]
  simp [← List.map_dropLast, String.toList_append, String.length_toList]

/-! ## 2. The two calls -/

/-- The call of `Fn::Split` for a delimiter and a part that gives the text. -/
def splitCall (delimiter : String) (text : Value) : Value :=
  .mapping [("Fn::Split", .list [.string delimiter, text])]

/-- The call of `Fn::Join` for a delimiter and a part that gives the list. -/
def joinCall (delimiter : String) (list : Value) : Value :=
  .mapping [("Fn::Join", .list [.string delimiter, list])]

end Text

/-- Texts can be joined. -/
theorem Intrinsic.joinTexts_map_string (texts : List String) :
    joinTexts (texts.map .string) = .ok texts := by
  induction texts with
  | nil => rfl
  | cons text rest ih =>
    rw [List.map_cons, joinTexts, ih]
    rfl

namespace Stack

open Text (joinCall splitCall)

variable (stack : Stack) {levels : Nat} {s s' : Session}

theorem resolveWithin_string (levels : Nat) (text : String) (s : Session) :
    stack.resolveWithin (levels + 1) (.string text) s = (.ok (.string text), s) := by
  rw [resolveWithin_succ]
  rfl

/-- Texts stand for themselves. -/
theorem resolveWithin_strings (levels : Nat) (texts : List String) (s : Session) :
    stack.resolveWithin (levels + 2) (.list (texts.map .string)) s =
      (.ok (.list (texts.map .string)), s) := by
  refine stack.resolveWithin_of_callFree (Value.callFree_list_iff.mpr fun v hv => ?_)
    (Value.height_list_le_iff.mpr fun v hv => ?_) s
  · obtain ⟨text, -, rfl⟩ := List.mem_map.mp hv
    exact Value.callFree_string text
  · obtain ⟨text, -, rfl⟩ := List.mem_map.mp hv
    simp [Value.height]

theorem run_ask_string (levels : Nat) (text : String) (s : Session) :
    (Plan.ask (.string text)).run (stack.resolveWithin (levels + 1)) s =
      (.ok (.string text), s) := by
  rw [Plan.run_ask, resolveWithin_string]

/-- A text and a part that gives a value, in a list. -/
theorem resolveWithin_pair {text : String} {v w : Value}
    (h : stack.resolveWithin (levels + 1) v s = (.ok w, s')) :
    stack.resolveWithin (levels + 2) (.list [.string text, v]) s =
      (.ok (.list [.string text, w]), s') := by
  have hv : (Plan.ask v).run (stack.resolveWithin (levels + 1)) s = (.ok w, s') := by
    rwa [Plan.run_ask]
  rw [resolveWithin_succ]
  refine run_map_ok Value.list ?_
  rw [List.mapM_cons, Plan.run_bind_ok (stack.run_ask_string levels text s), List.mapM_cons,
    bind_assoc, Plan.run_bind_ok hv]
  rfl

/-- **Splitting** takes three levels: for the call, for its argument, and for the text. -/
theorem resolveWithin_splitCall (delimiter : String) {text : String} {v : Value}
    (h : stack.resolveWithin (levels + 1) v s = (.ok (.string text), s')) :
    stack.resolveWithin (levels + 3) (splitCall delimiter v) s =
      (.ok (.list ((Text.splitString delimiter text).map .string)), s') := by
  have harg : (Plan.ask (.list [.string delimiter, v])).run (stack.resolveWithin (levels + 2)) s =
      (.ok (.list [.string delimiter, .string text]), s') := by
    rw [Plan.run_ask, stack.resolveWithin_pair h]
  rw [resolveWithin_succ]
  change (callSplit (.list [.string delimiter, v])).run (stack.resolveWithin (levels + 2)) s = _
  rw [callSplit, Intrinsic.askStrings, bind_assoc, Plan.run_bind_ok harg]
  rfl

/-- **Joining** takes two levels: for the call and for its list. -/
theorem resolveWithin_joinCall (delimiter : String) {v : Value} {texts : List String}
    (h : stack.resolveWithin (levels + 1) v s = (.ok (.list (texts.map .string)), s')) :
    stack.resolveWithin (levels + 2) (joinCall delimiter v) s =
      (.ok (.string (delimiter.intercalate texts)), s') := by
  have hlist : (Plan.ask v).run (stack.resolveWithin (levels + 1)) s =
      (.ok (.list (texts.map .string)), s') := by
    rwa [Plan.run_ask]
  rw [resolveWithin_succ]
  change (callJoin (.list [.string delimiter, v])).run (stack.resolveWithin (levels + 1)) s = _
  rw [callJoin, joinParts, bind_assoc, Plan.run_bind_ok hlist]
  simp only [bind_assoc, Plan.run_bind, run_askString, pure_bind, Intrinsic.joinTexts_map_string]
  rfl

/-! ## 3. One after the other -/

/-- What a value is resolved to with all levels, it is resolved to between operations. -/
theorem operate_resolve_of_resolveWithin (ops : List Operation) {v w : Value}
    (h : stack.resolveWithin stack.config.maxDepth v (stack.after ops .start) = (.ok w, s')) :
    stack.operate (.resolve v) (stack.after ops .start) = (.ok (.value w), s') := by
  have hresolve : stack.resolve v (stack.after ops .start) = (.ok w, s') := by
    rw [resolve, levelsLeft_after, h]
  exact (stack.operate_resolve_ok_iff hresolve).mpr rfl

/-- **To join undoes to split**, for every delimiter and every text, with four levels. -/
theorem join_undoes_split (hlimit : 4 ≤ stack.config.maxDepth) (ops : List Operation)
    (delimiter text : String) :
    stack.operate (.resolve (joinCall delimiter (splitCall delimiter (.string text))))
        (stack.after ops .start) =
      (.ok (.value (.string text)), stack.after ops .start) := by
  obtain ⟨levels, hlevels⟩ := Nat.exists_eq_add_of_le' hlimit
  have htext := stack.resolveWithin_string levels text (stack.after ops .start)
  have hfields := stack.resolveWithin_splitCall delimiter htext
  have hjoined := stack.resolveWithin_joinCall delimiter hfields
  refine stack.operate_resolve_of_resolveWithin ops ?_
  rw [hlevels, hjoined, Text.intercalate_splitString]

/-- Four levels, a delimiter that overlaps itself in the text, and the empty delimiter. -/
theorem overlapping_delimiter_is_undone :
    let stack := (ofDocument (.mapping [])).withLimit 4
    4 ≤ stack.config.maxDepth ∧
      (stack.operate (.resolve (joinCall "aa" (splitCall "aa" (.string "aaa")))) .start).1 =
        .ok (.value (.string "aaa")) ∧
      (stack.operate (.resolve (joinCall "" (splitCall "" (.string "aaa")))) .start).1 =
        .ok (.value (.string "aaa")) := by
  intro stack
  have hlimit : 4 ≤ stack.config.maxDepth := by decide
  have hoverlapping := stack.join_undoes_split hlimit [] "aa" "aaa"
  have hempty := stack.join_undoes_split hlimit [] "" "aaa"
  exact ⟨hlimit, congrArg Prod.fst hoverlapping, congrArg Prod.fst hempty⟩

/-- **When to split undoes to join**, for every nonempty delimiter and every list of texts, with
five levels: there is a text; the delimiter occurs in each text but the last, with the delimiter
after it, at the end only; and it does not occur in the last one. -/
theorem split_undoes_join_iff (hlimit : 5 ≤ stack.config.maxDepth) (ops : List Operation)
    {delimiter : String} (hdelimiter : delimiter ≠ "") (texts : List String) :
    (stack.operate (.resolve (splitCall delimiter (joinCall delimiter
        (.list (texts.map .string))))) (stack.after ops .start)).1 =
      .ok (.value (.list (texts.map .string))) ↔
    texts ≠ [] ∧
      (∀ text ∈ texts.dropLast,
        Text.FirstOccursAt delimiter.toList (text ++ delimiter).toList text.length) ∧
      ∀ text, texts.getLast? = some text → ¬ delimiter.toList <:+: text.toList := by
  obtain ⟨levels, hlevels⟩ := Nat.exists_eq_add_of_le' hlimit
  have htexts := stack.resolveWithin_strings levels texts (stack.after ops .start)
  have hjoined := stack.resolveWithin_joinCall delimiter htexts
  have hsplit := stack.resolveWithin_splitCall delimiter hjoined
  have hrun := stack.operate_resolve_of_resolveWithin ops (hlevels ▸ hsplit)
  rw [hrun, ← Text.splitString_intercalate_iff hdelimiter]
  have hinjective : Function.Injective (List.map Value.string) :=
    List.map_injective_iff.mpr fun _ _ h => Value.string.inj h
  simp [hinjective.eq_iff]

/-- Two lists that give the same joined text.  The first is found again; the second is not, though
neither of its texts contains the delimiter, because the delimiter begins in the first of them. -/
theorem earlier_delimiter_is_found :
    let stack := (ofDocument (.mapping [])).withLimit 5
    let resplit := fun texts : List String => (stack.operate (.resolve (splitCall "aa"
      (joinCall "aa" (.list (texts.map .string))))) .start).1
    5 ≤ stack.config.maxDepth ∧ "aa" ≠ "" ∧
      "aa".intercalate ["x", "a"] = "aa".intercalate ["xa", ""] ∧
      resplit ["x", "a"] = .ok (.value (.list [.string "x", .string "a"])) ∧
      resplit ["xa", ""] ≠ .ok (.value (.list [.string "xa", .string ""])) := by
  intro stack resplit
  have hlimit : 5 ≤ stack.config.maxDepth := by decide
  have hdelimiter : "aa" ≠ "" := by decide
  refine ⟨hlimit, hdelimiter, by decide, ?_, ?_⟩
  · refine (stack.split_undoes_join_iff hlimit [] hdelimiter ["x", "a"]).mpr ⟨by simp, ?_, ?_⟩
    · decide
    · rintro text ⟨rfl⟩
      decide
  · intro h
    obtain ⟨-, hfirst, -⟩ := (stack.split_undoes_join_iff hlimit [] hdelimiter ["xa", ""]).mp h
    exact absurd (hfirst "xa" (by simp)) (by decide)

end Stack
end StackTemplate
