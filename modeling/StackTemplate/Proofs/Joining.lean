import StackTemplate.Proofs.History

/-!
# The two forms of a join

`Fn::Join` takes a delimiter and a list, or a list alone.  Which of the two an argument is cannot
be seen from how it is written: a list of two items is a delimiter and a list if its second item
*resolves to* a list, and else it is itself the list.  So the second item is resolved before the
form is known, and in the second form once more, one level deeper, as an item of the whole argument.

None of this is in the definition of a join: it speaks of one value for each part.  That the code
meets the definition all the same is so because a part has one value, whenever and however often it
is asked for (`Gives.unique`).

* `Joining.ofItems`: the items of a list, joined.
* `Stack.Joins`: the definition, in terms of what the parts resolve to.
* `resolvesTo_join_iff`: what a call of `Fn::Join` resolves to is what the definition says.
-/

namespace StackTemplate

/-! ## 1. The definition -/

namespace Joining

/-- A value that may stand among the items: a text, or the no-value, which is left out. -/
def Item (v : Value) : Prop := v.kind = .string ∨ v.kind = .null

instance : DecidablePred Item := fun v =>
  inferInstanceAs (Decidable (v.kind = .string ∨ v.kind = .null))

/-- **The items of a list, joined**: the texts among them with the delimiter between one and the
next.  Nulls leave nothing behind, not even a delimiter, and any other item is an error. -/
def ofItems (delimiter : String) (items : List Value) : Except ResolutionError Value :=
  match items.find? fun v => ¬ Item v with
  | none => .ok (.string (delimiter.intercalate (items.filterMap Value.asString?)))
  | some v => .error (.invalidArguments .join (.itemNotString v.kind))

/-- The values of two items, joined.  If the second is a list, the first must be a text and is the
delimiter; else the two are themselves the list. -/
def ofPair : Value → Value → Except ResolutionError Value
  | .string delimiter, .list items => ofItems delimiter items
  | v, .list _ => .error (.invalidArguments .join (.notString .delimiter v.kind))
  | v, w => ofItems "" [v, w]

/-- The value of an argument that is not written as a list of two items, joined. -/
def ofWhole : Value → Except ResolutionError Value
  | .list items => ofItems "" items
  | v => .error (.invalidArguments .join (.notList v.kind))

end Joining

/-- **The definition of a join**: what the call of `Fn::Join` with an argument ends with, if each
part resolves to one value or fails with one error.  The second of two items comes first. -/
inductive Stack.Joins (stack : Stack) : Value → Except ResolutionError Value → Prop
  | pair {a b v w : Value} (hb : stack.ResolvesTo b (.ok w)) (ha : stack.ResolvesTo a (.ok v)) :
      Joins stack (.list [a, b]) (Joining.ofPair v w)
  | secondFails {a b : Value} {e : ResolutionError} (hb : stack.ResolvesTo b (.error e)) :
      Joins stack (.list [a, b]) (.error e)
  | firstFails {a b w : Value} {e : ResolutionError} (hb : stack.ResolvesTo b (.ok w))
      (ha : stack.ResolvesTo a (.error e)) : Joins stack (.list [a, b]) (.error e)
  | whole {arg v : Value} (hform : ∀ a b, arg ≠ .list [a, b])
      (harg : stack.ResolvesTo arg (.ok v)) : Joins stack arg (Joining.ofWhole v)
  | wholeFails {arg : Value} {e : ResolutionError} (hform : ∀ a b, arg ≠ .list [a, b])
      (harg : stack.ResolvesTo arg (.error e)) : Joins stack arg (.error e)

/-! ## 2. The items -/

namespace Joining

variable {items : List Value}

theorem joinTexts_of_forall (h : ∀ v ∈ items, Item v) :
    Intrinsic.joinTexts items = .ok (items.filterMap Value.asString?) := by
  induction items with
  | nil => rfl
  | cons v rest ih =>
    obtain ⟨hv, hrest⟩ := List.forall_mem_cons.mp h
    cases v with
    | string text =>
      rw [Intrinsic.joinTexts, ih hrest]
      rfl
    | null => exact ih hrest
    | boolean | number | list | mapping => simp [Item, Value.kind] at hv

theorem joinTexts_of_find? {v : Value} (h : (items.find? fun v => ¬ Item v) = some v) :
    Intrinsic.joinTexts items = .error v.kind := by
  induction items with
  | nil => cases h
  | cons w rest ih =>
    rw [List.find?_cons] at h
    cases w with
    | string text =>
      rw [Intrinsic.joinTexts, ih h]
      rfl
    | null => exact ih h
    | boolean | number | list | mapping =>
      cases h
      rfl

/-- Two items of which the second is no list are a list. -/
theorem ofPair_of_not_list {v w : Value} (hw : w.kind ≠ .list) :
    ofPair v w = ofWhole (.list [v, w]) := by
  cases w with
  | list items => exact absurd rfl hw
  | null | boolean | number | string | mapping => cases v <;> rfl

/-- The depth is no matter of the items. -/
theorem ofItems_not_outOfDepth (delimiter : String) (items : List Value) :
    ¬ OutOfDepth (ofItems delimiter items) := by
  unfold ofItems
  split
  · exact not_outOfDepth_ok _
  · rw [outOfDepth_error_iff]
    rintro ⟨limit, h⟩
    cases h

/-- A call of `Fn::Join` finds out the delimiter and the items, and then joins them. -/
theorem callJoin_eq (arg : Value) :
    Stack.callJoin arg = Stack.joinParts arg >>= fun parts =>
      .ofExcept (ofItems parts.1 parts.2) := by
  refine congrArg (Stack.joinParts arg >>= ·) (funext fun ⟨delimiter, items⟩ => ?_)
  cases hfind : items.find? fun v => ¬ Item v with
  | none =>
    have hitems : ∀ v ∈ items, Item v := by simpa using hfind
    simp only [joinTexts_of_forall hitems, ofItems, hfind]
    rfl
  | some v =>
    simp only [joinTexts_of_find? hfind, ofItems, hfind]
    rfl

end Joining

/-! ## 3. The calls -/

namespace Stack

open Joining

variable {stack : Stack} {busy : Set String} {arg a b v w : Value}

theorem gives_ofExcept {α : Type} {outcome : Except ResolutionError α} (h : ¬ OutOfDepth outcome) :
    stack.Gives busy (.ofExcept outcome) outcome := by
  cases outcome with
  | ok a => exact .done a
  | error e => exact .fail fun limit he => h (outOfDepth_error_iff.mpr ⟨limit, he⟩)

/-- A call that finds out the delimiter and the items. -/
theorem gives_callJoin_of_parts {delimiter : String} {items : List Value}
    (h : stack.Gives busy (joinParts arg) (.ok (delimiter, items))) :
    stack.Gives busy (callJoin arg) (ofItems delimiter items) := by
  rw [callJoin_eq]
  exact h.bind (gives_ofExcept (ofItems_not_outOfDepth delimiter items))

theorem gives_reject {α : Type} (f : Intrinsic) (fault : ArgumentFault) :
    stack.Gives busy (f.reject fault : Plan α) (.error (.invalidArguments f fault)) := by
  refine .fail ?_
  intro limit h
  cases h

/-- The second item is a list, so the first is the delimiter. -/
theorem gives_callJoin_of_list {items : List Value}
    (hb : stack.Gives busy (stack.plan b) (.ok (.list items)))
    (ha : stack.Gives busy (stack.plan a) (.ok v)) :
    stack.Gives busy (callJoin (.list [a, b])) (ofPair v (.list items)) := by
  have haskb : stack.Gives busy (Plan.ask b) (.ok (.list items)) := gives_ask_iff.mpr hb
  have haska : stack.Gives busy (Plan.ask a) (.ok v) := gives_ask_iff.mpr ha
  cases v with
  | string delimiter =>
    have htext : stack.Gives busy (Intrinsic.join.askString .delimiter a) (.ok delimiter) :=
      haska.bind (.done delimiter)
    exact gives_callJoin_of_parts (haskb.bind (htext.bind (.done (delimiter, items))))
  | null | boolean | number | list | mapping =>
    have hfault : stack.Gives busy (Intrinsic.join.askString .delimiter a) (.error _) :=
      haska.bind (gives_reject .join _)
    have hparts : stack.Gives busy (joinParts (.list [a, b])) (.error _) :=
      haskb.bind (hfault.bind_error _)
    exact hparts.bind_error _

/-- The whole argument is the list, as its items have been seen to be written. -/
theorem gives_callJoin_of_whole
    (hwhole : ∀ outcome, stack.Gives busy (joinWhole arg) outcome →
      stack.Gives busy (joinParts arg) outcome)
    (h : stack.Gives busy (stack.plan arg) (.ok v)) :
    stack.Gives busy (callJoin arg) (ofWhole v) := by
  have hask : stack.Gives busy (Plan.ask arg) (.ok v) := gives_ask_iff.mpr h
  cases v with
  | list items => exact gives_callJoin_of_parts (hwhole _ (hask.bind (.done ("", items))))
  | null | boolean | number | string | mapping =>
    exact (hwhole _ (hask.bind (gives_reject .join _))).bind_error _

theorem joinParts_of_form (hform : ∀ a b, arg ≠ .list [a, b]) : joinParts arg = joinWhole arg := by
  unfold joinParts
  split
  · next a b => exact absurd rfl (hform a b)
  · rfl

/-- The second item is no list, so the whole argument is, and its items are resolved again. -/
theorem gives_joinParts_of_not_list (hb : stack.Gives busy (stack.plan b) (.ok w))
    (hw : w.kind ≠ .list) (outcome : Except ResolutionError (String × List Value))
    (h : stack.Gives busy (joinWhole (.list [a, b])) outcome) :
    stack.Gives busy (joinParts (.list [a, b])) outcome := by
  refine (gives_ask_iff.mpr hb).bind ?_
  cases w with
  | list items => exact absurd rfl hw
  | null | boolean | number | string | mapping => exact h

theorem gives_pair (ha : stack.Gives busy (stack.plan a) (.ok v))
    (hb : stack.Gives busy (stack.plan b) (.ok w)) :
    stack.Gives busy (stack.plan (.list [a, b])) (.ok (.list [v, w])) := by
  refine gives_map_ok_iff.mpr ⟨[v, w], ?_, rfl⟩
  exact .resolve ha (.resolve hb (.done _))

theorem gives_callJoin_of_pair (hb : stack.Gives busy (stack.plan b) (.ok w))
    (ha : stack.Gives busy (stack.plan a) (.ok v)) :
    stack.Gives busy (callJoin (.list [a, b])) (ofPair v w) := by
  cases w with
  | list items => exact gives_callJoin_of_list hb ha
  | null | boolean | number | string | mapping =>
    rw [ofPair_of_not_list (by simp [Value.kind])]
    refine gives_callJoin_of_whole ?_ (gives_pair ha hb)
    exact gives_joinParts_of_not_list hb (by simp [Value.kind])

/-- The first item fails in both forms, as the delimiter or as an item. -/
theorem gives_joinParts_of_first_error {e : ResolutionError}
    (hb : stack.Gives busy (stack.plan b) (.ok w))
    (ha : stack.Gives busy (stack.plan a) (.error e)) :
    stack.Gives busy (joinParts (.list [a, b])) (.error e) := by
  have haskb : stack.Gives busy (Plan.ask b) (.ok w) := gives_ask_iff.mpr hb
  have haska : stack.Gives busy (Plan.ask a) (.error e) := gives_ask_iff.mpr ha
  cases w with
  | list items => exact haskb.bind ((haska.bind_error _).bind_error _)
  | null | boolean | number | string | mapping =>
    have hitems : stack.Gives busy (stack.plan (.list [a, b])) (.error e) :=
      gives_map_error_iff.mpr (gives_mapM_cons_error_iff.mpr (Or.inl haska))
    exact haskb.bind ((gives_ask_iff.mpr hitems).bind_error _)

/-- **A call ends with what the definition says.** -/
theorem Joins.gives {outcome : Except ResolutionError Value} (h : stack.Joins arg outcome) :
    stack.Gives ∅ (callJoin arg) outcome := by
  induction h with
  | pair hb ha =>
    exact gives_callJoin_of_pair (resolvesTo_iff_gives.mp hb) (resolvesTo_iff_gives.mp ha)
  | @secondFails a b e hb =>
    have hask : stack.Gives ∅ (Plan.ask b) (.error e) :=
      gives_ask_iff.mpr (resolvesTo_iff_gives.mp hb)
    have hparts : stack.Gives ∅ (joinParts (.list [a, b])) (.error e) := hask.bind_error _
    exact hparts.bind_error _
  | firstFails hb ha =>
    rw [resolvesTo_iff_gives] at hb ha
    exact (gives_joinParts_of_first_error hb ha).bind_error _
  | whole hform harg =>
    rw [resolvesTo_iff_gives] at harg
    refine gives_callJoin_of_whole ?_ harg
    intro outcome h
    rwa [joinParts_of_form hform]
  | @wholeFails arg e hform harg =>
    have hask : stack.Gives ∅ (Plan.ask arg) (.error e) :=
      gives_ask_iff.mpr (resolvesTo_iff_gives.mp harg)
    have hparts : stack.Gives ∅ (joinParts arg) (.error e) := by
      rw [joinParts_of_form hform]
      exact hask.bind_error _
    exact hparts.bind_error _

/-- Both items are asked for, in both forms, unless the second one fails. -/
theorem gives_joinParts_cases {outcome : Except ResolutionError (String × List Value)}
    (h : stack.Gives busy (joinParts (.list [a, b])) outcome) :
    (∃ e, stack.Gives busy (stack.plan b) (.error e)) ∨
      ∃ w, stack.Gives busy (stack.plan b) (.ok w) ∧
        ∃ first, stack.Gives busy (stack.plan a) first := by
  rcases gives_bind_iff.mp h with ⟨w, hb, hrest⟩ | ⟨e, -, he⟩
  · refine Or.inr ⟨w, gives_ask_iff.mp hb, ?_⟩
    cases w with
    | list items =>
      obtain ⟨_, hdelimiter⟩ := exists_gives_of_bind hrest
      obtain ⟨first, hfirst⟩ := exists_gives_of_bind hdelimiter
      exact ⟨first, gives_ask_iff.mp hfirst⟩
    | null | boolean | number | string | mapping =>
      obtain ⟨_, hwhole⟩ := exists_gives_of_bind hrest
      obtain ⟨_, hitems, -⟩ := gives_map_iff.mp (gives_ask_iff.mp hwhole)
      rw [List.mapM_cons] at hitems
      obtain ⟨first, hfirst⟩ := exists_gives_of_bind hitems
      exact ⟨first, gives_ask_iff.mp hfirst⟩
  · exact Or.inl ⟨e, gives_ask_iff.mp he⟩

/-- **The definition covers every call** that ends. -/
theorem exists_joins {outcome : Except ResolutionError Value}
    (h : stack.Gives ∅ (callJoin arg) outcome) : ∃ outcome', stack.Joins arg outcome' := by
  obtain ⟨_, hparts⟩ := exists_gives_of_bind h
  by_cases hform : ∃ a b, arg = .list [a, b]
  · obtain ⟨a, b, rfl⟩ := hform
    rcases gives_joinParts_cases hparts with ⟨e, hb⟩ | ⟨w, hb, e | v, ha⟩
    · exact ⟨_, .secondFails (resolvesTo_iff_gives.mpr hb)⟩
    · exact ⟨_, .firstFails (resolvesTo_iff_gives.mpr hb) (resolvesTo_iff_gives.mpr ha)⟩
    · exact ⟨_, .pair (resolvesTo_iff_gives.mpr hb) (resolvesTo_iff_gives.mpr ha)⟩
  · have hform : ∀ a b, arg ≠ .list [a, b] := fun a b h => hform ⟨a, b, h⟩
    rw [joinParts_of_form hform] at hparts
    obtain ⟨e | v, hask⟩ := exists_gives_of_bind hparts
    · exact ⟨_, .wholeFails hform (resolvesTo_iff_gives.mpr (gives_ask_iff.mp hask))⟩
    · exact ⟨_, .whole hform (resolvesTo_iff_gives.mpr (gives_ask_iff.mp hask))⟩

/-- **What a call of `Fn::Join` resolves to is what the definition says**, for every argument: it
resolves to an outcome, depth aside, if and only if the definition has that outcome; and under every
limit, after any operations, it runs out of depth or ends with an outcome of the definition. -/
theorem join_meets_definition (stack : Stack) (arg : Value) :
    (∀ outcome, stack.ResolvesTo (.mapping [("Fn::Join", arg)]) outcome ↔
      stack.Joins arg outcome) ∧
    ∀ limit ops,
      stack.resolvedUnder limit ops (.mapping [("Fn::Join", arg)]) =
        .error (.depthExceeded limit) ∨
      ∃ outcome, stack.Joins arg outcome ∧
        stack.resolvedUnder limit ops (.mapping [("Fn::Join", arg)]) = outcome.map .value := by
  have hiff : ∀ outcome, stack.Gives ∅ (callJoin arg) outcome ↔ stack.Joins arg outcome := by
    intro outcome
    constructor
    · intro h
      obtain ⟨outcome', hjoins⟩ := exists_joins h
      cases h.unique hjoins.gives
      exact hjoins
    · exact Joins.gives
  refine ⟨fun outcome => resolvesTo_iff_gives.trans (hiff outcome), fun limit ops => ?_⟩
  refine (stack.resolvedUnder_cases limit ops _).imp_right ?_
  rintro ⟨outcome, hgives, hrun⟩
  exact ⟨outcome, (hiff outcome).mp hgives, hrun⟩

/-- The second item is a call of a text, so the two items are the list, and not a list by itself. -/
example : (ofDocument (.mapping [])).resolvedUnder 9 [] (.mapping [("Fn::Join",
    .list [.string "in ", .mapping [("Ref", .string "AWS::Region")]])]) =
      .ok (.value (.string "in eu-west-1")) := by rfl

end Stack
end StackTemplate
