import StackTemplate.Proofs.Eventual
import StackTemplate.Proofs.Postcondition

/-!
# Nothing is left to resolve

What a value resolves to has no calls in it, so resolving it again changes nothing.  Calls give
texts, numbers, truth values and lists of these, or parts of values that have been resolved.  The
one way in for a call is a look-up table, whose entries are given as they are written.

Data stays data.  A mapping may hold a key of a function and be no call, because `Condition`
claims names only; so it has to be shown that a part that is no name does not become one
(`Value.Clears`).

* `sustains_clears`: every value that is resolved is free of calls.
* `resolveWithin_of_callFree`: a value that is free of calls stands for itself in every session, if
  as many levels are left as it is high.
-/

namespace StackTemplate

/-! ## 1. Values without calls -/

/-- What is looked up in a list is one of its entries. -/
theorem mem_of_lookup {α : Type} {entries : List (String × α)} {key : String} {a : α}
    (h : entries.lookup key = some a) : (key, a) ∈ entries := by
  obtain ⟨before, after, rfl, -⟩ := List.lookup_eq_some_iff.mp h
  exact List.mem_append_right _ List.mem_cons_self

namespace Value

/-- The value `u` stands in the value, at any depth. -/
inductive Contains : Value → Value → Prop
  | self (v : Value) : Contains v v
  | item {items : List Value} {v u : Value} (hv : v ∈ items) (hu : Contains v u) :
      Contains (.list items) u
  | entry {entries : Entries} {e : String × Value} {u : Value} (he : e ∈ entries)
      (hu : Contains e.2 u) : Contains (.mapping entries) u

/-- **No mapping in the value is a call**, at any depth. -/
def CallFree (v : Value) : Prop :=
  ∀ entries, v.Contains (.mapping entries) → Intrinsic.ofCall? entries = none

mutual

/-- **The height of a value**: one more than that of the highest of its parts. -/
def height : Value → Nat
  | .list items => itemsHeight items + 1
  | .mapping entries => entriesHeight entries + 1
  | _ => 1

def itemsHeight : List Value → Nat
  | [] => 0
  | v :: rest => max v.height (itemsHeight rest)

def entriesHeight : Entries → Nat
  | [] => 0
  | (_, v) :: rest => max v.height (entriesHeight rest)

end

theorem callFree_null : CallFree .null := by
  intro entries h
  cases h

theorem callFree_boolean (b : Bool) : CallFree (.boolean b) := by
  intro entries h
  cases h

theorem callFree_number (n : Number) : CallFree (.number n) := by
  intro entries h
  cases h

theorem callFree_string (s : String) : CallFree (.string s) := by
  intro entries h
  cases h

theorem callFree_list_iff {items : List Value} :
    (Value.list items).CallFree ↔ ∀ v ∈ items, v.CallFree := by
  constructor
  · intro h v hv entries hentries
    exact h entries (.item hv hentries)
  · intro h entries hentries
    cases hentries with
    | item hv hu => exact h _ hv entries hu

theorem callFree_mapping_iff {entries : Entries} :
    (Value.mapping entries).CallFree ↔
      Intrinsic.ofCall? entries = none ∧ ∀ e ∈ entries, e.2.CallFree := by
  constructor
  · intro h
    exact ⟨h entries (.self _), fun e he other hother => h other (.entry he hother)⟩
  · rintro ⟨hc, h⟩ other hother
    cases hother with
    | self => exact hc
    | entry he hu => exact h _ he other hu

/-- What is looked up in a value without calls is one of its parts. -/
theorem CallFree.get? {v u : Value} {key : String} (h : v.CallFree) (hu : v.get? key = some u) :
    u.CallFree := by
  cases v with
  | mapping entries => exact (callFree_mapping_iff.mp h).2 (key, u) (mem_of_lookup hu)
  | null | boolean | number | string | list => cases hu

theorem height_list_le_iff {items : List Value} {n : Nat} :
    (Value.list items).height ≤ n + 1 ↔ ∀ v ∈ items, v.height ≤ n := by
  rw [height, Nat.add_le_add_iff_right]
  induction items with
  | nil => simp [itemsHeight]
  | cons v rest ih => rw [itemsHeight, Nat.max_le, ih, List.forall_mem_cons]

theorem height_mapping_le_iff {entries : Entries} {n : Nat} :
    (Value.mapping entries).height ≤ n + 1 ↔ ∀ e ∈ entries, e.2.height ≤ n := by
  rw [height, Nat.add_le_add_iff_right]
  induction entries with
  | nil => simp [entriesHeight]
  | cons e rest ih => rw [entriesHeight, Nat.max_le, ih, List.forall_mem_cons]

theorem height_pos (v : Value) : 0 < v.height := by
  cases v <;> simp [height]

end Value

/-- A declaration is found under its name in its section. -/
theorem Template.lookup_declarations (t : Template) (name key : String) :
    (t.declarations name).lookup key = (t.document.get? name).bind (·.get? key) := by
  unfold Template.declarations
  cases t.document.get? name with
  | none => rfl
  | some v => cases v <;> rfl

/-- Look-up tables without calls have entries without calls. -/
theorem Template.callFree_of_mappingEntry? (t : Template)
    (h : ∀ e ∈ t.declarations "Mappings", e.2.CallFree) {mapping key attr : String} {v : Value}
    (hv : t.mappingEntry? mapping key attr = some v) : v.CallFree := by
  obtain ⟨table, htable, hv⟩ := Option.bind_eq_some_iff.mp hv
  obtain ⟨row, hrow, hv⟩ := Option.bind_eq_some_iff.mp hv
  have hfree : table.CallFree := h (mapping, table) (mem_of_lookup htable)
  exact (hfree.get? hrow).get? hv

/-! ## 2. What the functions give -/

namespace Parameter

section

variable {p : Value → Prop} (hstring : ∀ s, p (.string s)) (hnumber : ∀ n, p (.number n))
  (hlist : ∀ items, (∀ v ∈ items, p v) → p (.list items))
include hstring hnumber hlist

theorem holds_of_interpret {parameter raw : String} {type : ParameterType} {v : Value}
    (h : interpret parameter raw type = .ok v) : p v := by
  have hnumeral {raw : String} {v : Value} (h : number parameter raw = .ok v) : p v := by
    unfold number at h
    split at h
    · cases h
      exact hnumber _
    · cases h
  cases type with
  | string =>
    cases h
    exact hstring raw
  | number => exact hnumeral h
  | stringList =>
    cases h
    refine hlist _ fun v hv => ?_
    obtain ⟨item, -, rfl⟩ := List.mem_map.mp hv
    exact hstring item
  | numberList =>
    rw [interpret, map_ok_iff] at h
    obtain ⟨vs, rfl, hm⟩ := h
    exact hlist _ (forall_of_mapM_ok (fun _ _ => hnumeral) hm)

/-- **The value of a parameter is a text, a number, or a list of these**: what holds of them and
goes over to lists holds of the value. -/
theorem holds_of_value {name : String} {declaration : Value} {supplied : Option String}
    {v : Value} (h : value name declaration supplied = .ok v) : p v := by
  simp only [value] at h
  split at h
  · cases h
  · split at h
    · exact holds_of_interpret hstring hnumber hlist h
    · split at h
      · exact holds_of_interpret hstring hnumber hlist h
      · cases h

end

end Parameter

/-- The value of a pseudo parameter is null, a text, or a list of texts. -/
theorem Context.holds_of_pseudoValue {p : Value → Prop} (hnull : p .null)
    (hstring : ∀ s, p (.string s)) (hlist : ∀ items, (∀ v ∈ items, p v) → p (.list items))
    (c : Context) (pseudo : PseudoParameter) : p (c.pseudoValue pseudo) := by
  cases pseudo with
  | noValue => exact hnull
  | notificationArns =>
    refine hlist _ fun v hv => ?_
    obtain ⟨arn, -, rfl⟩ := List.mem_map.mp hv
    exact hstring arn
  | accountId | region | stackName | stackId | partition | urlSuffix => exact hstring _

/-- An item that is picked from a list is one of its items, or null. -/
theorem Intrinsic.callFree_itemAt {items : List Value} (h : ∀ v ∈ items, v.CallFree) (i : Int) :
    (itemAt items i).CallFree := by
  unfold itemAt
  split
  · exact Value.callFree_null
  · cases hitem : items[i.toNat]? with
    | none => exact Value.callFree_null
    | some v => exact h v (List.mem_of_getElem? hitem)

namespace Stack

open Plan (ensures_bind_right ensures_pure)

variable {stack : Stack} {answers : Value → Value → Prop} {names : Resource → String → Prop}

/-- **The value of a reference is null, a text, a number, or a list of these.** -/
theorem ensures_reference {p : Value → Prop} (hnull : p .null) (hstring : ∀ s, p (.string s))
    (hnumber : ∀ n, p (.number n)) (hlist : ∀ items, (∀ v ∈ items, p v) → p (.list items))
    (name : String) : (stack.reference name).Ensures answers names p := by
  unfold reference
  split
  · exact ensures_pure (stack.context.holds_of_pseudoValue hnull hstring hlist _)
  · split
    · next declaration _ =>
      cases hv : Parameter.value name declaration (stack.supplied.lookup name) with
      | ok v => exact ensures_pure (Parameter.holds_of_value hstring hnumber hlist hv)
      | error e => trivial
    · split
      · exact ensures_bind_right _ fun values => ensures_pure (hstring _)
      · trivial

/-- The value of an attribute is a text. -/
theorem ensures_attributeOf {p : Value → Prop} (hstring : ∀ s, p (.string s))
    (resource attr : String) : (stack.attributeOf resource attr).Ensures answers names p := by
  unfold attributeOf
  split
  · trivial
  · refine ensures_bind_right _ fun values => ?_
    split
    · exact ensures_pure (hstring _)
    · trivial

theorem ensures_reference_callFree (name : String) :
    (stack.reference name).Ensures answers names Value.CallFree :=
  ensures_reference Value.callFree_null Value.callFree_string Value.callFree_number
    (fun _ => Value.callFree_list_iff.mpr) name

theorem ensures_attributeOf_callFree (resource attr : String) :
    (stack.attributeOf resource attr).Ensures answers names Value.CallFree :=
  ensures_attributeOf Value.callFree_string resource attr

theorem ensures_callGetAtt_callFree (arg : Value) :
    (stack.callGetAtt arg).Ensures answers names Value.CallFree := by
  unfold callGetAtt
  split
  · refine ensures_bind_right _ fun dotted => ?_
    split
    · exact ensures_attributeOf_callFree _ _
    · trivial
  · exact ensures_bind_right _ fun parts => ensures_attributeOf_callFree _ _

/-- An entry of a look-up table is given as it is written. -/
theorem ensures_callFindInMap_callFree
    (htables : ∀ mapping key attr v, stack.template.mappingEntry? mapping key attr = some v →
      v.CallFree) (arg : Value) :
    (stack.callFindInMap arg).Ensures answers names Value.CallFree := by
  refine ensures_bind_right _ fun path => ?_
  unfold tableEntry
  cases hv : stack.template.mappingEntry? path[0] path[1] path[2] with
  | none => trivial
  | some v => exact ensures_pure (htables path[0] path[1] path[2] v hv)

theorem ensures_callJoin_callFree (arg : Value) :
    (callJoin arg).Ensures answers names Value.CallFree := by
  refine ensures_bind_right _ fun ⟨delimiter, items⟩ => ?_
  simp only
  cases Intrinsic.joinTexts items with
  | ok texts => exact ensures_pure (Value.callFree_string _)
  | error found => trivial

theorem ensures_callSplit_callFree (arg : Value) :
    (callSplit arg).Ensures answers names Value.CallFree := by
  refine ensures_bind_right _ fun parts => ensures_pure (Value.callFree_list_iff.mpr ?_)
  intro v hv
  obtain ⟨field, -, rfl⟩ := List.mem_map.mp hv
  exact Value.callFree_string field

theorem ensures_callSub_callFree (arg : Value) :
    (stack.callSub arg).Ensures answers names Value.CallFree := by
  unfold callSub
  split
  · refine ensures_bind_right _ fun text => ?_
    exact ensures_bind_right _ fun rendered => ensures_pure (Value.callFree_string _)
  · trivial
  · refine ensures_bind_right _ fun text => ?_
    exact ensures_bind_right _ fun rendered => ensures_pure (Value.callFree_string _)

theorem ensures_callEquals_callFree (arg : Value) :
    (callEquals arg).Ensures answers names Value.CallFree := by
  unfold callEquals
  split
  · refine ensures_bind_right _ fun x => ?_
    exact ensures_bind_right _ fun y => ensures_pure (Value.callFree_boolean _)
  · trivial

theorem ensures_callBoolean_callFree (f : Intrinsic) (op : Bool → Bool → Bool) (arg : Value) :
    (callBoolean f op arg).Ensures answers names Value.CallFree := by
  unfold callBoolean
  split
  · refine ensures_bind_right _ fun x => ?_
    exact ensures_bind_right _ fun y => ensures_pure (Value.callFree_boolean _)
  · trivial

section PartsOfAnswers

variable (hanswers : ∀ v w, answers v w → w.CallFree)
include hanswers

theorem ensures_callSelect_callFree (arg : Value) :
    (callSelect arg).Ensures answers names Value.CallFree := by
  unfold callSelect
  split
  · refine ensures_bind_right _ fun index => ?_
    cases Intrinsic.indexOf? index with
    | none => trivial
    | some i =>
      refine Plan.ensures_bind (Plan.ensures_ask _) fun w hw => ?_
      cases w with
      | list items =>
        have hitems := Value.callFree_list_iff.mp (hanswers _ _ hw)
        exact ensures_pure (Intrinsic.callFree_itemAt hitems i)
      | null | boolean | number | string | mapping => trivial
  · trivial

/-- An operand that is passed on has been resolved. -/
theorem ensures_callNot_callFree (arg : Value) :
    (stack.callNot arg).Ensures answers names Value.CallFree := by
  unfold callNot
  split
  · cases stack.config.negation with
    | passthrough => exact (Plan.ensures_ask _).mono (hanswers _)
    | invert => exact ensures_bind_right _ fun b => ensures_pure (Value.callFree_boolean _)
  · trivial

/-- Both branches have been resolved, whichever is picked. -/
theorem ensures_callIf_callFree (arg : Value) :
    (stack.callIf arg).Ensures answers names Value.CallFree := by
  unfold callIf
  split
  · refine ensures_bind_right _ fun name => ?_
    refine Plan.ensures_bind (Plan.ensures_ask _) fun whenTrue htrue => ?_
    refine Plan.ensures_bind (Plan.ensures_ask _) fun whenFalse hfalse => ?_
    refine ensures_bind_right _ fun b => ?_
    cases b with
    | true => exact ensures_pure (hanswers _ _ htrue)
    | false => exact ensures_pure (hanswers _ _ hfalse)
  · trivial

/-- **A call gives no calls**, if answers have none and look-up tables have none. -/
theorem ensures_call_callFree
    (htables : ∀ mapping key attr v, stack.template.mappingEntry? mapping key attr = some v →
      v.CallFree) (f : Intrinsic) (arg : Value) :
    (stack.call f arg).Ensures answers names Value.CallFree := by
  cases f with
  | ref => exact ensures_bind_right _ fun name => ensures_reference_callFree name
  | getAtt => exact ensures_callGetAtt_callFree arg
  | findInMap => exact ensures_callFindInMap_callFree htables arg
  | join => exact ensures_callJoin_callFree arg
  | select => exact ensures_callSelect_callFree hanswers arg
  | split => exact ensures_callSplit_callFree arg
  | sub => exact ensures_callSub_callFree arg
  | base64 => exact ensures_bind_right _ fun text => ensures_pure (Value.callFree_string _)
  | getAzs | importValue => trivial
  | equals => exact ensures_callEquals_callFree arg
  | and | or => exact ensures_callBoolean_callFree _ _ arg
  | not => exact ensures_callNot_callFree hanswers arg
  | ifElse => exact ensures_callIf_callFree hanswers arg
  | condition =>
    refine ensures_bind_right _ fun name => ?_
    exact ensures_bind_right _ fun b => ensures_pure (Value.callFree_boolean _)

end PartsOfAnswers

end Stack

/-! ## 3. Data stays data -/

namespace Intrinsic

/-- Only `Condition` leaves arguments unclaimed. -/
theorem eq_condition_of_claims_eq_false {f : Intrinsic} {arg : Value}
    (h : f.claims arg = false) : f = .condition := by
  cases f with
  | condition => rfl
  | _ => cases h

/-- `Condition` claims every call. -/
theorem claims_condition_of_ofCall? {entries : Entries} {c : Intrinsic × Value}
    (h : ofCall? entries = some c) : condition.claims (.mapping entries) = true := by
  obtain ⟨rfl, -⟩ := ofCall?_eq_some_iff.mp h
  simp [claims, ofName?_name]

end Intrinsic

namespace Value

/-- The value `w`, which `v` resolves to, is free of calls; and it is nothing that `Condition`
claims, unless `v` is. -/
def Clears (v w : Value) : Prop :=
  w.CallFree ∧ (Intrinsic.condition.claims v = false → Intrinsic.condition.claims w = false)

/-- The entries keep their keys, and their values are cleared. -/
def ClearsEntries : Entries → Entries → Prop :=
  List.Forall₂ fun e e' => e'.1 = e.1 ∧ e.2.Clears e'.2

/-- **Data stays data** when its entries are resolved. -/
theorem ClearsEntries.ofCall?_eq_none {entries entries' : Entries}
    (h : ClearsEntries entries entries') (hc : Intrinsic.ofCall? entries = none) :
    Intrinsic.ofCall? entries' = none := by
  cases h with
  | nil => rfl
  | @cons e e' rest rest' he hrest =>
    cases hrest with
    | cons _ _ => rfl
    | nil =>
      obtain ⟨key, arg⟩ := e
      obtain ⟨key', arg'⟩ := e'
      obtain ⟨rfl, -, hclaims⟩ := he
      simp only [Intrinsic.ofCall?] at hc ⊢
      cases hf : Intrinsic.ofName? key' with
      | none => rfl
      | some f =>
        simp only [hf] at hc ⊢
        split at hc
        · cases hc
        · next hnot =>
          -- the key is `Condition`, and its value was no name and has not become one
          have hfalse : f.claims arg = false := by simpa using hnot
          cases Intrinsic.eq_condition_of_claims_eq_false hfalse
          rw [hclaims hfalse]
          rfl

/-- Data that `Condition` does not claim is not claimed when its entries are resolved. -/
theorem ClearsEntries.claims_eq_false {entries entries' : Entries}
    (h : ClearsEntries entries entries')
    (hc : Intrinsic.condition.claims (.mapping entries) = false) :
    Intrinsic.condition.claims (.mapping entries') = false := by
  cases h with
  | nil => rfl
  | @cons e e' rest rest' he hrest =>
    cases hrest with
    | cons _ _ => rfl
    | nil =>
      obtain ⟨key, arg⟩ := e
      obtain ⟨key', arg'⟩ := e'
      obtain ⟨rfl, -⟩ := he
      exact hc

theorem callFree_of_clears {items results : List Value}
    (h : List.Forall₂ Clears items results) : (Value.list results).CallFree := by
  rw [callFree_list_iff]
  induction h with
  | nil => simp
  | cons hv _ ih => exact List.forall_mem_cons.mpr ⟨hv.1, ih⟩

theorem ClearsEntries.callFree {entries entries' : Entries} (h : ClearsEntries entries entries') :
    ∀ e ∈ entries', e.2.CallFree := by
  induction h with
  | nil => simp
  | cons he _ ih => exact List.forall_mem_cons.mpr ⟨he.2.1, ih⟩

end Value

namespace Stack

variable {stack : Stack}

/-- **Every value that is resolved is free of calls**, if the look-up tables are. -/
theorem sustains_clears
    (htables : ∀ mapping key attr v, stack.template.mappingEntry? mapping key attr = some v →
      v.CallFree) :
    stack.Sustains Value.Clears fun _ _ => True where
  name r keys _ := (r.naming keys).ensures_of_forall fun _ => trivial
  value v := by
    have hanswers (v w : Value) (h : stack.Given Value.Clears v w) : w.CallFree := h.2.1
    cases v with
    | null => exact Plan.ensures_pure ⟨Value.callFree_null, id⟩
    | boolean b => exact Plan.ensures_pure ⟨Value.callFree_boolean b, id⟩
    | number n => exact Plan.ensures_pure ⟨Value.callFree_number n, id⟩
    | string s => exact Plan.ensures_pure ⟨Value.callFree_string s, id⟩
    | list items =>
      refine Plan.ensures_map ((Plan.ensures_mapM items Plan.ensures_ask).mono fun ws hws => ?_)
      exact ⟨Value.callFree_of_clears (hws.imp fun _ _ h => h.2), fun _ => rfl⟩
    | mapping entries =>
      simp only [plan]
      cases hc : Intrinsic.ofCall? entries with
      | some c =>
        refine (ensures_call_callFree hanswers htables c.1 c.2).mono fun w hw => ⟨hw, fun h => ?_⟩
        rw [Intrinsic.claims_condition_of_ofCall? hc] at h
        cases h
      | none =>
        refine Plan.ensures_map ((Plan.ensures_entries entries).mono fun es hes => ?_)
        have hclears : Value.ClearsEntries entries es := hes.imp fun _ _ h => ⟨h.1, h.2.2⟩
        refine ⟨Value.callFree_mapping_iff.mpr ⟨?_, hclears.callFree⟩, hclears.claims_eq_false⟩
        exact hclears.ofCall?_eq_none hc

/-! ## 4. Values without calls stand for themselves -/

/-- Plans that change nothing, one after another, change nothing. -/
theorem run_mapM_eq {α β : Type} {answer : Value → Run Session Value} {f : α → Plan β}
    {g : α → β} {items : List α} (h : ∀ x ∈ items, ∀ s, (f x).run answer s = (.ok (g x), s))
    (s : Session) : (items.mapM f).run answer s = (.ok (items.map g), s) := by
  induction items with
  | nil => rfl
  | cons x rest ih =>
    obtain ⟨hx, hrest⟩ := List.forall_mem_cons.mp h
    rw [List.mapM_cons, Plan.run_bind, Run.bind_ok (hx s), Plan.run_bind, Run.bind_ok (ih hrest)]
    rfl

theorem run_map_ok {α β : Type} {answer : Value → Run Session Value} {x : Plan α} (f : α → β)
    {a : α} {s s' : Session} (h : x.run answer s = (.ok a, s')) :
    (f <$> x).run answer s = (.ok (f a), s') := by
  rw [map_eq_pure_bind, Plan.run_bind, Run.bind_ok h]
  rfl

/-- A value whose plan changes nothing is resolved without a change, one level further up. -/
theorem resolveWithin_of_plan {levels : Nat} {v : Value} (hlevels : v.height ≤ levels)
    (h : ∀ s, (stack.plan v).run (stack.resolveWithin (levels - 1)) s = (.ok v, s))
    (s : Session) : stack.resolveWithin levels v s = (.ok v, s) := by
  have hpos : 0 < levels := v.height_pos.trans_le hlevels
  obtain ⟨n, rfl⟩ : ∃ n, levels = n + 1 := ⟨levels - 1, by omega⟩
  rw [resolveWithin, Session.deeper, ← Nat.add_sub_cancel n 1, h]
  rfl

/-- **A value that is free of calls stands for itself** in every session, if as many levels are
left as it is high. -/
theorem resolveWithin_of_callFree (stack : Stack) {v : Value} (hv : v.CallFree) {levels : Nat}
    (hlevels : v.height ≤ levels) (s : Session) :
    stack.resolveWithin levels v s = (.ok v, s) := by
  induction v using Value.induct generalizing levels s with
  | null | boolean | number | string => exact resolveWithin_of_plan hlevels (fun _ => rfl) s
  | list items ih =>
    rw [Value.callFree_list_iff] at hv
    have hlow : ∀ u ∈ items, u.height ≤ levels - 1 := Value.height_list_le_iff.mp (by omega)
    have hitem : ∀ u ∈ items, ∀ s,
        (Plan.ask u).run (stack.resolveWithin (levels - 1)) s = (.ok u, s) := by
      intro u hu s
      rw [Plan.run_ask]
      exact ih u hu (hv u hu) (hlow u hu) s
    refine resolveWithin_of_plan hlevels (fun s => run_map_ok Value.list ?_) s
    simpa using run_mapM_eq hitem s
  | mapping entries ih =>
    obtain ⟨hc, hv⟩ := Value.callFree_mapping_iff.mp hv
    have hlow : ∀ e ∈ entries, e.2.height ≤ levels - 1 :=
      Value.height_mapping_le_iff.mp (by omega)
    have hentry : ∀ e ∈ entries, ∀ s, ((e.1, ·) <$> Plan.ask e.2).run
        (stack.resolveWithin (levels - 1)) s = (.ok e, s) := by
      intro e he s
      refine run_map_ok (e.1, ·) ?_
      rw [Plan.run_ask]
      exact ih e he (hv e he) (hlow e he) s
    refine resolveWithin_of_plan hlevels (fun s => ?_) s
    simp only [plan, hc]
    exact run_map_ok Value.mapping (by simpa using run_mapM_eq hentry s)

/-! ## 5. Resolving twice -/

/-- A stack resolves a value that is free of calls to itself, after any operations, if its limit is
no less than the height of the value. -/
theorem operate_of_callFree (stack : Stack) (ops : List Operation) {v : Value} (hv : v.CallFree)
    (hlimit : v.height ≤ stack.config.maxDepth) :
    (stack.operate (.resolve v) (stack.after ops .start)).1 = .ok (.value v) := by
  generalize hs : stack.after ops .start = s
  have hlevels : v.height ≤ stack.levelsLeft s := by
    rw [levelsLeft, ← hs, (stack.after_grows ops .start).depth]
    exact hlimit
  have hask : (Plan.ask v).run (stack.resolveWithin (stack.levelsLeft s)) s = (.ok v, s) := by
    rw [Plan.run_ask]
    exact stack.resolveWithin_of_callFree hv hlevels s
  rw [operate, perform, Operation.plan, run_map_ok Answer.value hask]

/-- **Resolution leaves no call behind.**  If the look-up tables of a stack hold no calls, then
what a value resolves to, after any operations, holds none; and every stack whose limit is no
less than its height resolves it to itself, after any operations. -/
theorem resolved_value_is_call_free (stack : Stack) (ops : List Operation)
    (htables : ∀ mapping key attr v, stack.template.mappingEntry? mapping key attr = some v →
      v.CallFree) {v w : Value}
    (h : (stack.operate (.resolve v) (stack.after ops .start)).1 = .ok (.value w)) :
    w.CallFree ∧
    ∀ (other : Stack) (ops' : List Operation), w.height ≤ other.config.maxDepth →
      (other.operate (.resolve w) (other.after ops' .start)).1 = .ok (.value w) := by
  have hw : w.CallFree := by
    have hgives := stack.gives_of_operate_resolve ops h
    have hclears : v.Clears w := hgives.ensures (sustains_clears htables) (stack.honest_plan v)
      ((sustains_clears htables).value v)
    exact hclears.1
  exact ⟨hw, fun other ops' hlimit => other.operate_of_callFree ops' hw hlimit⟩

/-- A block of a policy under the key `Condition`, with a call inside that gives a look-up table's
entry: the block is data before and after, and three levels are enough to resolve it again. -/
theorem policy_condition_block_resolves_to_itself :
    let tables := Value.mapping [("Sizes", .mapping [("small", .mapping [("Disk", .string "8")])])]
    let stack := ofDocument (.mapping [("Mappings", tables)])
    let lookup := Value.mapping [("Fn::FindInMap",
      .list [.string "Sizes", .string "small", .string "Disk"])]
    let v := Value.mapping [("Condition", .mapping [("StringEquals", lookup)])]
    let w := Value.mapping [("Condition", .mapping [("StringEquals", .string "8")])]
    (stack.operate (.resolve v) .start).1 = .ok (.value w) ∧ w.CallFree ∧
      (((ofDocument (.mapping [])).withLimit 3).operate (.resolve w) .start).1 =
        .ok (.value w) := by
  intro tables stack lookup v w
  have hrun : (stack.operate (.resolve v) (stack.after [] .start)).1 = .ok (.value w) := by rfl
  have htables : ∀ mapping key attr u,
      stack.template.mappingEntry? mapping key attr = some u → u.CallFree := by
    have hdocument : stack.template.declarations "Mappings" =
        [("Sizes", .mapping [("small", .mapping [("Disk", .string "8")])])] := by rfl
    refine fun _ _ _ _ => stack.template.callFree_of_mappingEntry? fun e he => ?_
    rw [hdocument, List.mem_singleton] at he
    subst he
    simp [Value.callFree_mapping_iff, Value.callFree_string, Intrinsic.ofCall?, Intrinsic.ofName?,
      Intrinsic.all, Intrinsic.name]
  obtain ⟨hfree, hagain⟩ := stack.resolved_value_is_call_free [] htables hrun
  exact ⟨hrun, hfree, hagain ((ofDocument (.mapping [])).withLimit 3) [] (by decide)⟩

end Stack
end StackTemplate
