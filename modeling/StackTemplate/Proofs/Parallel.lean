import Mathlib.Data.List.Forall2
import StackTemplate.Proofs.Request

/-!
# Two stacks in parallel

Two stacks are compared by laying their plans side by side.  Plans are *parallel* when they make
corresponding requests in the same order, go on in parallel with corresponding answers, and end
alike.  What corresponds to what is left open (`Correspondence`): two values may be equal, or equal
up to the order of their keys; and an error of the first plan may or may not excuse the second.

A function reads its argument and the answers to its requests one level at a time, and asks the
stack for what a name stands for.  So it is enough that values which correspond are alike level by
level (`Value.Alike`) and that the two stacks agree on what their names stand for
(`Stack.Corresponds`): then all functions are parallel, by one lemma for each.

* `Plan.Parallel`: the relation, kept by putting plans together.
* `parallel_call`: every function is parallel in two stacks that correspond.
-/

namespace StackTemplate

/-! ## 1. Values that are alike -/

namespace Value

/-- **Alike on the first level**: the same scalar, or lists whose items are related one by one, or
mappings with as many entries whose values under each key are related. -/
inductive Alike (R : Value → Value → Prop) : Value → Value → Prop
  | null : Alike R .null .null
  | boolean (b : Bool) : Alike R (.boolean b) (.boolean b)
  | number (n : Number) : Alike R (.number n) (.number n)
  | string (s : String) : Alike R (.string s) (.string s)
  | list {items items' : List Value} (h : List.Forall₂ R items items') :
      Alike R (.list items) (.list items')
  | mapping {entries entries' : Entries} (hlength : entries'.length = entries.length)
      (h : ∀ key, Option.Rel R (entries.lookup key) (entries'.lookup key)) :
      Alike R (.mapping entries) (.mapping entries')

variable {R : Value → Value → Prop} {v w : Value}

/-- A list of texts is alike to itself only. -/
theorem eq_strings_iff_of_alike (hR : ∀ v w, R v w → v.Alike R w) (h : v.Alike R w)
    (texts : List String) : v = .list (texts.map .string) ↔ w = .list (texts.map .string) := by
  have hitems {items items' : List Value} (h : List.Forall₂ R items items') :
      items = texts.map .string ↔ items' = texts.map .string := by
    induction h generalizing texts with
    | nil => rfl
    | cons hv _ ih =>
      cases texts with
      | nil => simp
      | cons text texts =>
        have hhead := hR _ _ hv
        cases hhead <;> simp [ih]
  cases h with
  | list h => simpa using hitems h
  | null | boolean | number | string | mapping => simp

theorem asVector?_eq_of_alike (hR : ∀ v w, R v w → v.Alike R w) (h : v.Alike R w)
    {count : Nat} : w.asVector? count = v.asVector? count := by
  ext1 texts
  rw [asVector?_eq_some_iff, asVector?_eq_some_iff, eq_strings_iff_of_alike hR h]

/-- Values that are alike on every level have the same plain text. -/
theorem plainText?_eq_of_alike (hR : ∀ v w, R v w → v.Alike R w) (h : v.Alike R w) :
    w.plainText? = v.plainText? := by
  induction v using Value.induct generalizing w with
  | null | boolean | number | string =>
    cases h
    rfl
  | mapping entries _ =>
    cases h
    rfl
  | list items ih =>
    cases h with
    | @list _ items' h =>
      have htexts : plainTexts? items' = plainTexts? items := by
        induction h with
        | nil => rfl
        | cons hv _ ihrest =>
          obtain ⟨hhead, hrest⟩ := List.forall_mem_cons.mp ih
          rw [plainTexts?, plainTexts?, hhead (hR _ _ hv), ihrest hrest]
      rw [plainText?, plainText?, htexts]

end Value

/-! ## 2. Plans in parallel -/

/-- What corresponds to what in two stacks. -/
structure Correspondence where
  /-- The second value may be asked for where the first one is. -/
  asked : Value → Value → Prop
  /-- The second value may be answered, or be the result, where the first one is. -/
  answered : Value → Value → Prop
  /-- The name of the second resource, from these properties, may be asked for where that of the
  first one is. -/
  named : Resource → Resource → List String → Prop
  /-- The text may be used as a name. -/
  shown : String → Prop
  /-- When the first plan fails, the second one may do anything. -/
  excused : Prop

/-- A text as it is written is resolved to itself. -/
def Literally (v w : Value) : Prop := ∀ s, v = .string s → w = .string s

namespace Plan

/-- **The plans make corresponding requests and end alike**, with results related by `R`. -/
inductive Parallel (C : Correspondence) {α β : Type} (R : α → β → Prop) :
    Plan α → Plan β → Prop
  | done {a : α} {b : β} (h : R a b) : Parallel C R (.done a) (.done b)
  | fail (e : ResolutionError) : Parallel C R (.fail e) (.fail e)
  | excused (h : C.excused) (e : ResolutionError) (plan : Plan β) : Parallel C R (.fail e) plan
  | resolve {v v' : Value} {next : Value → Plan α} {next' : Value → Plan β} (hv : C.asked v v')
      (hn : ∀ w w', C.answered w w' → Literally v w → Parallel C R (next w) (next' w')) :
      Parallel C R (.resolve v next) (.resolve v' next')
  | name {r r' : Resource} {keys : List String} {next : String → Plan α}
      {next' : String → Plan β} (hr : C.named r r' keys)
      (hn : ∀ name, Parallel C R (next name) (next' name)) :
      Parallel C R (.name r keys next) (.name r' keys next')

variable {C : Correspondence} {α β γ δ : Type} {R : α → β → Prop} {S : γ → δ → Prop}

theorem parallel_pure {a : α} {b : β} (h : R a b) :
    Parallel C R (pure a : Plan α) (pure b : Plan β) := .done h

theorem parallel_ask {v v' : Value} (hv : C.asked v v') :
    Parallel C (fun w w' => C.answered w w' ∧ Literally v w) (ask v) (ask v') :=
  .resolve hv fun _ _ hw hliteral => .done ⟨hw, hliteral⟩

theorem parallel_bind {x : Plan α} {y : Plan β} {f : α → Plan γ} {g : β → Plan δ}
    (hx : Parallel C R x y) (hf : ∀ a b, R a b → Parallel C S (f a) (g b)) :
    Parallel C S (x >>= f) (y >>= g) := by
  change Parallel C S (x.bind f) (y.bind g)
  induction hx with
  | done h => exact hf _ _ h
  | fail e => exact .fail e
  | excused h e plan => exact .excused h e _
  | resolve hv _ ih => exact .resolve hv ih
  | name hr _ ih => exact .name hr ih

theorem parallel_map {x : Plan α} {y : Plan β} {f : α → γ} {g : β → δ}
    (hx : Parallel C (fun a b => S (f a) (g b)) x y) : Parallel C S (f <$> x) (g <$> y) := by
  rw [map_eq_pure_bind, map_eq_pure_bind]
  exact parallel_bind hx fun _ _ h => parallel_pure h

theorem Parallel.mono {S : α → β → Prop} {x : Plan α} {y : Plan β} (h : Parallel C R x y)
    (hRS : ∀ a b, R a b → S a b) : Parallel C S x y := by
  rw [← bind_pure x, ← bind_pure y]
  exact parallel_bind h fun a b hab => parallel_pure (hRS a b hab)

/-- An outcome that is known in both plans. -/
theorem parallel_ofExcept {R : α → α → Prop} {x : Except ResolutionError α}
    (h : ∀ a, x = .ok a → R a a) : Parallel C R (ofExcept x) (ofExcept x) := by
  cases x with
  | ok a => exact .done (h a rfl)
  | error e => exact .fail e

theorem parallel_mapM {T : γ → δ → Prop} {f : γ → Plan α} {g : δ → Plan β} {items : List γ}
    {items' : List δ} (h : List.Forall₂ T items items')
    (hf : ∀ x y, T x y → Parallel C R (f x) (g y)) :
    Parallel C (List.Forall₂ R) (items.mapM f) (items'.mapM g) := by
  induction h with
  | nil => exact parallel_pure .nil
  | cons hxy _ ih =>
    rw [List.mapM_cons, List.mapM_cons]
    refine parallel_bind (hf _ _ hxy) fun _ _ hhead => ?_
    exact parallel_bind ih fun _ _ hrest => parallel_pure (.cons hhead hrest)

end Plan

/-! ## 3. Stacks that correspond -/

/-- The template of a call of `Fn::Sub`: the argument, or its first item if the second one is a
mapping of variables. -/
def Intrinsic.subTemplate? : Value → Option Value
  | .list [template, .mapping _] => some template
  | .list _ => none
  | arg => some arg

/-- Functions cannot tell values apart that correspond. -/
structure Correspondence.Lawful (C : Correspondence) : Prop where
  asked : ∀ v v', C.asked v v' → v.Alike C.asked v'
  answered : ∀ w w', C.answered w w' → w.Alike C.answered w'
  /-- Scalars and lists that are alike may be answered for each other. -/
  answer : ∀ w w', w.kind ≠ .mapping → w.Alike C.answered w' → C.answered w w'
  same : ∀ v v' w w', C.answered v v' → C.answered w w' → v'.same w' = v.same w
  /-- Where errors are no excuse they are the same, with the values that they quote. -/
  exact : C.excused ∨ ∀ w w', C.answered w w' → w' = w

/-- What is found in both stacks corresponds.  Nothing need be found in the first one where errors
are an excuse. -/
def Correspondence.Finds (C : Correspondence) {α : Type} (R : α → α → Prop)
    (found found' : Option α) : Prop :=
  C.excused ∧ found = none ∨ Option.Rel R found found'

/-- What is the same in both stacks is found in both or in neither. -/
theorem rel_self {α : Type} {R : α → α → Prop} {found : Option α}
    (h : ∀ a, found = some a → R a a) : Option.Rel R found found := by
  cases found with
  | none => exact .none
  | some a => exact .some (h a rfl)

/-- The two resources have the same values, once their names are known. -/
structure Stack.SameValues (C : Correspondence) (stack stack' : Stack) (r r' : Resource) :
    Prop where
  name : r'.name = r.name
  typeName : r'.typeName = r.typeName
  named : ∀ kind, ResourceKind.ofTypeName? r.typeName = some kind →
    C.named r r' kind.namingProperties
  values : ∀ kind display, ResourceKind.ofTypeName? r.typeName = some kind →
    kind.values display stack.context = kind.values display stack'.context

/-- In one context the values of a resource are the same. -/
theorem Stack.sameValues_self {C : Correspondence} {stack stack' : Stack} {r : Resource}
    (hcontext : stack'.context = stack.context) (hnamed : ∀ keys, C.named r r keys) :
    stack.SameValues C stack' r r where
  name := rfl
  typeName := rfl
  named _ _ := hnamed _
  values _ _ _ := by rw [hcontext]

/-- **The two stacks agree on what their names stand for**, as far as `C` goes. -/
structure Stack.Corresponds (C : Correspondence) (stack stack' : Stack) : Prop where
  lawful : C.Lawful
  config : stack'.config = stack.config
  pseudo : ∀ p : PseudoParameter, C.shown p.name →
    C.answered (stack.context.pseudoValue p) (stack'.context.pseudoValue p)
  /-- A new parameter hides no resource. -/
  parameter : ∀ name,
    C.excused ∧ stack.template.parameter? name = none ∧ stack.template.resource? name = none ∨
    Option.Rel (fun declaration declaration' => Plan.Parallel C C.answered
        (.ofExcept (Parameter.value name declaration (stack.supplied.lookup name)))
        (.ofExcept (Parameter.value name declaration' (stack'.supplied.lookup name))))
      (stack.template.parameter? name) (stack'.template.parameter? name)
  resource : ∀ name, C.Finds (stack.SameValues C stack') (stack.template.resource? name)
    (stack'.template.resource? name)
  condition : ∀ name, C.Finds C.asked (stack.template.condition? name)
    (stack'.template.condition? name)
  entry : ∀ mapping key attr, C.Finds C.answered (stack.template.mappingEntry? mapping key attr)
    (stack'.template.mappingEntry? mapping key attr)
  shown_ref : ∀ arg arg' name,
    C.asked (.mapping [(Intrinsic.ref.name, arg)]) (.mapping [(Intrinsic.ref.name, arg')]) →
    Literally arg (.string name) → C.shown name
  shown_sub : ∀ arg arg' template text name,
    C.asked (.mapping [(Intrinsic.sub.name, arg)]) (.mapping [(Intrinsic.sub.name, arg')]) →
    Intrinsic.subTemplate? arg = some template → Literally template (.string text) →
    name ∈ Placeholder.lookups text → C.shown name

namespace Correspondence.Lawful

open Plan (Parallel)

variable {C : Correspondence} (hC : C.Lawful)
include hC

theorem string (s : String) : C.answered (.string s) (.string s) :=
  hC.answer _ _ (by simp [Value.kind]) (.string s)

theorem boolean (b : Bool) : C.answered (.boolean b) (.boolean b) :=
  hC.answer _ _ (by simp [Value.kind]) (.boolean b)

theorem null : C.answered .null .null :=
  hC.answer _ _ (by simp [Value.kind]) .null

theorem strings (texts : List String) :
    C.answered (.list (texts.map .string)) (.list (texts.map .string)) := by
  refine hC.answer _ _ (by simp [Value.kind]) (.list (List.forall₂_same.mpr fun v hv => ?_))
  obtain ⟨text, -, rfl⟩ := List.mem_map.mp hv
  exact hC.string text

/-- The arguments of corresponding calls correspond. -/
theorem asked_arg {key : String} {arg arg' : Value}
    (h : C.asked (.mapping [(key, arg)]) (.mapping [(key, arg')])) : C.asked arg arg' := by
  cases hC.asked _ _ h with
  | mapping _ hlookup => simpa using hlookup key

/-- An error that quotes an answer. -/
theorem parallel_fail {α β : Type} {R : α → β → Prop} {w w' : Value} (hw : C.answered w w')
    (e : Value → ResolutionError) : Parallel C R (.fail (e w)) (.fail (e w')) := by
  rcases hC.exact with hexcused | hexact
  · exact .excused hexcused _ _
  · rw [hexact _ _ hw]
    exact .fail _

end Correspondence.Lawful

/-! ## 4. The parts of arguments -/

namespace Intrinsic

open Plan (Parallel parallel_bind parallel_ask parallel_pure)

variable {C : Correspondence} (hC : C.Lawful) (f : Intrinsic) {v v' : Value}
include hC

theorem parallel_askString (role : ArgumentRole) (hv : C.asked v v') :
    Parallel C (fun text text' => text = text' ∧ Literally v (.string text))
      (f.askString role v) (f.askString role v') := by
  refine parallel_bind (parallel_ask hv) fun w w' ⟨hw, hliteral⟩ => ?_
  cases hC.answered _ _ hw with
  | string s => exact parallel_pure ⟨rfl, hliteral⟩
  | null | boolean | number | list | mapping => exact .fail _

theorem parallel_askBoolean (hv : C.asked v v') :
    Parallel C Eq (f.askBoolean v) (f.askBoolean v') := by
  refine parallel_bind (parallel_ask hv) fun w w' h => ?_
  cases hC.answered _ _ h.1 with
  | boolean b => exact parallel_pure rfl
  | null | string | number | list | mapping => exact .fail _

theorem parallel_askStrings (count : Nat) (hv : C.asked v v') :
    Parallel C Eq (f.askStrings count v) (f.askStrings count v') := by
  refine parallel_bind (parallel_ask hv) fun w w' h => ?_
  rw [Value.asVector?_eq_of_alike hC.answered (hC.answered _ _ h.1)]
  cases w.asVector? count with
  | some texts => exact parallel_pure rfl
  | none => exact .fail _

omit f in
theorem joinTexts_eq {items items' : List Value} (h : List.Forall₂ C.answered items items') :
    joinTexts items' = joinTexts items := by
  induction h with
  | nil => rfl
  | cons hv _ ih => cases hC.answered _ _ hv <;> simp [joinTexts, ih, Value.kind]

omit f in
theorem indexOf?_eq {w w' : Value} (h : C.answered w w') : indexOf? w' = indexOf? w := by
  cases hC.answered _ _ h <;> rfl

omit f in
theorem answered_itemAt {items items' : List Value} (h : List.Forall₂ C.answered items items')
    (i : Int) : C.answered (itemAt items i) (itemAt items' i) := by
  have hitem (k : Nat) : C.answered (items[k]?.getD .null) (items'[k]?.getD .null) := by
    induction h generalizing k with
    | nil => exact hC.null
    | cons hv _ ih =>
      cases k with
      | zero => exact hv
      | succ k => exact ih k
  unfold itemAt
  split
  · exact hC.null
  · exact hitem i.toNat

end Intrinsic

/-! ## 5. What names stand for -/

namespace Stack.Corresponds

open Plan (Parallel parallel_bind parallel_ask parallel_pure parallel_map parallel_mapM)

variable {C : Correspondence} {stack stack' : Stack} (h : stack.Corresponds C stack')

theorem parallel_valuesOf {r r' : Resource} (hr : stack.SameValues C stack' r r') :
    Parallel C Eq (stack.valuesOf r) (stack'.valuesOf r') := by
  unfold valuesOf
  rw [hr.typeName, hr.name]
  cases hk : ResourceKind.ofTypeName? r.typeName with
  | none => exact .fail _
  | some kind => exact .name (hr.named kind hk) fun display => .done (hr.values kind display hk)

include h

theorem parallel_attributeOf (resource attr : String) :
    Parallel C C.answered (stack.attributeOf resource attr) (stack'.attributeOf resource attr) := by
  unfold attributeOf
  rcases h.resource resource with ⟨hexcused, hnone⟩ | hfound
  · rw [hnone]
    exact .excused hexcused _ _
  · generalize stack.template.resource? resource = found,
      stack'.template.resource? resource = found' at hfound
    cases hfound with
    | none => exact .fail _
    | some hr =>
      refine parallel_bind (parallel_valuesOf hr) fun values _ hvalues => ?_
      subst hvalues
      simp only [hr.typeName]
      cases values.attribute? attr with
      | some text => exact parallel_pure (h.lawful.string text)
      | none => exact .fail _

theorem parallel_reference {name : String} (hname : C.shown name) :
    Parallel C C.answered (stack.reference name) (stack'.reference name) := by
  unfold reference
  cases hp : PseudoParameter.ofName? name with
  | some pseudo =>
    rw [← PseudoParameter.name_of_ofName? hp] at hname
    exact .done (h.pseudo pseudo hname)
  | none =>
    rcases h.parameter name with ⟨hexcused, hnone, hnone'⟩ | hfound
    · simp only [hnone, hnone']
      exact .excused hexcused _ _
    · generalize stack.template.parameter? name = found,
        stack'.template.parameter? name = found' at hfound
      cases hfound with
      | some hvalue => exact hvalue
      | none =>
        rcases h.resource name with ⟨hexcused, hnone⟩ | hfound
        · simp only [hnone]
          exact .excused hexcused _ _
        · generalize stack.template.resource? name = found,
            stack'.template.resource? name = found' at hfound
          cases hfound with
          | none => exact .fail _
          | some hr =>
            refine parallel_bind (parallel_valuesOf hr) fun values _ hvalues => ?_
            subst hvalues
            exact parallel_pure (h.lawful.string _)

theorem parallel_tableEntry (mapping key attr : String) :
    Parallel C C.answered (stack.tableEntry mapping key attr)
      (stack'.tableEntry mapping key attr) := by
  unfold Stack.tableEntry
  rcases h.entry mapping key attr with ⟨hexcused, hnone⟩ | hfound
  · rw [hnone]
    exact .excused hexcused _ _
  · generalize stack.template.mappingEntry? mapping key attr = found,
      stack'.template.mappingEntry? mapping key attr = found' at hfound
    cases hfound with
    | none => exact .fail _
    | some hv => exact parallel_pure hv

theorem parallel_condition (name : String) :
    Parallel C Eq (stack.condition name) (stack'.condition name) := by
  unfold Stack.condition
  rcases h.condition name with ⟨hexcused, hnone⟩ | hfound
  · rw [hnone]
    exact .excused hexcused _ _
  · generalize stack.template.condition? name = found,
      stack'.template.condition? name = found' at hfound
    cases hfound with
    | none => exact .fail _
    | some hv =>
      refine parallel_bind (parallel_ask hv) fun w w' ⟨hw, _⟩ => ?_
      cases h.lawful.answered _ _ hw with
      | boolean b => exact parallel_pure rfl
      | null | number | string | list | mapping =>
        exact h.lawful.parallel_fail hw (.conditionNotBoolean name)

/-! ## 6. The functions -/

variable {arg arg' : Value}

theorem parallel_callRef
    (hcall : C.asked (.mapping [(Intrinsic.ref.name, arg)])
      (.mapping [(Intrinsic.ref.name, arg')])) :
    Parallel C C.answered (stack.callRef arg) (stack'.callRef arg') := by
  have harg := h.lawful.asked_arg hcall
  refine parallel_bind (Intrinsic.ref.parallel_askString h.lawful .name harg) ?_
  rintro name _ ⟨rfl, hliteral⟩
  exact h.parallel_reference (h.shown_ref _ _ _ hcall hliteral)

theorem parallel_callGetAtt (harg : C.asked arg arg') :
    Parallel C C.answered (stack.callGetAtt arg) (stack'.callGetAtt arg') := by
  have htwo : Parallel C C.answered
      (Intrinsic.getAtt.askStrings 2 arg >>= fun parts => stack.attributeOf parts[0] parts[1])
      (Intrinsic.getAtt.askStrings 2 arg' >>= fun parts =>
        stack'.attributeOf parts[0] parts[1]) := by
    refine parallel_bind (Intrinsic.getAtt.parallel_askStrings h.lawful 2 harg) ?_
    rintro parts _ rfl
    exact h.parallel_attributeOf parts[0] parts[1]
  cases h.lawful.asked _ _ harg with
  | string s =>
    refine parallel_bind (Intrinsic.getAtt.parallel_askString h.lawful .argument harg) ?_
    rintro dotted _ ⟨rfl, -⟩
    cases Text.cutString? "." dotted with
    | none => exact .fail _
    | some parts => exact h.parallel_attributeOf parts.1 parts.2
  | null | boolean | number | list | mapping => exact htwo

theorem parallel_callFindInMap (harg : C.asked arg arg') :
    Parallel C C.answered (stack.callFindInMap arg) (stack'.callFindInMap arg') := by
  refine parallel_bind (Intrinsic.findInMap.parallel_askStrings h.lawful 3 harg) ?_
  rintro path _ rfl
  exact h.parallel_tableEntry path[0] path[1] path[2]

/-- The delimiters are equal and the items correspond. -/
theorem parallel_joinWhole (harg : C.asked arg arg') :
    Parallel C (fun parts parts' => parts.1 = parts'.1 ∧
      List.Forall₂ C.answered parts.2 parts'.2) (joinWhole arg) (joinWhole arg') := by
  refine parallel_bind (parallel_ask harg) fun w w' ⟨hw, _⟩ => ?_
  cases h.lawful.answered _ _ hw with
  | list hitems => exact parallel_pure ⟨rfl, hitems⟩
  | null | boolean | number | string | mapping => exact .fail _

theorem parallel_joinParts (harg : C.asked arg arg') :
    Parallel C (fun parts parts' => parts.1 = parts'.1 ∧
      List.Forall₂ C.answered parts.2 parts'.2) (joinParts arg) (joinParts arg') := by
  have hwhole := h.parallel_joinWhole harg
  cases h.lawful.asked _ _ harg with
  | list hitems =>
    rcases hitems with _ | ⟨hdelimiter, _ | ⟨hlist, _ | _⟩⟩
    · exact hwhole
    · exact hwhole
    · refine parallel_bind (parallel_ask hlist) fun w w' ⟨hw, _⟩ => ?_
      cases h.lawful.answered _ _ hw with
      | list hitems =>
        refine parallel_bind
          (Intrinsic.join.parallel_askString h.lawful .delimiter hdelimiter) ?_
        rintro delimiter _ ⟨rfl, -⟩
        exact parallel_pure ⟨rfl, hitems⟩
      | null | boolean | number | string | mapping => exact hwhole
    · exact hwhole
  | null | boolean | number | string | mapping => exact hwhole

theorem parallel_callJoin (harg : C.asked arg arg') :
    Parallel C C.answered (callJoin arg) (callJoin arg') := by
  refine parallel_bind (h.parallel_joinParts harg) ?_
  rintro ⟨delimiter, items⟩ ⟨_, items'⟩ ⟨rfl, hitems⟩
  simp only [Intrinsic.joinTexts_eq h.lawful hitems]
  cases Intrinsic.joinTexts items with
  | ok texts => exact parallel_pure (h.lawful.string _)
  | error found => exact .fail _

theorem parallel_callSelect (harg : C.asked arg arg') :
    Parallel C C.answered (callSelect arg) (callSelect arg') := by
  cases h.lawful.asked _ _ harg with
  | list hitems =>
    rcases hitems with _ | ⟨hindex, _ | ⟨hlist, _ | _⟩⟩
    · exact .fail _
    · exact .fail _
    · refine parallel_bind (parallel_ask hindex) fun i i' ⟨hi, _⟩ => ?_
      rw [Intrinsic.indexOf?_eq h.lawful hi]
      cases Intrinsic.indexOf? i with
      | none => exact .fail _
      | some index =>
        refine parallel_bind (parallel_ask hlist) fun w w' ⟨hw, _⟩ => ?_
        cases h.lawful.answered _ _ hw with
        | list hitems => exact parallel_pure (Intrinsic.answered_itemAt h.lawful hitems index)
        | null | boolean | number | string | mapping => exact .fail _
    · exact .fail _
  | null | boolean | number | string | mapping => exact .fail _

theorem parallel_callSplit (harg : C.asked arg arg') :
    Parallel C C.answered (callSplit arg) (callSplit arg') := by
  refine parallel_bind (Intrinsic.split.parallel_askStrings h.lawful 2 harg) ?_
  rintro parts _ rfl
  exact parallel_pure (h.lawful.strings _)

/-- The variables of a call come first, then whatever the stacks agree on. -/
theorem parallel_placeholderValue {bindings bindings' : Entries}
    (hbindings : ∀ key, Option.Rel C.asked (bindings.lookup key) (bindings'.lookup key))
    {name : String} (hname : C.shown name) :
    Parallel C C.answered (stack.placeholderValue bindings name)
      (stack'.placeholderValue bindings' name) := by
  unfold placeholderValue
  have hbound := hbindings name
  generalize bindings.lookup name = found, bindings'.lookup name = found' at hbound
  cases hbound with
  | some hv => exact (parallel_ask hv).mono fun _ _ hw => hw.1
  | none =>
    cases hp : PseudoParameter.ofName? name with
    | some pseudo =>
      rw [← PseudoParameter.name_of_ofName? hp] at hname
      exact parallel_pure (h.pseudo pseudo hname)
    | none =>
      cases Text.cutString? "." name with
      | some parts => exact h.parallel_attributeOf parts.1 parts.2
      | none => exact h.parallel_reference hname

theorem parallel_placeholderText {bindings bindings' : Entries}
    (hbindings : ∀ key, Option.Rel C.asked (bindings.lookup key) (bindings'.lookup key))
    {name : String} (hname : C.shown name) :
    Parallel C Eq (stack.placeholderText bindings name)
      (stack'.placeholderText bindings' name) := by
  rw [placeholderText_eq, placeholderText_eq]
  refine parallel_bind (h.parallel_placeholderValue hbindings hname) fun w w' hw => ?_
  rw [Value.plainText?_eq_of_alike h.lawful.answered (h.lawful.answered _ _ hw)]
  cases w.plainText? with
  | some text => exact parallel_pure rfl
  | none => exact .fail _

omit h in
theorem parallel_render {text : String} {lookup lookup' : String → Plan String}
    (hlookup : ∀ name ∈ Placeholder.lookups text, Parallel C Eq (lookup name) (lookup' name)) :
    Parallel C Eq (Placeholder.render text lookup) (Placeholder.render text lookup') := by
  have hpieces : List.Forall₂ (fun piece piece' => piece = piece' ∧ piece ∈ Placeholder.pieces text)
      (Placeholder.pieces text) (Placeholder.pieces text) :=
    List.forall₂_same.mpr fun piece hpiece => ⟨rfl, hpiece⟩
  refine parallel_bind (parallel_mapM (R := Eq) hpieces ?_) fun parts parts' hparts => ?_
  · rintro piece _ ⟨rfl, hpiece⟩
    cases hname : piece.name? with
    | some name => exact hlookup name (List.mem_filterMap.mpr ⟨piece, hpiece, hname⟩)
    | none => exact parallel_pure rfl
  · rw [List.forall₂_eq_eq_eq] at hparts
    exact parallel_pure (congrArg String.join hparts)

theorem parallel_callSub
    (hcall : C.asked (.mapping [(Intrinsic.sub.name, arg)])
      (.mapping [(Intrinsic.sub.name, arg')])) :
    Parallel C C.answered (stack.callSub arg) (stack'.callSub arg') := by
  have harg := h.lawful.asked_arg hcall
  have hfill {template template' : Value} {bindings bindings' : Entries}
      (ht : C.asked template template') (hsub : Intrinsic.subTemplate? arg = some template)
      (hb : ∀ key, Option.Rel C.asked (bindings.lookup key) (bindings'.lookup key)) :
      Parallel C C.answered
        (do
          let text ← Intrinsic.sub.askString .template template
          return .string (← Placeholder.render text (stack.placeholderText bindings)))
        (do
          let text ← Intrinsic.sub.askString .template template'
          return .string (← Placeholder.render text (stack'.placeholderText bindings'))) := by
    refine parallel_bind (Intrinsic.sub.parallel_askString h.lawful .template ht) ?_
    rintro text _ ⟨rfl, hliteral⟩
    refine parallel_bind (parallel_render fun name hname => ?_) ?_
    · exact h.parallel_placeholderText hb (h.shown_sub _ _ _ _ _ hcall hsub hliteral hname)
    · rintro rendered _ rfl
      exact parallel_pure (h.lawful.string rendered)
  have hnone (key : String) :
      Option.Rel C.asked (([] : Entries).lookup key) (([] : Entries).lookup key) := .none
  cases h.lawful.asked _ _ harg with
  | list hitems =>
    rcases hitems with _ | ⟨ht, _ | ⟨hv, _ | _⟩⟩
    · exact .fail _
    · exact .fail _
    · cases h.lawful.asked _ _ hv with
      | mapping _ hb => exact hfill ht rfl hb
      | null | boolean | number | string | list => exact .fail _
    · cases h.lawful.asked _ _ hv <;> exact .fail _
  | null | boolean | number | string | mapping => exact hfill harg rfl hnone

theorem parallel_callBase64 (harg : C.asked arg arg') :
    Parallel C C.answered (callBase64 arg) (callBase64 arg') := by
  refine parallel_bind (Intrinsic.base64.parallel_askString h.lawful .argument harg) ?_
  rintro text _ ⟨rfl, -⟩
  exact parallel_pure (h.lawful.string _)

theorem parallel_callEquals (harg : C.asked arg arg') :
    Parallel C C.answered (callEquals arg) (callEquals arg') := by
  cases h.lawful.asked _ _ harg with
  | list hitems =>
    rcases hitems with _ | ⟨ha, _ | ⟨hb, _ | _⟩⟩
    · exact .fail _
    · exact .fail _
    · refine parallel_bind (parallel_ask ha) fun x x' ⟨hx, _⟩ => ?_
      refine parallel_bind (parallel_ask hb) fun y y' ⟨hy, _⟩ => ?_
      rw [h.lawful.same _ _ _ _ hx hy]
      exact parallel_pure (h.lawful.boolean _)
    · exact .fail _
  | null | boolean | number | string | mapping => exact .fail _

theorem parallel_callBoolean (f : Intrinsic) (op : Bool → Bool → Bool) (harg : C.asked arg arg') :
    Parallel C C.answered (callBoolean f op arg) (callBoolean f op arg') := by
  cases h.lawful.asked _ _ harg with
  | list hitems =>
    rcases hitems with _ | ⟨ha, _ | ⟨hb, _ | _⟩⟩
    · exact .fail _
    · exact .fail _
    · refine parallel_bind (f.parallel_askBoolean h.lawful ha) ?_
      rintro x _ rfl
      refine parallel_bind (f.parallel_askBoolean h.lawful hb) ?_
      rintro y _ rfl
      exact parallel_pure (h.lawful.boolean _)
    · exact .fail _
  | null | boolean | number | string | mapping => exact .fail _

theorem parallel_callNot (harg : C.asked arg arg') :
    Parallel C C.answered (stack.callNot arg) (stack'.callNot arg') := by
  cases h.lawful.asked _ _ harg with
  | list hitems =>
    rcases hitems with _ | ⟨ha, _ | _⟩
    · exact .fail _
    · simp only [callNot, h.config]
      cases stack.config.negation with
      | passthrough => exact (parallel_ask ha).mono fun _ _ hw => hw.1
      | invert =>
        refine parallel_bind (Intrinsic.not.parallel_askBoolean h.lawful ha) ?_
        rintro b _ rfl
        exact parallel_pure (h.lawful.boolean _)
    · exact .fail _
  | null | boolean | number | string | mapping => exact .fail _

theorem parallel_callIf (harg : C.asked arg arg') :
    Parallel C C.answered (stack.callIf arg) (stack'.callIf arg') := by
  cases h.lawful.asked _ _ harg with
  | list hitems =>
    rcases hitems with _ | ⟨hname, _ | ⟨ha, _ | ⟨hb, _ | _⟩⟩⟩
    · exact .fail _
    · exact .fail _
    · exact .fail _
    · refine parallel_bind
        (Intrinsic.ifElse.parallel_askString h.lawful .conditionName hname) ?_
      rintro name _ ⟨rfl, -⟩
      refine parallel_bind (parallel_ask ha) fun x x' ⟨hx, _⟩ => ?_
      refine parallel_bind (parallel_ask hb) fun y y' ⟨hy, _⟩ => ?_
      refine parallel_bind (h.parallel_condition name) ?_
      rintro b _ rfl
      cases b with
      | true => exact parallel_pure hx
      | false => exact parallel_pure hy
    · exact .fail _
  | null | boolean | number | string | mapping => exact .fail _

theorem parallel_callCondition (harg : C.asked arg arg') :
    Parallel C C.answered (stack.callCondition arg) (stack'.callCondition arg') := by
  refine parallel_bind
    (Intrinsic.condition.parallel_askString h.lawful .conditionName harg) ?_
  rintro name _ ⟨rfl, -⟩
  refine parallel_bind (h.parallel_condition name) ?_
  rintro b _ rfl
  exact parallel_pure (h.lawful.boolean b)

/-- **Every function is parallel** in two stacks that correspond, when its calls do. -/
theorem parallel_call {f : Intrinsic}
    (hcall : C.asked (.mapping [(f.name, arg)]) (.mapping [(f.name, arg')])) :
    Parallel C C.answered (stack.call f arg) (stack'.call f arg') := by
  have harg := h.lawful.asked_arg hcall
  cases f with
  | ref => exact h.parallel_callRef hcall
  | getAtt => exact h.parallel_callGetAtt harg
  | findInMap => exact h.parallel_callFindInMap harg
  | join => exact h.parallel_callJoin harg
  | select => exact h.parallel_callSelect harg
  | split => exact h.parallel_callSplit harg
  | sub => exact h.parallel_callSub hcall
  | base64 => exact h.parallel_callBase64 harg
  | getAzs => exact .fail _
  | importValue => exact .fail _
  | equals => exact h.parallel_callEquals harg
  | and => exact h.parallel_callBoolean .and _ harg
  | or => exact h.parallel_callBoolean .or _ harg
  | not => exact h.parallel_callNot harg
  | ifElse => exact h.parallel_callIf harg
  | condition => exact h.parallel_callCondition harg

end Stack.Corresponds
end StackTemplate
