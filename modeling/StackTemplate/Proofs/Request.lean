import StackTemplate.Proofs.Outcome
import StackTemplate.Proofs.Traversal

/-!
# What a plan asks for and how it may fail

A plan of a stack asks for the names of declared resources of known kinds only, and every error
that it raises by itself is true of the template: the name that is said not to be declared is
not declared, the look-up that is said to fail does fail.  `Plan.Honest` says so of one plan,
for whatever answers its requests may get.  It is kept by putting plans together, so there is
one lemma for each function, and `honest_call` and `honest_plan` collect them.

Three errors never come from a plan by itself: that the depth was exceeded, that a name refers
to itself, and that facts are missing.
-/

namespace StackTemplate

/-! ## 1. Declared names and true errors -/

/-- The resource is declared with a known kind, and `keys` are the properties that may name a
resource of this kind. -/
def Stack.Names (stack : Stack) (r : Resource) (keys : List String) : Prop :=
  stack.template.resource? r.name = some r ∧
    ∃ kind, ResourceKind.ofTypeName? r.typeName = some kind ∧ keys = kind.namingProperties

theorem Template.name_of_resource? {t : Template} {name : String} {r : Resource}
    (h : t.resource? name = some r) : r.name = name := by
  obtain ⟨definition, -, rfl⟩ := Option.map_eq_some_iff.mp h
  rfl

/-- A name stands for one resource and one list of properties. -/
theorem Stack.Names.unique {stack : Stack} {r r' : Resource} {keys keys' : List String}
    (h : stack.Names r keys) (h' : stack.Names r' keys') (hn : r.name = r'.name) :
    r = r' ∧ keys = keys' := by
  obtain ⟨hr, kind, hk, rfl⟩ := h
  obtain ⟨hr', kind', hk', rfl⟩ := h'
  rw [hn, hr', Option.some.injEq] at hr
  subst hr
  rw [hk', Option.some.injEq] at hk
  subst hk
  exact ⟨rfl, rfl⟩

/-- The faults that a function may find in its argument. -/
def Intrinsic.MayRefuse : Intrinsic → ArgumentFault → Prop
  | .ref, .notString .name found => found ≠ .string
  | .getAtt, .notString .argument found => found ≠ .string
  | .getAtt, .notStrings count => count = 2
  | .getAtt, .notDotted text => Text.cutString? "." text = none
  | .findInMap, .notStrings count => count = 3
  | .join, .notString .delimiter found => found ≠ .string
  | .join, .notList found => found ≠ .list
  | .join, .itemNotString found => found ≠ .string ∧ found ≠ .null
  | .select, .notArguments count => count = 2
  | .select, .indexNotInteger => True
  | .select, .secondNotList => True
  | .split, .notStrings count => count = 2
  | .sub, .notString .template found => found ≠ .string
  | .sub, .notTemplate => True
  | .sub, .placeholderIsMapping _ => True
  | .base64, .notString .argument found => found ≠ .string
  | .equals, .notArguments count => count = 2
  | .and, .notArguments count => count = 2
  | .and, .notBoolean found => found ≠ .boolean
  | .or, .notArguments count => count = 2
  | .or, .notBoolean found => found ≠ .boolean
  | .not, .notArguments count => count = 1
  | .not, .notBoolean found => found ≠ .boolean
  | .ifElse, .notArguments count => count = 3
  | .ifElse, .notString .conditionName found => found ≠ .string
  | .condition, .notString .conditionName found => found ≠ .string
  | _, _ => False

/-- **The error is true of the stack**, where `answers v w` says that `v` may resolve to `w`. -/
def Stack.Fault (stack : Stack) (answers : Value → Value → Prop) : ResolutionError → Prop
  | .invalidArguments f fault => f.MayRefuse fault
  | .unresolvedReference name =>
    PseudoParameter.ofName? name = none ∧ stack.template.parameter? name = none ∧
      stack.template.resource? name = none
  | .unknownResource name => stack.template.resource? name = none
  | .unsupportedKind resource typeName =>
    ∃ r, stack.template.resource? resource = some r ∧ r.typeName = typeName ∧
      ∀ kind : ResourceKind, kind.typeName ≠ typeName
  | .unknownAttribute resource typeName attr =>
    ∃ r kind, stack.template.resource? resource = some r ∧ r.typeName = typeName ∧
      ResourceKind.typeName kind = typeName ∧
      ∀ name context, (kind.values name context).attribute? attr = none
  | .invalidName resource fault =>
    ∃ r keys property found, r.name = resource ∧ stack.Names r keys ∧
      r.firstProperty? keys = some property ∧ fault = .notString found ∧
      answers property found ∧ found.kind ≠ .string ∧ found.kind ≠ .null
  | .mappingLookup mapping key attr => stack.template.mappingEntry? mapping key attr = none
  | .unknownCondition name => stack.template.condition? name = none
  | .conditionNotBoolean name found =>
    ∃ expression, stack.template.condition? name = some expression ∧
      answers expression found ∧ found.kind ≠ .boolean
  | .unsupportedParameterType parameter declared =>
    ∃ declaration, stack.template.parameter? parameter = some declaration ∧
      Parameter.declaredType declaration = declared ∧
      ParameterType.ofDeclared? declared = none
  | .invalidParameterValue parameter text =>
    ∃ declaration, stack.template.parameter? parameter = some declaration ∧
      (Parameter.declaredType declaration = "Number" ∨
        Parameter.declaredType declaration = "List<Number>") ∧
      Number.ofText? text.toList = none
  | .missingParameterValue parameter =>
    ∃ declaration, stack.template.parameter? parameter = some declaration ∧
      ParameterType.ofDeclared? (Parameter.declaredType declaration) ≠ none ∧
      stack.supplied.lookup parameter = none ∧
      (declaration.get? "Default" = none ∨ declaration.get? "Default" = some .null ∨
        ∃ entries, declaration.get? "Default" = some (.mapping entries))
  | .notImplemented f => f = .getAzs ∨ f = .importValue
  | .depthExceeded _ => False
  | .context _ => False

theorem Stack.Fault.ne_depthExceeded {stack : Stack} {answers : Value → Value → Prop}
    {e : ResolutionError} (h : stack.Fault answers e) (limit : Nat) : e ≠ .depthExceeded limit := by
  rintro rfl
  exact h

/-! ## 2. Honest plans -/

namespace Plan

/-- **The plan is honest**: it asks for declared names only, and what it fails with is true, for
all answers that it may get. -/
def Honest (stack : Stack) (answers : Value → Value → Prop) {α : Type} : Plan α → Prop
  | .done _ => True
  | .fail e => stack.Fault answers e
  | .resolve v next => ∀ w, answers v w → (next w).Honest stack answers
  | .name r keys next => stack.Names r keys ∧ ∀ name, (next name).Honest stack answers

variable {stack : Stack} {answers : Value → Value → Prop} {α β : Type}

theorem honest_pure (a : α) : (pure a : Plan α).Honest stack answers := trivial

theorem honest_ask (v : Value) : (ask v).Honest stack answers := fun _ _ => trivial

theorem honest_bind {x : Plan α} {f : α → Plan β} (hx : x.Honest stack answers)
    (hf : ∀ a, (f a).Honest stack answers) : (x >>= f).Honest stack answers := by
  change (x.bind f).Honest stack answers
  induction x with
  | done a => exact hf a
  | fail e => exact hx
  | resolve v next ih => exact fun w hw => ih w (hx w hw)
  | name r keys next ih => exact ⟨hx.1, fun name => ih name (hx.2 name)⟩

/-- After a request the plan goes on with an answer that the request may get. -/
theorem honest_ask_bind {v : Value} {f : Value → Plan β}
    (hf : ∀ w, answers v w → (f w).Honest stack answers) :
    (ask v >>= f).Honest stack answers := hf

theorem honest_map {x : Plan α} (f : α → β) (hx : x.Honest stack answers) :
    (f <$> x).Honest stack answers := by
  rw [map_eq_pure_bind]
  exact honest_bind hx fun a => honest_pure (f a)

theorem honest_mapM {f : α → Plan β} (items : List α)
    (h : ∀ x, (f x).Honest stack answers) : (items.mapM f).Honest stack answers := by
  induction items with
  | nil => exact honest_pure []
  | cons x rest ih =>
    rw [List.mapM_cons]
    refine honest_bind (h x) fun y => ?_
    exact honest_bind ih fun ys => honest_pure (y :: ys)

end Plan

/-! ## 3. The parts of arguments -/

namespace Intrinsic

variable {stack : Stack} {answers : Value → Value → Prop} (f : Intrinsic)

theorem honest_reject {α : Type} {fault : ArgumentFault} (h : f.MayRefuse fault) :
    (f.reject fault : Plan α).Honest stack answers := h

theorem honest_askString (role : ArgumentRole)
    (h : ∀ found, found ≠ .string → f.MayRefuse (.notString role found)) (v : Value) :
    (f.askString role v).Honest stack answers := by
  unfold askString
  refine Plan.honest_bind (Plan.honest_ask v) fun w => ?_
  cases w with
  | string s => exact Plan.honest_pure s
  | null | boolean | number | list | mapping => exact f.honest_reject (h _ (by simp [Value.kind]))

theorem honest_askBoolean (h : ∀ found, found ≠ .boolean → f.MayRefuse (.notBoolean found))
    (v : Value) : (f.askBoolean v).Honest stack answers := by
  unfold askBoolean
  refine Plan.honest_bind (Plan.honest_ask v) fun w => ?_
  cases w with
  | boolean b => exact Plan.honest_pure b
  | null | string | number | list | mapping => exact f.honest_reject (h _ (by simp [Value.kind]))

theorem honest_askStrings {count : Nat} (h : f.MayRefuse (.notStrings count)) (arg : Value) :
    (f.askStrings count arg).Honest stack answers := by
  unfold askStrings
  refine Plan.honest_bind (Plan.honest_ask arg) fun w => ?_
  cases w.asVector? count with
  | some texts => exact Plan.honest_pure texts
  | none => exact f.honest_reject h

/-- The item that stops a join is neither a string nor null. -/
theorem kind_of_joinTexts_error {items : List Value} {found : ValueKind}
    (h : joinTexts items = .error found) : found ≠ .string ∧ found ≠ .null := by
  induction items with
  | nil => cases h
  | cons v rest ih =>
    cases v with
    | string s =>
      rw [joinTexts] at h
      cases hr : joinTexts rest with
      | error k =>
        rw [hr] at h
        cases h
        exact ih hr
      | ok texts =>
        rw [hr] at h
        cases h
    | null => exact ih h
    | boolean | number | list | mapping =>
      cases h
      simp [Value.kind]

end Intrinsic

/-! ## 4. The names of a stack -/

/-- The attributes of a resource depend on its kind alone. -/
theorem ResourceKind.attribute?_eq_none (kind : ResourceKind) {attr name : String}
    {context : Context} (h : (kind.values name context).attribute? attr = none)
    (name' : String) (context' : Context) :
    (kind.values name' context').attribute? attr = none := by
  have hkeys : (kind.values name context).attributes.map Prod.fst =
      (kind.values name' context').attributes.map Prod.fst := by
    cases kind <;> simp only [values, List.map_cons, List.map_nil]
  rw [ResourceValues.attribute?, List.lookup_eq_none_iff] at h ⊢
  intro e he
  have hmem : e.1 ∈ (kind.values name context).attributes.map Prod.fst := by
    rw [hkeys]
    exact List.mem_map_of_mem he
  obtain ⟨e', he', heq⟩ := List.mem_map.mp hmem
  rw [← heq]
  exact h e' he'

theorem ResourceKind.typeName_ne_of_ofTypeName?_none {typeName : String}
    (h : ofTypeName? typeName = none) (kind : ResourceKind) : kind.typeName ≠ typeName := by
  have := List.find?_eq_none.mp h kind kind.mem_all
  simpa using this

namespace Stack

variable (stack : Stack) {answers : Value → Value → Prop}

/-- Whatever is done with the values of a declared resource, they are the values of its kind. -/
theorem honest_valuesOf_bind {α : Type} {name : String} {r : Resource}
    (hr : stack.template.resource? name = some r) {f : ResourceValues → Plan α}
    (hf : ∀ kind display, ResourceKind.ofTypeName? r.typeName = some kind →
      (f (kind.values display stack.context)).Honest stack answers) :
    (stack.valuesOf r >>= f).Honest stack answers := by
  have hn := Template.name_of_resource? hr
  subst hn
  unfold valuesOf
  cases hk : ResourceKind.ofTypeName? r.typeName with
  | none => exact ⟨r, hr, rfl, ResourceKind.typeName_ne_of_ofTypeName?_none hk⟩
  | some kind => exact ⟨⟨hr, kind, hk, rfl⟩, fun display => hf kind display hk⟩

theorem honest_valuesOf {name : String} {r : Resource}
    (hr : stack.template.resource? name = some r) :
    (stack.valuesOf r).Honest stack answers := by
  rw [← bind_pure (stack.valuesOf r)]
  exact stack.honest_valuesOf_bind hr fun kind display _ => Plan.honest_pure _

theorem honest_attributeOf (resource attr : String) :
    (stack.attributeOf resource attr).Honest stack answers := by
  unfold attributeOf
  cases hr : stack.template.resource? resource with
  | none => exact hr
  | some r =>
    refine stack.honest_valuesOf_bind hr fun kind display hk => ?_
    cases ha : (kind.values display stack.context).attribute? attr with
    | some text => exact Plan.honest_pure _
    | none =>
      exact ⟨r, kind, hr, rfl, ResourceKind.typeName_of_ofTypeName? hk,
        kind.attribute?_eq_none ha⟩

theorem honest_tableEntry (mapping key attr : String) :
    (stack.tableEntry mapping key attr).Honest stack answers := by
  unfold tableEntry
  cases he : stack.template.mappingEntry? mapping key attr with
  | none => exact he
  | some v => exact Plan.honest_pure v

theorem honest_condition (name : String) :
    (stack.condition name).Honest stack answers := by
  unfold condition
  cases hc : stack.template.condition? name with
  | none => exact hc
  | some expression =>
    refine Plan.honest_ask_bind fun w hw => ?_
    cases w with
    | boolean b => exact Plan.honest_pure b
    | null | string | number | list | mapping =>
      exact ⟨expression, hc, hw, by simp [Value.kind]⟩

end Stack

/-! ## 5. Parameters -/

namespace Parameter

theorem ofText?_of_number_error {parameter raw : String} {e : ResolutionError}
    (h : number parameter raw = .error e) :
    e = .invalidParameterValue parameter raw ∧ Number.ofText? raw.toList = none := by
  unfold number at h
  cases hn : Number.ofText? raw.toList with
  | some n =>
    rw [hn] at h
    cases h
  | none =>
    rw [hn] at h
    cases h
    exact ⟨rfl, rfl⟩

/-- Only the two types of numbers refuse a text, and they name a text that is no number. -/
theorem eq_of_interpret_error {parameter raw : String} {type : ParameterType}
    {e : ResolutionError} (h : interpret parameter raw type = .error e) :
    (type = .number ∨ type = .numberList) ∧
      ∃ text, e = .invalidParameterValue parameter text ∧
        Number.ofText? text.toList = none := by
  cases type with
  | string | stringList => cases h
  | number =>
    obtain ⟨he, hn⟩ := ofText?_of_number_error h
    exact ⟨Or.inl rfl, raw, he, hn⟩
  | numberList =>
    rw [interpret, map_error_iff, mapM_error_iff] at h
    obtain ⟨-, text, -, -, -, htext⟩ := h
    obtain ⟨he, hn⟩ := ofText?_of_number_error htext
    exact ⟨Or.inr rfl, text, he, hn⟩

/-- A type of numbers has one spelling. -/
theorem declared_of_ofDeclared?_number {declared : String} {type : ParameterType}
    (h : ParameterType.ofDeclared? declared = some type)
    (ht : type = .number ∨ type = .numberList) :
    declared = "Number" ∨ declared = "List<Number>" := by
  unfold ParameterType.ofDeclared? at h
  rcases ht with rfl | rfl
  all_goals
    repeat' split at h
    all_goals simp_all

/-- A default without text is absent, null or a mapping. -/
theorem of_defaultText?_none {default : Option Value} (h : defaultText? default = none) :
    default = none ∨ default = some .null ∨ ∃ entries, default = some (.mapping entries) := by
  cases default with
  | none => exact Or.inl rfl
  | some v =>
    cases v with
    | null => exact Or.inr (Or.inl rfl)
    | mapping entries => exact Or.inr (Or.inr ⟨entries, rfl⟩)
    | boolean | number | string | list => cases h

end Parameter

namespace Stack

variable (stack : Stack) {answers : Value → Value → Prop}

/-- The value of a declared parameter, or an error that is true of its declaration. -/
theorem fault_of_parameter_error {name : String} {declaration : Value} {e : ResolutionError}
    (hp : stack.template.parameter? name = some declaration)
    (h : Parameter.value name declaration (stack.supplied.lookup name) = .error e) :
    stack.Fault answers e := by
  unfold Parameter.value at h
  cases ht : ParameterType.ofDeclared? (Parameter.declaredType declaration) with
  | none =>
    simp only [ht] at h
    cases h
    exact ⟨declaration, hp, rfl, ht⟩
  | some type =>
    have hint : ∀ raw, Parameter.interpret name raw type = .error e → stack.Fault answers e := by
      intro raw hr
      obtain ⟨htype, text, rfl, hn⟩ := Parameter.eq_of_interpret_error hr
      exact ⟨declaration, hp, Parameter.declared_of_ofDeclared?_number ht htype, hn⟩
    simp only [ht] at h
    cases hs : stack.supplied.lookup name with
    | some raw =>
      simp only [hs] at h
      exact hint raw h
    | none =>
      simp only [hs] at h
      cases hd : Parameter.defaultText? (declaration.get? "Default") with
      | some raw =>
        simp only [hd] at h
        exact hint raw h
      | none =>
        simp only [hd] at h
        cases h
        exact ⟨declaration, hp, by simp [ht], hs, Parameter.of_defaultText?_none hd⟩

theorem honest_reference (name : String) : (stack.reference name).Honest stack answers := by
  unfold reference
  cases hps : PseudoParameter.ofName? name with
  | some pseudo => exact Plan.honest_pure _
  | none =>
    cases hp : stack.template.parameter? name with
    | some declaration =>
      simp only
      cases hv : Parameter.value name declaration (stack.supplied.lookup name) with
      | ok v => exact Plan.honest_pure v
      | error e => exact stack.fault_of_parameter_error hp hv
    | none =>
      cases hr : stack.template.resource? name with
      | some r =>
        refine Plan.honest_bind (stack.honest_valuesOf hr) fun values => ?_
        exact Plan.honest_pure _
      | none => exact ⟨hps, hp, hr⟩

/-! ## 6. The functions -/

theorem honest_callRef (arg : Value) : (stack.callRef arg).Honest stack answers := by
  refine Plan.honest_bind (Intrinsic.ref.honest_askString .name (fun _ h => h) arg) fun name => ?_
  exact stack.honest_reference name

theorem honest_callGetAtt (arg : Value) : (stack.callGetAtt arg).Honest stack answers := by
  unfold callGetAtt
  split
  · refine Plan.honest_bind (Intrinsic.getAtt.honest_askString .argument (fun _ h => h) _) ?_
    intro dotted
    cases hc : Text.cutString? "." dotted with
    | none => exact hc
    | some parts => exact stack.honest_attributeOf parts.1 parts.2
  · refine Plan.honest_bind (Intrinsic.getAtt.honest_askStrings rfl _) fun parts => ?_
    exact stack.honest_attributeOf parts[0] parts[1]

theorem honest_callFindInMap (arg : Value) : (stack.callFindInMap arg).Honest stack answers := by
  refine Plan.honest_bind (Intrinsic.findInMap.honest_askStrings rfl arg) fun path => ?_
  exact stack.honest_tableEntry path[0] path[1] path[2]

theorem honest_joinWhole (arg : Value) : (joinWhole arg).Honest stack answers := by
  refine Plan.honest_bind (Plan.honest_ask arg) fun w => ?_
  cases w with
  | list items => exact Plan.honest_pure _
  | null | boolean | number | string | mapping =>
    exact Intrinsic.join.honest_reject (by simp [Intrinsic.MayRefuse, Value.kind])

theorem honest_joinParts (arg : Value) : (joinParts arg).Honest stack answers := by
  unfold joinParts
  split
  · refine Plan.honest_bind (Plan.honest_ask _) fun w => ?_
    cases w with
    | list items =>
      refine Plan.honest_bind (Intrinsic.join.honest_askString .delimiter (fun _ h => h) _) ?_
      intro delimiter
      exact Plan.honest_pure _
    | null | boolean | number | string | mapping => exact stack.honest_joinWhole _
  · exact stack.honest_joinWhole arg

theorem honest_callJoin (arg : Value) : (callJoin arg).Honest stack answers := by
  refine Plan.honest_bind (stack.honest_joinParts arg) fun ⟨delimiter, items⟩ => ?_
  simp only
  cases hj : Intrinsic.joinTexts items with
  | ok texts => exact Plan.honest_pure _
  | error found => exact Intrinsic.join.honest_reject (Intrinsic.kind_of_joinTexts_error hj)

theorem honest_callSelect (arg : Value) : (callSelect arg).Honest stack answers := by
  unfold callSelect
  split
  · refine Plan.honest_bind (Plan.honest_ask _) fun index => ?_
    cases Intrinsic.indexOf? index with
    | none => exact Intrinsic.select.honest_reject trivial
    | some i =>
      refine Plan.honest_bind (Plan.honest_ask _) fun list => ?_
      cases list with
      | list items => exact Plan.honest_pure _
      | null | boolean | number | string | mapping => exact Intrinsic.select.honest_reject trivial
  · exact Intrinsic.select.honest_reject rfl

theorem honest_callSplit (arg : Value) : (callSplit arg).Honest stack answers := by
  refine Plan.honest_bind (Intrinsic.split.honest_askStrings rfl arg) fun parts => ?_
  exact Plan.honest_pure _

/-- The value of a placeholder, before it is turned into text. -/
def placeholderValue (bindings : Entries) (name : String) : Plan Value :=
  match bindings.lookup name with
  | some v => Plan.ask v
  | none =>
    match PseudoParameter.ofName? name with
    | some pseudo => pure (stack.context.pseudoValue pseudo)
    | none =>
      match Text.cutString? "." name with
      | some (resource, attr) => stack.attributeOf resource attr
      | none => stack.reference name

theorem placeholderText_eq (bindings : Entries) (name : String) :
    stack.placeholderText bindings name =
      stack.placeholderValue bindings name >>= fun value =>
        match value.plainText? with
        | some text => pure text
        | none => Intrinsic.sub.reject (.placeholderIsMapping name) := by
  unfold placeholderText placeholderValue
  cases bindings.lookup name with
  | some v => rfl
  | none =>
    cases PseudoParameter.ofName? name with
    | some pseudo => rfl
    | none => cases Text.cutString? "." name <;> rfl

theorem honest_placeholderText (bindings : Entries) (name : String) :
    (stack.placeholderText bindings name).Honest stack answers := by
  rw [placeholderText_eq]
  refine Plan.honest_bind ?_ fun value => ?_
  · unfold placeholderValue
    cases bindings.lookup name with
    | some v => exact Plan.honest_ask v
    | none =>
      cases PseudoParameter.ofName? name with
      | some pseudo => exact Plan.honest_pure _
      | none =>
        cases Text.cutString? "." name with
        | some parts => exact stack.honest_attributeOf parts.1 parts.2
        | none => exact stack.honest_reference name
  · cases value.plainText? with
    | some text => exact Plan.honest_pure text
    | none => exact Intrinsic.sub.honest_reject trivial

theorem honest_render (template : String) {lookup : String → Plan String}
    (h : ∀ name, (lookup name).Honest stack answers) :
    (Placeholder.render template lookup).Honest stack answers := by
  refine Plan.honest_bind (Plan.honest_mapM _ fun piece => ?_) fun parts => Plan.honest_pure _
  cases piece.name? with
  | some name => exact h name
  | none => exact Plan.honest_pure _

theorem honest_callSub (arg : Value) : (stack.callSub arg).Honest stack answers := by
  have hfill (template : Value) (bindings : Entries) :
      (do
        let text ← Intrinsic.sub.askString .template template
        return Value.string (← Placeholder.render text (stack.placeholderText bindings)) :
          Plan Value).Honest stack answers := by
    refine Plan.honest_bind (Intrinsic.sub.honest_askString .template (fun _ h => h) template) ?_
    intro text
    refine Plan.honest_bind (stack.honest_render text ?_) fun rendered => Plan.honest_pure _
    exact stack.honest_placeholderText bindings
  unfold callSub
  split
  · exact hfill _ _
  · exact Intrinsic.sub.honest_reject trivial
  · exact hfill _ _

theorem honest_callBase64 (arg : Value) : (callBase64 arg).Honest stack answers := by
  refine Plan.honest_bind (Intrinsic.base64.honest_askString .argument (fun _ h => h) arg) ?_
  intro text
  exact Plan.honest_pure _

theorem honest_callEquals (arg : Value) : (callEquals arg).Honest stack answers := by
  unfold callEquals
  split
  · refine Plan.honest_bind (Plan.honest_ask _) fun x => ?_
    refine Plan.honest_bind (Plan.honest_ask _) fun y => ?_
    exact Plan.honest_pure _
  · exact Intrinsic.equals.honest_reject rfl

theorem honest_callBoolean (f : Intrinsic) (hf : f.MayRefuse (.notArguments 2))
    (hb : ∀ found, found ≠ .boolean → f.MayRefuse (.notBoolean found)) (op : Bool → Bool → Bool)
    (arg : Value) : (callBoolean f op arg).Honest stack answers := by
  unfold callBoolean
  split
  · refine Plan.honest_bind (f.honest_askBoolean hb _) fun x => ?_
    refine Plan.honest_bind (f.honest_askBoolean hb _) fun y => ?_
    exact Plan.honest_pure _
  · exact f.honest_reject hf

theorem honest_callNot (arg : Value) : (stack.callNot arg).Honest stack answers := by
  unfold callNot
  split
  · cases stack.config.negation with
    | passthrough => exact Plan.honest_ask _
    | invert =>
      refine Plan.honest_bind (Intrinsic.not.honest_askBoolean (fun _ h => h) _) fun b => ?_
      exact Plan.honest_pure _
  · exact Intrinsic.not.honest_reject rfl

theorem honest_callIf (arg : Value) : (stack.callIf arg).Honest stack answers := by
  unfold callIf
  split
  · refine Plan.honest_bind (Intrinsic.ifElse.honest_askString .conditionName (fun _ h => h) _) ?_
    intro name
    refine Plan.honest_bind (Plan.honest_ask _) fun whenTrue => ?_
    refine Plan.honest_bind (Plan.honest_ask _) fun whenFalse => ?_
    refine Plan.honest_bind (stack.honest_condition name) fun b => ?_
    exact Plan.honest_pure _
  · exact Intrinsic.ifElse.honest_reject rfl

theorem honest_callCondition (arg : Value) : (stack.callCondition arg).Honest stack answers := by
  refine Plan.honest_bind
    (Intrinsic.condition.honest_askString .conditionName (fun _ h => h) arg) ?_
  intro name
  refine Plan.honest_bind (stack.honest_condition name) fun b => ?_
  exact Plan.honest_pure _

/-- **Every function is honest**, whatever its argument. -/
theorem honest_call (f : Intrinsic) (arg : Value) : (stack.call f arg).Honest stack answers := by
  cases f with
  | ref => exact stack.honest_callRef arg
  | getAtt => exact stack.honest_callGetAtt arg
  | findInMap => exact stack.honest_callFindInMap arg
  | join => exact stack.honest_callJoin arg
  | select => exact stack.honest_callSelect arg
  | split => exact stack.honest_callSplit arg
  | sub => exact stack.honest_callSub arg
  | base64 => exact stack.honest_callBase64 arg
  | getAzs => exact Or.inl rfl
  | importValue => exact Or.inr rfl
  | equals => exact stack.honest_callEquals arg
  | and => exact stack.honest_callBoolean .and rfl (fun _ h => h) _ arg
  | or => exact stack.honest_callBoolean .or rfl (fun _ h => h) _ arg
  | not => exact stack.honest_callNot arg
  | ifElse => exact stack.honest_callIf arg
  | condition => exact stack.honest_callCondition arg

/-! ## 7. Values, names and operations -/

/-- **What it takes to resolve a value is honest.** -/
theorem honest_plan (v : Value) : (stack.plan v).Honest stack answers := by
  cases v with
  | list items => exact Plan.honest_map _ (Plan.honest_mapM items Plan.honest_ask)
  | mapping entries =>
    simp only [plan]
    cases Intrinsic.ofCall? entries with
    | some c => exact stack.honest_call c.1 c.2
    | none =>
      refine Plan.honest_map _ (Plan.honest_mapM entries fun e => ?_)
      exact Plan.honest_map _ (Plan.honest_ask e.2)
  | null | boolean | number | string => exact Plan.honest_pure _

/-- How a declared resource gets its name is honest, too. -/
theorem honest_naming {r : Resource} {keys : List String} (h : stack.Names r keys) :
    (r.naming keys).Honest stack answers := by
  unfold Resource.naming
  cases hp : r.firstProperty? keys with
  | none => exact Plan.honest_pure _
  | some property =>
    intro w hw
    cases w with
    | string name => exact Plan.honest_pure name
    | null => exact Plan.honest_pure r.name
    | boolean | number | list | mapping =>
      exact ⟨r, keys, property, _, rfl, h, hp, rfl, hw, by simp [Value.kind]⟩

theorem honest_operation (op : Operation) : (op.plan stack).Honest stack answers := by
  cases op with
  | document => exact Plan.honest_map _ (Plan.honest_ask _)
  | resolve v => exact Plan.honest_map _ (Plan.honest_ask v)
  | reference name => exact Plan.honest_map _ (stack.honest_reference name)
  | attributeOf resource attr => exact Plan.honest_map _ (stack.honest_attributeOf resource attr)
  | condition name => exact Plan.honest_map _ (stack.honest_condition name)
  | call key arg =>
    simp only [Operation.plan]
    cases Intrinsic.ofName? key with
    | some f => exact Plan.honest_map _ (stack.honest_call f arg)
    | none => exact Plan.honest_pure _
  | values name =>
    simp only [Operation.plan]
    cases hr : stack.template.resource? name with
    | some r => exact Plan.honest_map _ (stack.honest_valuesOf hr)
    | none => exact Plan.honest_pure _

end Stack
end StackTemplate
