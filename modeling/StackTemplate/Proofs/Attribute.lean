import StackTemplate.Proofs.Fields
import StackTemplate.Proofs.History
import StackTemplate.Proofs.Joining
import StackTemplate.Proofs.Reordered
import StackTemplate.Proofs.Spelling

/-!
# Attributes of resources

A kind of resource has a fixed list of attributes.  Which ones these are depends on neither the name
nor the deployment, so looking up an attribute has a value for each name in the list and an error
for any other name, as soon as the display name of the resource is found (sections 8 and 14 of the
specification).

There are three ways to write the look-up: the two names in a list, the two names with a point
between them, and a placeholder.  All three come to one look-up with the same levels left.  They can
differ only where the two names are taken apart again, which is at the first point: an attribute may
have points in it, a resource that is written so may not.

* `ResourceKind.attributeNames`: the attributes of a kind.
* `Displays.gives_valuesOf`: the values of a resource whose display name resolves.
* `resolve_attributeCall`, `resolve_dottedCall`, `resolve_placeholderCall_dotted`: the three
  spellings.
-/

namespace StackTemplate

/-! ## 1. The attributes of a kind -/

namespace ResourceKind

/-- **The attributes of a kind.** -/
def attributeNames : ResourceKind → List String
  | .sqsQueue => ["Arn", "QueueName", "QueueUrl"]
  | .sqsQueuePolicy => []
  | .snsTopic => ["TopicArn", "TopicName"]
  | .snsSubscription => []
  | .s3Bucket => ["Arn", "DomainName", "DualStackDomainName", "RegionalDomainName", "WebsiteURL"]
  | .lambdaFunction => ["Arn"]
  | .iamRole => ["Arn", "RoleId"]
  | .iamManagedPolicy => ["PolicyArn"]
  | .dynamoDbTable => ["Arn", "StreamArn"]
  | .kinesisStream => ["Arn"]
  | .logGroup => ["Arn"]
  | .eventsRule => ["Arn"]
  | .stateMachine => ["Arn", "Name"]
  | .securityGroup => ["GroupId"]
  | .restApi => ["RootResourceId"]

/-- A resource of the kind has these attributes under every name and in every deployment. -/
theorem keys_values (kind : ResourceKind) (display : String) (c : Context) :
    (kind.values display c).attributes.map Prod.fst = kind.attributeNames := by
  cases kind <;> rfl

theorem attribute?_eq_none_iff {kind : ResourceKind} {display : String} {c : Context}
    {attr : String} :
    (kind.values display c).attribute? attr = none ↔ attr ∉ kind.attributeNames := by
  rw [← kind.keys_values display c, ResourceValues.attribute?]
  constructor
  · intro h hmem
    obtain ⟨text, htext⟩ := exists_lookup hmem
    rw [h] at htext
    cases htext
  · intro h
    cases htext : (kind.values display c).attributes.lookup attr with
    | none => rfl
    | some text => exact absurd (mem_keys_of_lookup htext) h

end ResourceKind

namespace Stack

variable {stack : Stack} {r : Resource} {kind : ResourceKind} {display : String}

/-! ## 2. Display names -/

/-- **The display name of a resource resolves to `display`**: working it out with these properties
ends so, under some limit and after some operations. -/
def Displays (stack : Stack) (r : Resource) (keys : List String) (display : String) : Prop :=
  ∃ limit ops, ((stack.withLimit limit).perform (.name r keys .done)
    ((stack.withLimit limit).after ops .start)).1 = .ok display

theorem Displays.gives {keys : List String} (h : stack.Displays r keys display)
    (hr : stack.Names r keys) : stack.Gives ∅ (.name r keys .done) (.ok display) := by
  obtain ⟨limit, ops, h⟩ := h
  have hhonest : (Plan.name r keys .done).Honest (stack.withLimit limit) fun _ _ => True :=
    ⟨hr, fun _ => trivial⟩
  rcases (stack.withLimit limit).perform_after_start ops hhonest h with hd | hgives
  · cases hd
  · exact gives_withLimit_iff.mp hgives

/-- The values of the resource are then those of its kind. -/
theorem Displays.gives_valuesOf (h : stack.Displays r kind.namingProperties display)
    (hr : stack.template.resource? r.name = some r)
    (hkind : ResourceKind.ofTypeName? r.typeName = some kind) :
    stack.Gives ∅ (stack.valuesOf r) (.ok (kind.values display stack.context)) := by
  have hname := h.gives ⟨hr, kind, hkind, rfl⟩
  have hdone : stack.Gives ∅ (.done (kind.values display stack.context))
      (.ok (kind.values display stack.context)) := .done _
  simp only [valuesOf, hkind]
  exact Gives.bind hname hdone

theorem Displays.endsWith_values (h : stack.Displays r kind.namingProperties display)
    (hr : stack.template.resource? r.name = some r)
    (hkind : ResourceKind.ofTypeName? r.typeName = some kind) :
    stack.EndsWith (.values r.name) (.ok (.values (kind.values display stack.context))) := by
  rw [endsWith_iff_gives]
  simp only [Operation.plan, hr]
  exact gives_map_ok_iff.mpr ⟨_, h.gives_valuesOf hr hkind, rfl⟩

/-- A reference to the resource, if its name stands for nothing else. -/
theorem Displays.endsWith_reference (h : stack.Displays r kind.namingProperties display)
    (hr : stack.template.resource? r.name = some r)
    (hkind : ResourceKind.ofTypeName? r.typeName = some kind)
    (hpseudo : PseudoParameter.ofName? r.name = none)
    (hparameter : stack.template.parameter? r.name = none) :
    stack.EndsWith (.reference r.name)
      (.ok (.value (.string (kind.values display stack.context).reference))) := by
  rw [endsWith_iff_gives]
  simp only [Operation.plan, reference, hpseudo, hparameter, hr]
  exact gives_map_ok_iff.mpr ⟨_, (h.gives_valuesOf hr hkind).bind (.done _), rfl⟩

/-- **An attribute of the kind** has its value... -/
theorem Displays.endsWith_attributeOf (h : stack.Displays r kind.namingProperties display)
    (hr : stack.template.resource? r.name = some r)
    (hkind : ResourceKind.ofTypeName? r.typeName = some kind) {attr text : String}
    (htext : (kind.values display stack.context).attribute? attr = some text) :
    stack.EndsWith (.attributeOf r.name attr) (.ok (.value (.string text))) := by
  rw [endsWith_iff_gives]
  simp only [Operation.plan, attributeOf, hr]
  refine gives_map_ok_iff.mpr ⟨.string text, ?_, rfl⟩
  refine (h.gives_valuesOf hr hkind).bind ?_
  rw [htext]
  exact .done _

/-- ...**and any other name is an error.** -/
theorem Displays.endsWith_unknownAttribute (h : stack.Displays r kind.namingProperties display)
    (hr : stack.template.resource? r.name = some r)
    (hkind : ResourceKind.ofTypeName? r.typeName = some kind) {attr : String}
    (hattr : (kind.values display stack.context).attribute? attr = none) :
    stack.EndsWith (.attributeOf r.name attr)
      (.error (.unknownAttribute r.name kind.typeName attr)) := by
  rw [endsWith_iff_gives, ResourceKind.typeName_of_ofTypeName? hkind]
  simp only [Operation.plan, attributeOf, hr]
  refine gives_map_error_iff.mpr ((h.gives_valuesOf hr hkind).bind ?_)
  rw [hattr]
  refine .fail ?_
  intro limit he
  cases he

/-! ## 3. Three spellings -/

/-- The two names in a list. -/
def attributeCall (resource attr : String) : Value :=
  .mapping [("Fn::GetAtt", .list [.string resource, .string attr])]

/-- The two names with a point between them. -/
def dottedCall (resource attr : String) : Value :=
  .mapping [("Fn::GetAtt", .string (resource ++ "." ++ attr))]

section Spellings

variable {s s' : Session} {levels : Nat}

/-- The list of the two names takes the third level... -/
theorem resolve_attributeCall (stack : Stack) (resource attr : String)
    (hs : stack.levelsLeft s = levels + 3) :
    stack.resolve (attributeCall resource attr) s =
      (stack.attributeOf resource attr).run (stack.resolveWithin (levels + 2)) s := by
  have harg : (Plan.ask (.list [.string resource, .string attr])).run
      (stack.resolveWithin (levels + 2)) s =
        (.ok (.list [.string resource, .string attr]), s) := by
    rw [Plan.run_ask]
    exact stack.resolveWithin_strings levels [resource, attr] s
  rw [resolve, hs, attributeCall, resolveWithin_succ]
  change (stack.callGetAtt (.list [.string resource, .string attr])).run
    (stack.resolveWithin (levels + 2)) s = _
  simp only [callGetAtt, Intrinsic.askStrings]
  rw [bind_assoc, Plan.run_bind_ok harg]
  rfl

/-- ...and has given it back when the attribute is looked up, as with a point. -/
theorem resolve_dottedCall (stack : Stack) {resource : String} (attr : String)
    (hresource : '.' ∉ resource.toList) (hs : stack.levelsLeft s = levels + 3) :
    stack.resolve (dottedCall resource attr) s =
      (stack.attributeOf resource attr).run (stack.resolveWithin (levels + 2)) s := by
  have hcut := Text.cutString?_append (d := ".") rfl hresource attr
  rw [resolve, hs, dottedCall, stack.resolveWithin_getAtt hcut]

/-- Whatever is asked, an attribute is a text. -/
theorem exists_string_of_run_attributeOf {resource attr : String}
    {answer : Value → Run Session Value} {v : Value}
    (h : (stack.attributeOf resource attr).run answer s = (.ok v, s')) :
    ∃ text, v = .string text := by
  unfold attributeOf at h
  cases hr : stack.template.resource? resource with
  | none =>
    rw [hr] at h
    cases h
  | some r =>
    simp only [hr] at h
    rw [Plan.run_bind] at h
    rcases hvalues : (stack.valuesOf r).run answer s with ⟨e | values, s₁⟩
    · rw [Run.bind_error hvalues] at h
      cases h
    · rw [Run.bind_ok hvalues] at h
      cases hattr : values.attribute? attr with
      | none =>
        rw [hattr] at h
        cases h
      | some text =>
        rw [hattr] at h
        cases h
        exact ⟨text, rfl⟩

/-- The placeholder gives the text that the call with a point gives, or its error. -/
theorem resolve_placeholderCall_dotted (stack : Stack) {resource attr : String}
    (hresource : '.' ∉ resource.toList)
    (hname : Placeholder.Quotable (resource ++ "." ++ attr))
    (hs : stack.levelsLeft s = levels + 3) :
    stack.resolve (placeholderCall (resource ++ "." ++ attr)) s =
      stack.resolve (dottedCall resource attr) s := by
  have hdotted : '.' ∈ (resource ++ "." ++ attr).toList := by simp [String.toList_append]
  have hcall := Placeholder.asCall_of_dotted hdotted
  rw [← dottedCall] at hcall
  rcases hrun : stack.resolve (dottedCall resource attr) s with ⟨e | v, s'⟩
  · exact stack.resolve_placeholderCall_error hname (by omega) (hcall ▸ hrun)
  · have hattribute := hrun
    rw [stack.resolve_dottedCall attr hresource hs] at hattribute
    obtain ⟨text, rfl⟩ := exists_string_of_run_attributeOf hattribute
    exact stack.resolve_placeholderCall_ok hname (by omega) (hcall ▸ hrun) rfl

end Spellings

/-- What the look-up ends with, the call with the two names resolves to. -/
theorem EndsWith.attributeCall {resource attr : String} {outcome : Except ResolutionError Answer}
    (h : stack.EndsWith (.attributeOf resource attr) outcome) :
    stack.EndsWith (.resolve (attributeCall resource attr)) outcome := by
  simp only [endsWith_iff_gives, Operation.plan, gives_map_iff] at h ⊢
  obtain ⟨outcome', hgives, rfl⟩ := h
  refine ⟨outcome', gives_ask_iff.mpr ?_, rfl⟩
  have harg : stack.Gives ∅ (.ask (.list [.string resource, .string attr]))
      (.ok (.list [.string resource, .string attr])) :=
    gives_ask_iff.mpr (gives_pair (.done _) (.done _))
  change stack.Gives ∅ (stack.callGetAtt (.list [.string resource, .string attr])) outcome'
  simp only [callGetAtt, Intrinsic.askStrings]
  rw [bind_assoc]
  exact harg.bind hgives

/-! ## 4. Exact attributes -/

/-- **Attributes are looked up exactly, and their spellings agree.**

A kind has the same attributes under every name and in every deployment.

For a declared resource of a known kind whose display name resolves, each attribute of the kind has
its value, which is a text, and any other name is an error that says so; the values are those of the
kind, and a reference stands for their reference, unless a parameter has the name.

What an attribute is looked up with, the call with the two names resolves to.  With three levels,
after any operations, the call with a point between the names ends as this one does if the resource
has no point in its name, and leaves the same session behind; and so does the placeholder, if it
can be written. -/
theorem attributes_are_exact (stack : Stack) :
    (∀ (kind : ResourceKind) (display : String) (c : Context),
      (kind.values display c).attributes.map Prod.fst = kind.attributeNames) ∧
    (∀ (r : Resource) (kind : ResourceKind) (display : String),
      stack.template.resource? r.name = some r →
      ResourceKind.ofTypeName? r.typeName = some kind →
      stack.Displays r kind.namingProperties display →
        let values := kind.values display stack.context
        stack.EndsWith (.values r.name) (.ok (.values values)) ∧
        (PseudoParameter.ofName? r.name = none → stack.template.parameter? r.name = none →
          stack.EndsWith (.reference r.name) (.ok (.value (.string values.reference)))) ∧
        ∀ attr,
          (attr ∈ kind.attributeNames → ∃ text, values.attribute? attr = some text ∧
            stack.EndsWith (.attributeOf r.name attr) (.ok (.value (.string text)))) ∧
          (attr ∉ kind.attributeNames → stack.EndsWith (.attributeOf r.name attr)
            (.error (.unknownAttribute r.name kind.typeName attr)))) ∧
    (∀ (resource attr : String) (outcome : Except ResolutionError Answer),
      stack.EndsWith (.attributeOf resource attr) outcome →
        stack.EndsWith (.resolve (attributeCall resource attr)) outcome) ∧
    (3 ≤ stack.config.maxDepth → ∀ (resource attr : String) (ops : List Operation),
      '.' ∉ resource.toList →
        let s := stack.after ops .start
        stack.operate (.resolve (dottedCall resource attr)) s =
          stack.operate (.resolve (attributeCall resource attr)) s ∧
        (Placeholder.Quotable (resource ++ "." ++ attr) →
          stack.operate (.resolve (placeholderCall (resource ++ "." ++ attr))) s =
            stack.operate (.resolve (attributeCall resource attr)) s)) := by
  refine ⟨ResourceKind.keys_values, ?_, fun _ _ _ h => h.attributeCall, ?_⟩
  · intro r kind display hr hkind hdisplay values
    refine ⟨hdisplay.endsWith_values hr hkind, hdisplay.endsWith_reference hr hkind, ?_⟩
    intro attr
    constructor
    · intro hattr
      cases htext : values.attribute? attr with
      | none => exact absurd hattr (ResourceKind.attribute?_eq_none_iff.mp htext)
      | some text => exact ⟨text, rfl, hdisplay.endsWith_attributeOf hr hkind htext⟩
    · intro hattr
      have hnone : values.attribute? attr = none :=
        ResourceKind.attribute?_eq_none_iff.mpr hattr
      exact hdisplay.endsWith_unknownAttribute hr hkind hnone
  · intro hlimit resource attr ops hresource s
    obtain ⟨levels, hlevels⟩ := Nat.exists_eq_add_of_le' hlimit
    have hs : stack.levelsLeft s = levels + 3 := by
      rw [stack.levelsLeft_after, hlevels]
    have hlist := stack.resolve_attributeCall resource attr hs
    have hdotted := stack.resolve_dottedCall attr hresource hs
    rw [← hlist] at hdotted
    refine ⟨by rw [operate_resolve, operate_resolve, hdotted], ?_⟩
    intro hname
    have hplaceholder := stack.resolve_placeholderCall_dotted hresource hname hs
    rw [operate_resolve, operate_resolve, hplaceholder, hdotted]

/-- A topic that is named after the stack, so that a parameter of the deployment is in its
attributes.  It has a name, it has no other attribute, and an attribute with a point in it is looked
up as it is. -/
theorem topic_named_after_stack_has_exact_attributes :
    let topic : Resource := ⟨"T", .mapping [("Type", .string "AWS::SNS::Topic"),
      ("Properties", .mapping [("TopicName", .mapping [("Ref", .string "AWS::StackName")])])]⟩
    let stack := ofDocument (.mapping [("Resources", .mapping [("T", topic.definition)])])
    stack.template.resource? topic.name = some topic ∧
      ResourceKind.ofTypeName? topic.typeName = some .snsTopic ∧
      stack.Displays topic ResourceKind.snsTopic.namingProperties "sample" ∧
      3 ≤ stack.config.maxDepth ∧ '.' ∉ topic.name.toList ∧
      stack.EndsWith (.attributeOf "T" "TopicName") (.ok (.value (.string "sample"))) ∧
      stack.EndsWith (.attributeOf "T" "Policy.Version")
        (.error (.unknownAttribute "T" "AWS::SNS::Topic" "Policy.Version")) ∧
      stack.operate (.resolve (dottedCall "T" "Policy.Version")) .start =
        stack.operate (.resolve (attributeCall "T" "Policy.Version")) .start ∧
      stack.operate (.resolve (placeholderCall "T.TopicName")) .start =
        stack.operate (.resolve (attributeCall "T" "TopicName")) .start := by
  intro topic stack
  have hr : stack.template.resource? topic.name = some topic := by rfl
  have hkind : ResourceKind.ofTypeName? topic.typeName = some .snsTopic := by decide
  have hdisplay : stack.Displays topic ResourceKind.snsTopic.namingProperties "sample" :=
    ⟨2, [], by rfl⟩
  have hlimit : 3 ≤ stack.config.maxDepth := by decide
  have hpoint : '.' ∉ topic.name.toList := by decide
  have hquotable : Placeholder.Quotable "T.TopicName" := ⟨by decide, by decide, by decide⟩
  obtain ⟨-, hexact, -, hspellings⟩ := stack.attributes_are_exact
  obtain ⟨-, -, hattributes⟩ := hexact topic .snsTopic "sample" hr hkind hdisplay
  obtain ⟨hknown, -⟩ := hattributes "TopicName"
  obtain ⟨-, hunknown⟩ := hattributes "Policy.Version"
  obtain ⟨text, htext, hends⟩ := hknown (by decide)
  cases htext
  obtain ⟨hdotted, -⟩ := hspellings hlimit "T" "Policy.Version" [] hpoint
  obtain ⟨-, hplaceholder⟩ := hspellings hlimit "T" "TopicName" [] hpoint
  exact ⟨hr, hkind, hdisplay, hlimit, hpoint, hends, hunknown (by decide), hdotted,
    hplaceholder hquotable⟩

end Stack
end StackTemplate
