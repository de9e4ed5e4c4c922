import Mathlib.Data.List.Infix
import StackTemplate.Proofs.Repetition

/-!
# Output that can be reproduced

A deployment has a token and a time of its own, and whatever is made up from them differs from one
deployment to the next.  They show in the identifier of the stack and in the values of six kinds
of resource, and nowhere else.  So a document that asks for none of these resolves to the same
in every deployment with the same facts.

To see from the document that the identifier is not asked for, the names in it have to be
readable: a name that is put together by a call could be any.  A name that a placeholder looks up
is a part of the text it stands in.

The two stacks are in parallel along the diagonal of the values that stand in the document, and
nothing is an excuse.
-/

namespace StackTemplate

/-! ## 1. What stands in a value -/

namespace Value

variable {v u w : Value}

theorem Contains.trans (h : v.Contains u) (h' : u.Contains w) : v.Contains w := by
  induction h with
  | self v => exact h'
  | item hv _ ih => exact .item hv (ih h')
  | entry he _ ih => exact .entry he (ih h')

theorem closedUnderParts_contains (v : Value) : ClosedUnderParts v.Contains where
  item _ hitems u hu := hitems.trans (.item hu (.self u))
  entry _ hentries e he := hentries.trans (.entry he (.self e.2))

theorem contains_of_get? {key : String} (h : v.get? key = some u) : v.Contains u := by
  cases v with
  | mapping entries => exact .entry (mem_of_lookup h) (.self u)
  | null | boolean | number | string | list => cases h

theorem contains_mapping_iff {entries : Entries} :
    (Value.mapping entries).Contains u ↔ u = .mapping entries ∨ ∃ e ∈ entries, e.2.Contains u := by
  constructor
  · intro h
    cases h with
    | self => exact Or.inl rfl
    | entry he hu => exact Or.inr ⟨_, he, hu⟩
  · rintro (rfl | ⟨e, he, hu⟩)
    · exact .self _
    · exact .entry he hu

theorem contains_string_iff {s : String} : (Value.string s).Contains u ↔ u = .string s := by
  constructor
  · intro h
    cases h
    rfl
  · rintro rfl
    exact .self _

end Value

namespace Template

theorem contains_of_declared {t : Template} {name key : String} {v : Value}
    (h : (t.declarations name).lookup key = some v) : t.document.Contains v := by
  rw [lookup_declarations] at h
  obtain ⟨u, hu, hv⟩ := Option.bind_eq_some_iff.mp h
  exact (Value.contains_of_get? hu).trans (Value.contains_of_get? hv)

/-- A property that names a declared resource stands in the document. -/
theorem contains_of_firstProperty? {t : Template} {name : String} {r : Resource}
    (hr : t.resource? name = some r) {keys : List String} {v : Value}
    (hv : r.firstProperty? keys = some v) : t.document.Contains v := by
  obtain ⟨definition, hd, rfl⟩ := Option.map_eq_some_iff.mp hr
  obtain ⟨key, -, hkey⟩ := List.exists_of_findSome?_eq_some hv
  obtain ⟨properties, hp, hv⟩ := Option.bind_eq_some_iff.mp hkey
  exact (contains_of_declared hd).trans
    ((Value.contains_of_get? hp).trans (Value.contains_of_get? hv))

end Template

/-! ## 2. The names in a text -/

/-- A name that a text looks up is a part of it. -/
theorem Placeholder.infix_of_mem_lookups {name text : String} (h : name ∈ lookups text) :
    name.toList <:+: text.toList := by
  obtain ⟨piece, hpiece, hname⟩ := List.mem_filterMap.mp h
  have hsource : piece.source <:+: text.toList := by
    have hall := List.infix_of_mem_flatten (List.mem_map_of_mem (f := Piece.source) hpiece)
    rwa [← List.flatMap_def, pieces, Piece.source_scan] at hall
  cases piece with
  | literal _ => cases hname
  | placeholder body =>
    have hbody : body <:+: Piece.source (.placeholder body) :=
      ⟨Piece.opening, Piece.closing, rfl⟩
    rw [Piece.name?] at hname
    split at hname
    · cases hname
    · cases hname
      rw [Piece.nameOf, String.toList_ofList]
      exact (Text.trim_isInfix body).trans (hbody.trans hsource)

/-! ## 3. What depends on the deployment -/

namespace ResourceKind

/-- The kinds whose values are made up from the token or the time of a deployment. -/
def volatile : List ResourceKind :=
  [.sqsQueuePolicy, .snsSubscription, .iamRole, .dynamoDbTable, .securityGroup, .restApi]

/-- The values of all other kinds depend on the facts alone. -/
theorem values_eq_of_not_volatile {kind : ResourceKind} (h : kind ∉ volatile) (name : String)
    (facts : Facts) (token token' : Uuid) (now now' : Instant) :
    kind.values name ⟨facts, token, now⟩ = kind.values name ⟨facts, token', now'⟩ := by
  cases kind with
  | sqsQueuePolicy | snsSubscription | iamRole | dynamoDbTable | securityGroup | restApi =>
    simp [volatile] at h
  | sqsQueue | snsTopic | s3Bucket | lambdaFunction | iamManagedPolicy | kinesisStream | logGroup
  | eventsRule | stateMachine => rfl

end ResourceKind

/-- The identifier of the stack is the one built-in name that depends on more than the facts. -/
theorem PseudoParameter.pseudoValue_eq {p : PseudoParameter} (h : p.name ≠ "AWS::StackId")
    (facts : Facts) (token token' : Uuid) (now now' : Instant) :
    Context.pseudoValue ⟨facts, token, now⟩ p = Context.pseudoValue ⟨facts, token', now'⟩ p := by
  cases p with
  | stackId => exact absurd rfl h
  | accountId | region | stackName | notificationArns | noValue | partition | urlSuffix => rfl

/-- **The template asks for nothing that is made up.**  Every `Ref` names something else than the
identifier of the stack, in so many words; every template of a `Fn::Sub` is a text in which the
identifier does not occur; and no resource is of a kind whose values are made up. -/
structure Template.Steady (t : Template) : Prop where
  ref : ∀ arg, t.document.Contains (.mapping [("Ref", arg)]) →
    ∃ name, arg = .string name ∧ name ≠ "AWS::StackId"
  sub : ∀ arg template, t.document.Contains (.mapping [("Fn::Sub", arg)]) →
    Intrinsic.subTemplate? arg = some template →
    ∃ text, template = .string text ∧ ¬ "AWS::StackId".toList <:+: text.toList
  resource : ∀ name r kind, t.resource? name = some r →
    ResourceKind.ofTypeName? r.typeName = some kind → kind ∉ ResourceKind.volatile

namespace Stack

/-- A stack with a steady template corresponds to itself in a deployment with the same facts. -/
theorem corresponds_of_steady {t : Template} (h : t.Steady) (facts : Facts)
    (supplied : List (String × String)) (config : Config) (token token' : Uuid)
    (now now' : Instant) :
    (Stack.mk t ⟨facts, token, now⟩ supplied config).Corresponds
      (.diagonal t.document.Contains (· ≠ "AWS::StackId") False)
      (Stack.mk t ⟨facts, token', now'⟩ supplied config) where
  lawful := Correspondence.lawful_of_onDiagonal t.document.closedUnderParts_contains
  config := rfl
  pseudo _ hp := PseudoParameter.pseudoValue_eq hp facts token token' now now'
  parameter _ := Or.inr (rel_self fun _ _ => Plan.parallel_ofExcept fun _ _ => rfl)
  resource name := Or.inr (rel_self fun r hr =>
    ⟨rfl, rfl, fun _ _ => ⟨rfl, fun _ hv => Template.contains_of_firstProperty? hr hv⟩,
      fun kind _ hk => ResourceKind.values_eq_of_not_volatile (h.resource name r kind hr hk) ..⟩)
  condition _ := Or.inr (rel_self fun _ hc => ⟨rfl, Template.contains_of_declared hc⟩)
  entry _ _ _ := Or.inr (rel_self fun _ _ => rfl)
  shown_ref arg _ name hcall hliteral := by
    obtain ⟨name', rfl, hname⟩ := h.ref arg hcall.2
    cases hliteral _ rfl
    exact hname
  shown_sub arg _ template text name hcall hsub hliteral hmem := by
    obtain ⟨text', rfl, htext⟩ := h.sub arg template hcall.2 hsub
    cases hliteral _ rfl
    rintro rfl
    exact htext (Placeholder.infix_of_mem_lookups hmem)

/-- **The output can be reproduced**: a document that asks for nothing that is made up resolves to
the same value or to the same error in two deployments with the same facts, whatever their tokens
and times are, in a session or in one step. -/
theorem steady_document_is_reproducible (document : Value)
    (h : (Template.mk document).Steady) (facts : Facts) (supplied : List (String × String))
    (config : Config) (token token' : Uuid) (now now' : Instant) :
    (∀ s, (Stack.mk ⟨document⟩ ⟨facts, token, now⟩ supplied config).operate .document s =
      (Stack.mk ⟨document⟩ ⟨facts, token', now'⟩ supplied config).operate .document s) ∧
    evaluateDocument document facts supplied config token now =
      evaluateDocument document facts supplied config token' now' := by
  have hcorresponds := corresponds_of_steady h facts supplied config token token' now now'
  have hpart := document.closedUnderParts_contains
  constructor
  · intro s
    have hrepeated := hcorresponds.operate_repeatedBy hpart .document
      (Corresponds.parallel_answer (.self document))
    exact (hrepeated s fun _ _ h => h).symm
  · simp only [evaluateDocument, Context.make]
    cases facts.firstBlank? with
    | some fact => rfl
    | none =>
      have hrun := hcorresponds.resolveWithin_repeatedBy hpart config.maxDepth (.self document)
        Session.start fun _ _ h => h
      exact (congrArg Prod.fst hrun).symm

/-- A document with a queue, a reference to it, and a text with the region. -/
theorem queue_reference_is_reproducible :
    let document := Value.mapping [
      ("Resources", .mapping [("Jobs", .mapping [("Type", .string "AWS::SQS::Queue")])]),
      ("Queue", .mapping [("Ref", .string "Jobs")]),
      ("Region", .mapping [("Fn::Sub", .string "in $\x7bAWS::Region\x7d")])]
    let facts : Facts := ⟨"123456789012", "eu-west-1", "sample", []⟩
    (Template.mk document).Steady ∧
      evaluateDocument document facts [] ⟨.passthrough, 10⟩ .nil ⟨0, 0⟩ =
        evaluateDocument document facts [] ⟨.passthrough, 10⟩ (Uuid.nil.named "again") ⟨1, 0⟩ := by
  intro document facts
  have hsteady : (Template.mk document).Steady := by
    constructor
    · intro arg harg
      obtain rfl : arg = .string "Jobs" := by
        simpa [document, Value.contains_mapping_iff, Value.contains_string_iff] using harg
      exact ⟨_, rfl, by decide⟩
    · intro arg template harg hsub
      obtain rfl : arg = .string "in $\x7bAWS::Region\x7d" := by
        simpa [document, Value.contains_mapping_iff, Value.contains_string_iff] using harg
      cases hsub
      exact ⟨_, rfl, by decide⟩
    · intro name r kind hr hk
      obtain ⟨definition, hd, rfl⟩ := Option.map_eq_some_iff.mp hr
      obtain ⟨rfl, rfl⟩ := Prod.mk.inj (List.mem_singleton.mp (mem_of_lookup hd))
      obtain rfl : ResourceKind.sqsQueue = kind := Option.some.inj hk
      decide
  exact ⟨hsteady, (steady_document_is_reproducible document hsteady facts [] ⟨.passthrough, 10⟩
    .nil (Uuid.nil.named "again") ⟨0, 0⟩ ⟨1, 0⟩).2⟩

end Stack
end StackTemplate
