import StackTemplate.Proofs.Attribute

/-!
# ARNs of resources

Most kinds of resource expose the ARN of the resource itself.  There are three forms: in most
services the region and the account stand before the resource, in global services only the account,
and a bucket has neither.  Accounts, regions and names are any texts, with colons and slashes in
them, so an ARN cannot be taken apart at its colons.

It identifies the resource all the same.  In one deployment two ARNs have the same beginning, up to
the service.  The services of two kinds differ at a place that both have, before the first text that
is not fixed; or, in the one service with two kinds, what is written before the name does.  The name
is then what is between two fixed texts.

* `Text.Diverge`: neither of two texts is a beginning of the other.
* `ArnFormat`: how a kind writes its ARNs, and `exists_arnFormat`: they are written so.
* `arnFormat?_apart`: the formats of two kinds diverge.
* `arn_eq_iff`: so an ARN determines the kind and the name.
-/

namespace StackTemplate

/-! ## 1. Texts that diverge -/

namespace Text

/-- **The texts diverge**: neither is a beginning of the other. -/
def Diverge (a b : String) : Prop := ¬ a.toList <+: b.toList ∧ ¬ b.toList <+: a.toList

instance (a b : String) : Decidable (Diverge a b) := inferInstanceAs (Decidable (_ ∧ _))

/-- Whatever comes after, the texts stay different. -/
theorem Diverge.append_ne {a b : String} (h : Diverge a b) (x y : String) : a ++ x ≠ b ++ y := by
  intro heq
  have hlists : a.toList ++ x.toList = b.toList ++ y.toList := by
    rw [← String.toList_append, heq, String.toList_append]
  have ha : a.toList <+: a.toList ++ x.toList := List.prefix_append _ _
  have hb : b.toList <+: a.toList ++ x.toList := hlists ▸ List.prefix_append _ _
  rcases List.prefix_or_prefix_of_prefix ha hb with hab | hba
  · exact h.1 hab
  · exact h.2 hba

end Text

/-! ## 2. Formats -/

/-- What of the deployment is in an ARN, after the service. -/
inductive ArnScope where
  /-- The region and the account. -/
  | regional
  /-- The account; the place of the region is empty. -/
  | global
  /-- Neither; both places are empty. -/
  | universal
deriving DecidableEq

namespace ArnScope

/-- What stands between the service and the resource, with the colons that end it. -/
def text (c : Context) : ArnScope → String
  | .regional => String.join [c.facts.region, ":", c.facts.accountId, ":"]
  | .global => String.join [":", c.facts.accountId, ":"]
  | .universal => "::"

end ArnScope

/-- **How a kind writes its ARNs**: the service, what of the deployment is in them, and the texts
before and after the display name. -/
structure ArnFormat where
  service : String
  scope : ArnScope
  before : String
  after : String

namespace ArnFormat

/-- The ARN of the resource with this display name. -/
def arn (f : ArnFormat) (c : Context) (display : String) : String :=
  String.join ["arn:", c.partition, ":", f.service, ":", f.scope.text c, f.before, display, f.after]

/-- The name is between two texts that do not depend on it. -/
theorem arn_injective (f : ArnFormat) (c : Context) : Function.Injective (f.arn c) := by
  intro display display' h
  simpa [arn] using h

/-- **The formats diverge** before the name begins: in the service, or else in what is written
before the name. -/
def Apart (f g : ArnFormat) : Prop :=
  Text.Diverge (f.service ++ ":") (g.service ++ ":") ∨
    f.service = g.service ∧ f.scope = g.scope ∧ Text.Diverge f.before g.before

instance (f g : ArnFormat) : Decidable (f.Apart g) := inferInstanceAs (Decidable (_ ∨ _))

/-- In one deployment, they have no ARN in common. -/
theorem Apart.arn_ne {f g : ArnFormat} (h : f.Apart g) (c : Context) (display display' : String) :
    f.arn c display ≠ g.arn c display' := by
  intro heq
  rcases h with hservice | ⟨hservice, hscope, hbefore⟩
  · -- the colon belongs to the service, and all that is not fixed comes after it
    refine hservice.append_ne
      (String.join [f.scope.text c, f.before, display, f.after])
      (String.join [g.scope.text c, g.before, display', g.after]) ?_
    simpa [arn, String.append_assoc] using heq
  · -- one service: the region and the account are the same text in both
    refine hbefore.append_ne (display ++ f.after) (display' ++ g.after) ?_
    simpa [arn, hservice, hscope] using heq

end ArnFormat

namespace ResourceKind

/-- The attribute that is the ARN of the resource itself, for the kinds that expose it. -/
def arnAttribute? : ResourceKind → Option String
  | .sqsQueue | .s3Bucket | .lambdaFunction | .iamRole | .dynamoDbTable | .kinesisStream
  | .logGroup | .eventsRule | .stateMachine => some "Arn"
  | .snsTopic => some "TopicArn"
  | .iamManagedPolicy => some "PolicyArn"
  | .sqsQueuePolicy | .snsSubscription | .securityGroup | .restApi => none

/-- The format of that ARN. -/
def arnFormat? : ResourceKind → Option ArnFormat
  | .sqsQueue => some ⟨"sqs", .regional, "", ""⟩
  | .snsTopic => some ⟨"sns", .regional, "", ""⟩
  | .s3Bucket => some ⟨"s3", .universal, "", ""⟩
  | .lambdaFunction => some ⟨"lambda", .regional, "function:", ""⟩
  | .iamRole => some ⟨"iam", .global, "role/", ""⟩
  | .iamManagedPolicy => some ⟨"iam", .global, "policy/", ""⟩
  | .dynamoDbTable => some ⟨"dynamodb", .regional, "table/", ""⟩
  | .kinesisStream => some ⟨"kinesis", .regional, "stream/", ""⟩
  | .logGroup => some ⟨"logs", .regional, "log-group:", ":*"⟩
  | .eventsRule => some ⟨"events", .regional, "rule/", ""⟩
  | .stateMachine => some ⟨"states", .regional, "stateMachine:", ""⟩
  | .sqsQueuePolicy | .snsSubscription | .securityGroup | .restApi => none

/-- **ARNs are written in the format of the kind**, in every deployment. -/
theorem exists_arnFormat {kind : ResourceKind} {attr : String}
    (h : kind.arnAttribute? = some attr) :
    ∃ f, kind.arnFormat? = some f ∧ ∀ (display : String) (c : Context),
      (kind.values display c).attribute? attr = some (f.arn c display) := by
  cases kind <;> cases h <;> refine ⟨_, rfl, fun display c => congrArg some ?_⟩ <;>
    rw [← String.toList_inj] <;>
    simp [Context.regionalArn, Context.regionlessArn, Context.bucketArn, ArnFormat.arn,
      ArnScope.text]

/-- **The formats of two kinds diverge.** -/
theorem arnFormat?_apart {kind kind' : ResourceKind} {f g : ArnFormat} (hne : kind ≠ kind')
    (hf : kind.arnFormat? = some f) (hg : kind'.arnFormat? = some g) : f.Apart g := by
  -- each pair of kinds that have a format
  cases kind <;> cases hf <;> cases kind' <;> cases hg <;> revert hne <;> decide

/-- **An ARN determines the kind and the name.** -/
theorem arn_eq_iff {kind kind' : ResourceKind} {f g : ArnFormat}
    (hf : kind.arnFormat? = some f) (hg : kind'.arnFormat? = some g) (c : Context)
    (display display' : String) :
    f.arn c display = g.arn c display' ↔ kind = kind' ∧ display = display' := by
  constructor
  · intro harn
    by_cases hkind : kind = kind'
    · subst hkind
      obtain rfl : f = g := Option.some.inj (hf.symm.trans hg)
      exact ⟨rfl, f.arn_injective c harn⟩
    · exact absurd harn ((arnFormat?_apart hkind hf hg).arn_ne c display display')
  · rintro ⟨rfl, rfl⟩
    obtain rfl : f = g := Option.some.inj (hf.symm.trans hg)
    rfl

end ResourceKind

/-! ## 3. Resources of a stack -/

namespace Stack

/-- **The stack has a resource of the kind**, and its display name resolves to `display`. -/
structure HasResource (stack : Stack) (r : Resource) (kind : ResourceKind) (display : String) :
    Prop where
  declared : stack.template.resource? r.name = some r
  ofKind : ResourceKind.ofTypeName? r.typeName = some kind
  displays : stack.Displays r kind.namingProperties display

theorem HasResource.endsWith_arn {stack : Stack} {r : Resource} {kind : ResourceKind}
    {display arn attr : String} (h : stack.HasResource r kind display)
    (harn : (kind.values display stack.context).attribute? attr = some arn) :
    stack.EndsWith (.attributeOf r.name attr) (.ok (.value (.string arn))) :=
  h.displays.endsWith_attributeOf h.declared h.ofKind harn

/-- **ARNs identify resources.**  Take two kinds that expose an ARN, be they the same or not.  In
any deployment, and under any two display names, both resources have their ARNs, and the ARNs are
equal only if the kinds and the names are.

So in a stack the ARNs of two resources can be looked up as soon as their display names resolve, and
two resources with one ARN have one kind and one name. -/
theorem arns_identify_resources {kind kind' : ResourceKind} {attr attr' : String}
    (hattr : kind.arnAttribute? = some attr) (hattr' : kind'.arnAttribute? = some attr') :
    (∀ (c : Context) (display display' : String), ∃ arn arn',
      (kind.values display c).attribute? attr = some arn ∧
      (kind'.values display' c).attribute? attr' = some arn' ∧
      (arn = arn' ↔ kind = kind' ∧ display = display')) ∧
    ∀ (stack : Stack) (r r' : Resource) (display display' : String),
      stack.HasResource r kind display → stack.HasResource r' kind' display' → ∃ arn arn',
        stack.EndsWith (.attributeOf r.name attr) (.ok (.value (.string arn))) ∧
        stack.EndsWith (.attributeOf r'.name attr') (.ok (.value (.string arn'))) ∧
        (arn = arn' ↔ kind = kind' ∧ display = display') := by
  obtain ⟨f, hf, harn⟩ := ResourceKind.exists_arnFormat hattr
  obtain ⟨g, hg, harn'⟩ := ResourceKind.exists_arnFormat hattr'
  constructor
  · intro c display display'
    exact ⟨f.arn c display, g.arn c display', harn display c, harn' display' c,
      ResourceKind.arn_eq_iff hf hg c display display'⟩
  · intro stack r r' display display' h h'
    exact ⟨f.arn stack.context display, g.arn stack.context display', h.endsWith_arn (harn _ _),
      h'.endsWith_arn (harn' _ _), ResourceKind.arn_eq_iff hf hg stack.context display display'⟩

/-- A role and a policy of one name, in an account that has the text of a role in it.  Both have an
ARN, and these are different. -/
theorem role_and_policy_of_one_name_differ :
    let named := fun (type property : String) => Value.mapping [("Type", .string type),
      ("Properties", .mapping [(property, .string "a:b/c")])]
    let role : Resource := ⟨"R", named "AWS::IAM::Role" "RoleName"⟩
    let policy : Resource := ⟨"P", named "AWS::IAM::ManagedPolicy" "ManagedPolicyName"⟩
    let stack := { ofDocument (.mapping [("Resources", .mapping
      [("R", role.definition), ("P", policy.definition)])]) with
      context := ⟨⟨"1:role/a", "cn-x:y", "sample", []⟩, .nil, ⟨0, 0⟩⟩ }
    ResourceKind.iamRole.arnAttribute? = some "Arn" ∧
      ResourceKind.iamManagedPolicy.arnAttribute? = some "PolicyArn" ∧
      stack.HasResource role .iamRole "a:b/c" ∧
      stack.HasResource policy .iamManagedPolicy "a:b/c" ∧
      ∃ arn arn', stack.EndsWith (.attributeOf "R" "Arn") (.ok (.value (.string arn))) ∧
        stack.EndsWith (.attributeOf "P" "PolicyArn") (.ok (.value (.string arn'))) ∧
        arn ≠ arn' := by
  intro named role policy stack
  have hrole : stack.HasResource role .iamRole "a:b/c" :=
    ⟨rfl, by decide, 2, [], by rfl⟩
  have hpolicy : stack.HasResource policy .iamManagedPolicy "a:b/c" :=
    ⟨rfl, by decide, 2, [], by rfl⟩
  obtain ⟨-, hstack⟩ :=
    @arns_identify_resources .iamRole .iamManagedPolicy "Arn" "PolicyArn" rfl rfl
  obtain ⟨arn, arn', harn, harn', hiff⟩ := hstack stack role policy _ _ hrole hpolicy
  refine ⟨rfl, rfl, hrole, hpolicy, arn, arn', harn, harn', ?_⟩
  intro heq
  exact absurd (hiff.mp heq).1 (by decide)

end Stack
end StackTemplate
