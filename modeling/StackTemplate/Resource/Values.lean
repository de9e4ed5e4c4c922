import StackTemplate.Deployment.Context
import StackTemplate.Resource.Kind

/-!
# Return values of resources

What a deployment would hand back for a created resource: the text a reference to it stands
for, and its attributes (sections 4.4 and 14 of the specification).  Both depend on the kind,
the display name and the context alone.

Resource names (ARNs) have three forms: most services write partition, service, region and
account; global services leave the region out; buckets leave out region and account.  Made-up
identifiers are cut from the context's identifier of the display name.
-/

namespace StackTemplate

/-- What a resource exposes: the text of a reference and the attributes in order. -/
structure ResourceValues where
  reference : String
  attributes : List (String × String)
deriving DecidableEq

namespace Context

/-- The resource name in a regional service (`arn`). -/
def regionalArn (c : Context) (service resource : String) : String :=
  String.join ["arn:", c.partition, ":", service, ":", c.facts.region, ":", c.facts.accountId,
    ":", resource]

/-- The resource name in a global service (`global_arn`). -/
def regionlessArn (c : Context) (service resource : String) : String :=
  String.join ["arn:", c.partition, ":", service, "::", c.facts.accountId, ":", resource]

/-- The resource name of a bucket. -/
def bucketArn (c : Context) (name : String) : String :=
  String.join ["arn:", c.partition, ":s3:::", name]

/-- The address of a queue. -/
def queueUrl (c : Context) (name : String) : String :=
  String.join ["https://sqs.", c.facts.region, ".", c.urlSuffix, "/", c.facts.accountId, "/",
    name]

/-- The first `length` digits of the identifier made up for `seed` (`generated_id`). -/
def shortId (c : Context) (seed : String) (length : Nat) : String :=
  String.ofList ((c.identifierFor seed).digits.take length)

end Context

namespace ResourceValues

/-- The value of an attribute. -/
def attribute? (values : ResourceValues) (name : String) : Option String :=
  values.attributes.lookup name

end ResourceValues

namespace ResourceKind

/-- The values of a resource with the given display name (`return_values`). -/
def values (kind : ResourceKind) (name : String) (c : Context) : ResourceValues :=
  match kind with
  | .sqsQueue =>
    ⟨c.queueUrl name, [
      ("Arn", c.regionalArn "sqs" name),
      ("QueueName", name),
      ("QueueUrl", c.queueUrl name)]⟩
  | .sqsQueuePolicy => ⟨(c.identifierFor name).text, []⟩
  | .snsTopic =>
    ⟨c.regionalArn "sns" name, [
      ("TopicArn", c.regionalArn "sns" name),
      ("TopicName", name)]⟩
  | .snsSubscription =>
    ⟨String.join [c.regionalArn "sns" name, ":", (c.identifierFor name).text], []⟩
  | .s3Bucket =>
    ⟨name, [
      ("Arn", c.bucketArn name),
      ("DomainName", String.join [name, ".s3.", c.urlSuffix]),
      ("DualStackDomainName",
        String.join [name, ".s3.dualstack.", c.facts.region, ".", c.urlSuffix]),
      ("RegionalDomainName", String.join [name, ".s3.", c.facts.region, ".", c.urlSuffix]),
      ("WebsiteURL",
        String.join ["http://", name, ".s3-website-", c.facts.region, ".", c.urlSuffix])]⟩
  | .lambdaFunction => ⟨name, [("Arn", c.regionalArn "lambda" ("function:" ++ name))]⟩
  | .iamRole =>
    ⟨name, [
      ("Arn", c.regionlessArn "iam" ("role/" ++ name)),
      ("RoleId", "AROA" ++ (c.shortId name 17).toUpper)]⟩
  | .iamManagedPolicy =>
    ⟨c.regionlessArn "iam" ("policy/" ++ name), [
      ("PolicyArn", c.regionlessArn "iam" ("policy/" ++ name))]⟩
  | .dynamoDbTable =>
    ⟨name, [
      ("Arn", c.regionalArn "dynamodb" ("table/" ++ name)),
      ("StreamArn",
        String.join [c.regionalArn "dynamodb" ("table/" ++ name), "/stream/", c.createdAt.label])]⟩
  | .kinesisStream => ⟨name, [("Arn", c.regionalArn "kinesis" ("stream/" ++ name))]⟩
  | .logGroup =>
    ⟨name, [("Arn", c.regionalArn "logs" (String.join ["log-group:", name, ":*"]))]⟩
  | .eventsRule => ⟨name, [("Arn", c.regionalArn "events" ("rule/" ++ name))]⟩
  | .stateMachine =>
    ⟨c.regionalArn "states" ("stateMachine:" ++ name), [
      ("Arn", c.regionalArn "states" ("stateMachine:" ++ name)),
      ("Name", name)]⟩
  | .securityGroup =>
    ⟨"sg-" ++ c.shortId name 17, [("GroupId", "sg-" ++ c.shortId name 17)]⟩
  | .restApi => ⟨c.shortId name 10, [("RootResourceId", c.shortId (name ++ "/") 10)]⟩

end ResourceKind
end StackTemplate
