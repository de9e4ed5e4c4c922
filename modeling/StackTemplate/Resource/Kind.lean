/-!
# Resource kinds

The kinds of resource whose values can be made up, their type names, and the properties that
carry an explicit name (section 14 of the specification).  The set is closed: a type name
outside it is the only way to a resource without values.
-/

namespace StackTemplate

/-- A kind of resource. -/
inductive ResourceKind where
  | sqsQueue
  | sqsQueuePolicy
  | snsTopic
  | snsSubscription
  | s3Bucket
  | lambdaFunction
  | iamRole
  | iamManagedPolicy
  | dynamoDbTable
  | kinesisStream
  | logGroup
  | eventsRule
  | stateMachine
  | securityGroup
  | restApi
deriving DecidableEq

namespace ResourceKind

def all : List ResourceKind :=
  [.sqsQueue, .sqsQueuePolicy, .snsTopic, .snsSubscription, .s3Bucket, .lambdaFunction,
    .iamRole, .iamManagedPolicy, .dynamoDbTable, .kinesisStream, .logGroup, .eventsRule,
    .stateMachine, .securityGroup, .restApi]

def typeName : ResourceKind → String
  | .sqsQueue => "AWS::SQS::Queue"
  | .sqsQueuePolicy => "AWS::SQS::QueuePolicy"
  | .snsTopic => "AWS::SNS::Topic"
  | .snsSubscription => "AWS::SNS::Subscription"
  | .s3Bucket => "AWS::S3::Bucket"
  | .lambdaFunction => "AWS::Lambda::Function"
  | .iamRole => "AWS::IAM::Role"
  | .iamManagedPolicy => "AWS::IAM::ManagedPolicy"
  | .dynamoDbTable => "AWS::DynamoDB::Table"
  | .kinesisStream => "AWS::Kinesis::Stream"
  | .logGroup => "AWS::Logs::LogGroup"
  | .eventsRule => "AWS::Events::Rule"
  | .stateMachine => "AWS::StepFunctions::StateMachine"
  | .securityGroup => "AWS::EC2::SecurityGroup"
  | .restApi => "AWS::ApiGateway::RestApi"

/-- The kind with this type name (`from_type_name`). -/
def ofTypeName? (typeName : String) : Option ResourceKind :=
  all.find? (·.typeName == typeName)

/-- The property of this kind alone that names a resource, if the kind has one. -/
def ownNamingProperty? : ResourceKind → Option String
  | .sqsQueue => some "QueueName"
  | .snsTopic => some "TopicName"
  | .s3Bucket => some "BucketName"
  | .lambdaFunction => some "FunctionName"
  | .iamRole => some "RoleName"
  | .iamManagedPolicy => some "ManagedPolicyName"
  | .dynamoDbTable => some "TableName"
  | .logGroup => some "LogGroupName"
  | .stateMachine => some "StateMachineName"
  | .securityGroup => some "GroupName"
  | .sqsQueuePolicy | .snsSubscription | .kinesisStream | .eventsRule | .restApi => none

/-- The properties that name a resource, in the order in which they are looked up
(`name_properties`). -/
def namingProperties (kind : ResourceKind) : List String :=
  kind.ownNamingProperty?.toList ++ ["Name"]

theorem mem_all (kind : ResourceKind) : kind ∈ all := by cases kind <;> decide

theorem ofTypeName?_typeName (kind : ResourceKind) : ofTypeName? kind.typeName = some kind := by
  cases kind <;> decide

theorem typeName_of_ofTypeName? {name : String} {kind : ResourceKind}
    (h : ofTypeName? name = some kind) : kind.typeName = name := by
  have := List.find?_some h
  simpa using this

end ResourceKind
end StackTemplate
