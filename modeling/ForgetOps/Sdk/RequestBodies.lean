import ForgetOps.Sdk.Contracts

/-
  The request bodies of `AdapterHttpConnector` (`agent/crates/adapter-http/src/lib.rs`), as its
  derived serializers write them: the fields in order, under their names in camel case, and an
  identifier of the subject only where there is one.
-/

namespace ForgetOps.AdapterHttp

open Connector AdapterSdk

/-- A request, before it is a body. -/
inductive AdapterMessage where
  | health
  | discover (subject : Connector.SubjectIdentity) (request : DiscoveryRequest)
  | export (subject : Connector.SubjectIdentity) (selection : ExportSelection)
  | erase (subject : Connector.SubjectIdentity) (plan : ErasePlan) (context : ExecutionContext)
  | verify (subject : Connector.SubjectIdentity) (expectation : VerificationExpectation)
  deriving DecidableEq, Repr

def adapterSubject (subject : Connector.SubjectIdentity) : Json String :=
  .object (Json.memberIf "userId" .string subject.applicationUserId ++
    Json.memberIf "email" .string subject.email)

def discoveryRequest (request : DiscoveryRequest) : Json String :=
  .object [("requestId", .string request.requestId), ("requestType", .string request.requestType)]

def exportSelection (selection : ExportSelection) : Json String :=
  .object [("resources", .array (selection.resources.map .string))]

def erasePlan (plan : ErasePlan) : Json String :=
  .object [("resource", .string plan.resource), ("operationKey", .string plan.operationKey),
    ("action", .string (actionName plan.action))]

def executionContext (context : ExecutionContext) : Json String :=
  .object [("requestId", .string context.requestId), ("attemptId", .string context.attemptId),
    ("stepId", .string context.stepId), ("idempotencyKey", .string context.idempotencyKey),
    ("dryRun", .bool context.dryRun)]

def verificationExpectation (expectation : VerificationExpectation) : Json String :=
  .object [("resource", .string expectation.resource),
    ("state", .string (outcomeName expectation.state))]

def AdapterMessage.body : AdapterMessage → Json String
  | .health => .object []
  | .discover subject request =>
    .object [("subject", adapterSubject subject), ("request", discoveryRequest request)]
  | .export subject selection =>
    .object [("subject", adapterSubject subject), ("selection", exportSelection selection)]
  | .erase subject plan context =>
    .object [("subject", adapterSubject subject), ("resource", .string plan.resource),
      ("plan", erasePlan plan), ("context", executionContext context)]
  | .verify subject expectation =>
    .object [("subject", adapterSubject subject), ("resource", .string expectation.resource),
      ("expectation", verificationExpectation expectation)]

/-- The schema of the route that a request is sent to. -/
def AdapterMessage.schema : AdapterMessage → Json String → Option AdapterRequestBody
  | .health => healthRequestSchema
  | .discover .. => discoverRequestSchema
  | .export .. => exportRequestSchema
  | .erase .. => eraseRequestSchema
  | .verify .. => verifyRequestSchema

end ForgetOps.AdapterHttp
