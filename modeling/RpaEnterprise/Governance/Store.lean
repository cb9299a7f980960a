import RpaEnterprise.Governance.Compile
import RpaEnterprise.Lib.Table

/-!
# Promotion requests of one tenant

Scenarios, their versions and the requests to put a version into prod, with the
queries and the writes of a decision on a request.
-/

namespace RpaEnterprise.Governance

open Lib

abbrev RequestId := Nat

/-! ## Rows -/

structure Scenario where
  name : String
  archived : Bool
deriving Repr, DecidableEq

inductive PromotionStatus where
  | draft
  | prod
deriving Repr, DecidableEq

structure ScenarioVersion where
  scenarioId : ScenarioId
  version : Nat
  promotionStatus : PromotionStatus
  ir : Json
  compiledAst : Option String
  paramsSchema : Option Json

/-- A version as every `INSERT INTO scenario_versions` writes it. -/
def draftVersion (scenarioId : ScenarioId) (version : Nat) (ir : Json) (compiledAst : String)
    (paramsSchema : Option Json) : ScenarioVersion :=
  ⟨scenarioId, version, .draft, ir, some compiledAst, paramsSchema⟩

inductive PromotionRequestStatus where
  | pending
  | approved
  | rejected
deriving Repr, DecidableEq

structure PromotionRequest where
  scenarioId : ScenarioId
  version : Nat
  reason : String
  requestedBy : Subject
  status : PromotionRequestStatus
  decidedBy : Option Subject
  decisionReason : Option String
deriving Repr, DecidableEq

structure Db where
  scenarios : Table ScenarioId Scenario
  versions : Table VersionId ScenarioVersion
  promotionRequests : Table RequestId PromotionRequest

/-! ## Queries -/

namespace Db

/-- The scenario, if it is not archived. -/
def activeScenario (db : Db) (scenarioId : ScenarioId) : Option Scenario :=
  (db.scenarios.get scenarioId).filter fun scenario => !scenario.archived

/-- One version of a scenario that is not archived, by its number. -/
def version? (db : Db) (scenarioId : ScenarioId) (number : Nat) :
    Option (VersionId × ScenarioVersion) := do
  let _ ← db.activeScenario scenarioId
  db.versions.find? fun _ version => version.scenarioId = scenarioId && version.version = number

/-- Puts one version into prod and takes the others of the scenario out. -/
def promote (db : Db) (scenarioId : ScenarioId) (versionId : VersionId) (compiledAst : String) : Db :=
  { db with versions := db.versions.modifyAll fun other version =>
      if other = versionId then
        { version with promotionStatus := .prod, compiledAst := some compiledAst }
      else if version.scenarioId = scenarioId ∧ version.promotionStatus = .prod then
        { version with promotionStatus := .draft }
      else version }

end Db

def orElse {Value : Type} (found : Option Value) (error : ApiResponseError) :
    Except ApiResponseError Value :=
  match found with
  | some value => .ok value
  | none => .error error

/-- A document that compiled, as the commands go on with it. -/
structure Compiled where
  ir : Json
  report : ValidationReport
  compiledAst : String

def compileOrThrow (platform : Platform) (irDoc : Json) (options : CompileOptions) :
    Except ApiResponseError Compiled :=
  match compileScenario platform irDoc options with
  | .ok ir report compiledAst => .ok ⟨ir, report, compiledAst⟩
  | .failed code _ details => .error ⟨code, details⟩

/-! ## Decisions -/

structure DecidePromotion where
  actor : Subject
  scenarioId : ScenarioId
  requestId : RequestId
  approve : Bool
  reason : Option String
  signedCommandRefs : Option (List String)

/-- The pending request, if the decider is not its requester. -/
def pendingRequest (request : DecidePromotion) (db : Db) :
    Except ApiResponseError PromotionRequest :=
  match (db.promotionRequests.get request.requestId).filter fun pending =>
      pending.scenarioId = request.scenarioId && pending.status = .pending with
  | none => .error notFound
  | some pending =>
    if pending.requestedBy = request.actor then
      .error ⟨.authzForbidden, [("reason", .str "self_approval_forbidden")]⟩
    else .ok pending

def recordDecision (request : DecidePromotion) (db : Db) : Db :=
  { db with
    promotionRequests := db.promotionRequests.modify request.requestId fun row =>
      if row.status = .pending then
        { row with
          status := if request.approve then .approved else .rejected
          decidedBy := some request.actor
          decisionReason := request.reason }
      else row }

end RpaEnterprise.Governance
