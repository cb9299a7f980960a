import RpaEnterprise.Executor.Session
import RpaEnterprise.Ir.Scenario
import RpaEnterprise.Irel.Evaluate
import RpaEnterprise.Runtime.StateMachine

/-!
# Step results and node outputs

What an executor plugin answers, the fields of it that later conditions can read
as `node.<id>`, and what the interpreter throws.
-/

namespace RpaEnterprise.Interpreter

open Lib Irel
open Executor (ChallengeSummary ChallengeType ExceptionClass)

abbrev NodeId := String

/-! ## Step results -/

inductive IrActionType where
  | act
  | observe
  | extract
  | navigate
  | download
  | upload
  | apiCall
  | file
  | humanTask
  | shell
deriving Repr, DecidableEq

inductive StepStatus where
  | success
  | failedBusiness
  | failedSystem
  | failedChallenge
  | failedSecurity
  | uncertain
  | skipped
  | suspended
deriving Repr, DecidableEq

def StepStatus.text : StepStatus → String
  | .success => "success"
  | .failedBusiness => "failed_business"
  | .failedSystem => "failed_system"
  | .failedChallenge => "failed_challenge"
  | .failedSecurity => "failed_security"
  | .uncertain => "uncertain"
  | .skipped => "skipped"
  | .suspended => "suspended"

inductive SideEffectKind where
  | readOnly
  | login
  | submit
  | create
  | update
  | delete
  | upload
deriving Repr, DecidableEq

structure SideEffect where
  kind : SideEffectKind
  committed : Bool
deriving Repr, DecidableEq

structure ClassifiedException where
  exceptionClass : ExceptionClass
  code : String
  message : String
deriving Repr, DecidableEq

/-- `StepResult`, with the fields the interpreter reads. -/
structure StepResult where
  action : IrActionType
  status : StepStatus
  output : Option Json := none
  extracted : Option Json := none
  pageStateAfter : String
  artifacts : List String := []
  sideEffect : Option SideEffect := none
  exception : Option ClassifiedException := none
  challenge : Option ChallengeSummary := none

/-- A side effect that must not happen twice. -/
def StepResult.commits (result : StepResult) : Bool :=
  match result.sideEffect with
  | some effect => effect.committed && effect.kind ≠ .readOnly
  | none => false

structure HttpResponseSnapshot where
  status : Rat
  ok : Bool
  contentType : String
  finalUrl : String
  redirected : Bool
  redirectLocation : Option String
  body : Option Json
  bodyTruncated : Bool

def boolOf (record : Json) (key : String) : Option Bool :=
  match record.field key with
  | some (.bool value) => some value
  | _ => none

def httpResponseFromStep (result : StepResult) : Option HttpResponseSnapshot := do
  if result.action ≠ .apiCall then none
  let output ← result.output
  let status ← Ir.numberOf output "status"
  let ok ← boolOf output "ok"
  let contentType ← Ir.textOf output "contentType"
  let finalUrl ← Ir.textOf output "finalUrl"
  let bodyTruncated ← boolOf output "bodyTruncated"
  some
    { status, ok, contentType, finalUrl, bodyTruncated
      redirected := boolOf output "redirected" = some true
      redirectLocation := Ir.textOf output "redirectLocation"
      body := output.field "body" }

/-! ## Node outputs -/

/-- A field that is only there when it has a value. -/
def optionalField (key : String) (value : Option Json) : List (String × Json) :=
  (value.map fun found => (key, found)).toList

/-- `projectNodeOutput`: the fields of a record. -/
def projectNodeOutput (result : StepResult) : List (String × Json) :=
  let status := ("status", Json.str result.status.text)
  match result.action with
  | .apiCall =>
    match httpResponseFromStep result with
    | some http =>
      status :: ("http_status", .num http.status) :: ("http_ok", .bool http.ok) ::
        optionalField "http_body" http.body
    | none => [status]
  | .extract =>
    status :: optionalField "row_count"
      ((result.output.bind fun output => Ir.numberOf output "rowCount").map .num) ++
      optionalField "extracted_ref" (result.artifacts.head?.map .str)
  | _ => [status]

/-- `currentTier !== undefined ? { ...out, tier: currentTier } : out`. -/
def withTier (currentTier : Option String) (output : List (String × Json)) : List (String × Json) :=
  match currentTier with
  | some tier => Json.assign "tier" (.str tier) output
  | none => output

/-- `nodeScope[nodeId] = output`; the key `__proto__` sets the prototype of the
record, which conditions do not read. -/
def setOutput (nodeId : NodeId) (output : List (String × Json)) (scope : List (String × Json)) :
    List (String × Json) :=
  if nodeId = "__proto__" then scope else Json.assign nodeId (.obj output) scope

/-! ## What the interpreter throws -/

inductive InterpreterCode where
  | irLoopLimit
  | irSchemaInvalid
  | executorStatusUnsupported
  | reservedHandlerUnsupported
  | unsupportedFlow
  | actionUnsupported
  /-- The code of a `SiteResolutionError`. -/
  | site (code : String)
deriving Repr, DecidableEq

inductive Thrown where
  | interpreter (code : InterpreterCode) (message : String)
  /-- `IR_SCHEMA_INVALID`, "interpreter: unknown node". -/
  | unknownNode (nodeId : NodeId)
  | irel (missing : RuntimeMissing)
  | noBranchMatched (nodeId : NodeId)
  | sessionRegistrationRequired (nodeId : NodeId)
  | duplicatePriority (nodeId : NodeId) (priority : Rat)
  | typeError
  /-- Thrown by the executor, the resolver or the reader of pause requests. -/
  | other (message : String)

def schemaInvalid (message : String) : Thrown := .interpreter .irSchemaInvalid message

def Thrown.isUnknownNode : Thrown → Bool
  | .unknownNode _ => true
  | _ => false

/-! ## Terminals -/

/-- The terminal of a failed step; none for a status that is not a failure of the run. -/
def failureTerminal : StepStatus → Option String
  | .failedBusiness => some "fail_business"
  | .failedSecurity => some "fail_security"
  | .failedSystem => some "fail_system"
  | _ => none

def terminalToStatus (terminal : String) : StepStatus :=
  if terminal = "fail_business" then .failedBusiness
  else if terminal = "fail_security" then .failedSecurity
  else if terminal = "fail_system" then .failedSystem
  else .success

def isFailureTerminal (terminal : String) : Bool :=
  ["fail_business", "fail_system", "fail_security"].contains terminal

/-! ## Values of earlier nodes -/

/-- `resolveActionValueFromNode`: the value a person has corrected, as the value of the
action.  An error is the message of an `IR_SCHEMA_INVALID`. -/
def resolveActionValueFromNode (action : Json) (nodeScope : List (String × Json)) : Except String Json :=
  match Ir.textOf action "type", action.field "valueFromNode" with
  | some "act", some vfn =>
    match Ir.textOf vfn "node", Ir.textOf vfn "key" with
    | some node, some key =>
      let correction := (Json.lookup node nodeScope).bind (·.field "correction")
      match correction.bind fun found => Ir.textOf found key with
      | some value => .ok (.obj (Json.assign "value" (.str value) action.fields))
      | none => .error
          s!"interpreter: value_from_node \x7b{node}.{key}\x7d 미해소 — 소유 노드 correction 에 문자열 값 없음(사람 검토값 부재; 조용한 fill 금지)"
    | _, _ => .error "interpreter: value_from_node 는 \x7bnode,key\x7d 문자열 필요"
  | _, _ => .ok action

end RpaEnterprise.Interpreter
