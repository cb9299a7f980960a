import RpaEnterprise.Lib.Json
import RpaEnterprise.Lib.Table

/-!
# The contract between executors and the LLM gateway

Requests, responses and errors as the gateway's callers see them.  A request
carries its idempotency key and its request hash; the gateway trusts both.  The
store keeps one row for every key and says who may call the provider.
-/

namespace RpaEnterprise.Gateway

open Lib

/-- The catalog codes that a gateway call can end with. -/
inductive ErrorCode where
  | llmCapabilityMismatch
  | workitemCheckoutConflict
  | scenarioVersionConflict
  | aiGovernancePolicyBlocked
  | promptInjectionDetected
  | controlPlaneInternalError
  | llmRateLimited
  | llmBackendUnavailable
  | llmStreamIdleTimeout
  | llmStreamTimeout
  | llmBudgetExceeded
  | llmMalformedOutput
  | llmContentFiltered
  | llmConnectionFailed
  | extractSchemaInvalid
deriving Repr, DecidableEq

inductive AdapterErrorCode where
  | rateLimit
  | backendError
  | streamIdleTimeout
  | streamTimeout
  | budgetExceeded
  | malformedOutput
  | contentFiltered
  | connectionFailed
deriving Repr, DecidableEq

def AdapterErrorCode.text : AdapterErrorCode → String
  | .rateLimit => "RATE_LIMIT"
  | .backendError => "BACKEND_ERROR"
  | .streamIdleTimeout => "STREAM_IDLE_TIMEOUT"
  | .streamTimeout => "STREAM_TIMEOUT"
  | .budgetExceeded => "BUDGET_EXCEEDED"
  | .malformedOutput => "MALFORMED_OUTPUT"
  | .contentFiltered => "CONTENT_FILTERED"
  | .connectionFailed => "CONNECTION_FAILED"

def mapTerminal : AdapterErrorCode → ErrorCode
  | .rateLimit => .llmRateLimited
  | .backendError => .llmBackendUnavailable
  | .streamIdleTimeout => .llmStreamIdleTimeout
  | .streamTimeout => .llmStreamTimeout
  | .budgetExceeded => .llmBudgetExceeded
  | .malformedOutput => .llmMalformedOutput
  | .contentFiltered => .llmContentFiltered
  | .connectionFailed => .llmConnectionFailed

structure GatewayError where
  code : ErrorCode
  message : String
  adapterCode : Option AdapterErrorCode := none
  stagehandCallId : Option String := none
deriving Repr, DecidableEq

/-- What a gateway call can throw: its own errors, the abort signal and
whatever the components it awaits throw. -/
inductive Thrown where
  | gateway (error : GatewayError)
  | aborted
  | other (message : String)
deriving Repr, DecidableEq

inductive Primitive where
  | act
  | observe
  | extract
  | agent
  | vlmVerify
  | selfHeal
deriving Repr, DecidableEq

def Primitive.text : Primitive → String
  | .act => "act"
  | .observe => "observe"
  | .extract => "extract"
  | .agent => "agent"
  | .vlmVerify => "vlm_verify"
  | .selfHeal => "self_heal"

inductive Role where
  | system
  | user
deriving Repr, DecidableEq

/-- The content of a message: a text, or the blocks a redaction can turn it into. -/
inductive Content where
  | text (text : String)
  | blocks (items : List Json)

structure Message where
  role : Role
  content : Content

structure ResponseFormat where
  schemaRef : String
  schemaVersion : String
  strict : Bool
  schema : Option Json

structure Metadata where
  tenantId : String
  runId : String
  stepId : String
  attempt : Nat
  primitive : Primitive
  correlationId : String
deriving Repr, DecidableEq

structure Budget where
  maxInputTokens : Nat
  maxOutputTokens : Nat
  maxCost : Rat
deriving DecidableEq

/-- A text run of the page that is not plainly visible. -/
structure TextRun where
  text : String
  visibility : String
  source : String
deriving Repr, DecidableEq

structure LLMRequest where
  model : String
  promptTemplateVersion : String
  messages : List Message
  promptInspection : Option (List TextRun)
  responseFormat : Option ResponseFormat
  metadata : Metadata
  budget : Budget
  idempotencyKey : String
  requestHash : String

structure Usage where
  inputTokens : Nat
  outputTokens : Nat
  cost : Rat
  estimated : Option Bool := none
deriving DecidableEq

inductive FinishReason where
  | stop
  | length
  | toolCall
  | contentFilter
deriving Repr, DecidableEq

structure LLMResponse where
  outputRef : String
  usage : Usage
  finishReason : FinishReason
  parsedJson : Option Json
  stagehandCallId : Option String

/-! ## The idempotency store of LLM calls

The rows of `stagehand_calls`, unique by tenant and idempotency key.  A call
reserves the row of its key; a row that is done is replayed, a row that failed
is opened again under its old id, and a row that is still open turns the
caller away. -/

abbrev CallId := String

inductive StreamStatus where
  | opened
  | done
  | error
  | aborted
deriving Repr, DecidableEq

structure StagehandCall where
  tenantId : String
  runId : String
  stepId : String
  attempt : Nat
  idempotencyKey : String
  requestHash : String
  model : String
  streamStatus : StreamStatus
  promptTemplateVersion : String
  outputRef : Option String
  usage : Option Usage
  parsedJson : Option Json

abbrev Store := Table CallId StagehandCall

inductive Reservation where
  | reserved (callId : CallId) (idempotencyKey : String)
  | replay (response : LLMResponse)
  | inFlight (callId : CallId)
  | blocked (reason : String)

def StagehandCall.reserved (request : LLMRequest) : StagehandCall where
  tenantId := request.metadata.tenantId
  runId := request.metadata.runId
  stepId := request.metadata.stepId
  attempt := request.metadata.attempt
  idempotencyKey := request.idempotencyKey
  requestHash := request.requestHash
  model := request.model
  streamStatus := .opened
  promptTemplateVersion := request.promptTemplateVersion
  outputRef := none
  usage := none
  parsedJson := none

/-- `UNIQUE (tenant_id, idempotency_key)` as a condition on a row. -/
def StagehandCall.isFor (row : StagehandCall) (request : LLMRequest) : Bool :=
  row.tenantId = request.metadata.tenantId && row.idempotencyKey = request.idempotencyKey

/-- `responseFromRow`, for a row with an output. -/
def responseFromRow (id : CallId) (row : StagehandCall) (outputRef : String) : LLMResponse where
  outputRef := outputRef
  usage :=
    match row.usage with
    | some usage => { usage with estimated := none }
    | none => ⟨0, 0, 0, none⟩
  finishReason := .stop
  parsedJson :=
    match row.parsedJson with
    | some .null => none
    | parsed => parsed
  stagehandCallId := some id

/-- A row that failed is opened again for the same call id. -/
def StagehandCall.reopened (row : StagehandCall) (request : LLMRequest) : StagehandCall :=
  { row with
    streamStatus := .opened, outputRef := none, parsedJson := none, usage := none,
    model := request.model, promptTemplateVersion := request.promptTemplateVersion }

/-- What `reserve` makes of the row that holds the key of the request. -/
def reserveExisting (store : Store) (request : LLMRequest) (id : CallId) (row : StagehandCall) :
    Reservation × Store :=
  if row.requestHash ≠ request.requestHash then (.blocked "request_hash_mismatch", store)
  else
    match row.streamStatus, row.outputRef with
    | .done, some outputRef => (.replay (responseFromRow id row outputRef), store)
    | .error, _ | .aborted, _ =>
      (.reserved id request.idempotencyKey, store.modify id fun row => row.reopened request)
    | _, _ => (.inFlight id, store)

/-- One transaction of `reserve` under a fresh call id; an id that is taken
breaks the primary key and the transaction throws. -/
def reserve (store : Store) (request : LLMRequest) (callId : CallId) :
    Option (Reservation × Store) :=
  match store.find? fun _ row => row.isFor request with
  | some (id, row) => some (reserveExisting store request id row)
  | none =>
    (store.insert? callId (.reserved request)).map fun store =>
      (.reserved callId request.idempotencyKey, store)

/-- What a column `numeric(14,6)` keeps of a number: six decimals, half away from zero. -/
def numeric6 (value : Rat) : Rat :=
  let rounded (value : Rat) : Rat := (value * 1000000 + 1 / 2).floor / 1000000
  if value < 0 then -rounded (-value) else rounded value

/-- `complete`: the row keeps the tokens, the cost in its column, the output and the
parsed reply. -/
def StagehandCall.completed (row : StagehandCall) (response : LLMResponse) : StagehandCall :=
  { row with
    streamStatus := .done
    usage := some { response.usage with cost := numeric6 response.usage.cost }
    outputRef := some response.outputRef
    parsedJson := response.parsedJson }

/-- An update of one row, which throws when there is no such row. -/
def updateOne (store : Store) (callId : CallId) (change : StagehandCall → StagehandCall) :
    Option Store :=
  (store.get callId).map fun _ => store.modify callId change

def complete (store : Store) (callId : CallId) (response : LLMResponse) : Option Store :=
  updateOne store callId fun row => row.completed response

def fail (store : Store) (callId : CallId) : Option Store :=
  updateOne store callId fun row => { row with streamStatus := .error }

end RpaEnterprise.Gateway
