import RpaEnterprise.Lib.Execution
import RpaEnterprise.Lib.Json
import RpaEnterprise.Lib.Table
import RpaEnterprise.Lib.Text

/-!
# Handoffs to an integration provider

A handoff is a job that is given to an external provider.  A dispatch request inserts
an attempt; `dispatchIntegrationHandoffAttempt` claims it, sends it to the provider and
records the answer, with a further attempt after a transient failure; the provider
reports back through callbacks, each of which is recorded as a receipt.

One handoff is followed.  The processes interleave: a dispatch request reads the row of
the handoff and inserts in a later statement, and an execution is suspended while the
provider answers.
-/

namespace RpaEnterprise.Integration

open Lib

/-! ## Rows -/

inductive HandoffStatus where
  | accepted
  | deferred
  | completed
  | failed
  | cancelled
deriving Repr, DecidableEq

/-- `IntegrationHandoffReceiptStatus`. -/
inductive ReceiptStatus where
  | accepted
  | completed
  | failed
  | cancelled
deriving Repr, DecidableEq

def ReceiptStatus.toHandoff : ReceiptStatus → HandoffStatus
  | .accepted => .accepted
  | .completed => .completed
  | .failed => .failed
  | .cancelled => .cancelled

inductive AttemptStatus where
  | pending
  | sending
  | accepted
  | failed
  | deadLetter
deriving Repr, DecidableEq

/-- A row of `integration_handoffs`. -/
structure Handoff where
  id : String
  tenantId : String
  providerAlias : String
  jobRef : String
  payloadRef : String
  callbackUrlSecretRef : Option String := none
  callbackSignatureSecretRef : Option String := none
  status : HandoffStatus := .deferred
  externalJobId : Option String := none
  latestReceiptId : Option String := none
  latestErrorCode : Option String := none
  legalHold : Bool := false

/-- A row of `integration_handoff_receipts`; its key is `receipt_id`. -/
structure Receipt where
  externalJobId : String
  status : ReceiptStatus
  errorCode : Option String
  legalHold : Bool
deriving Repr, DecidableEq

/-- The unique key of an attempt of the handoff. -/
structure AttemptKey where
  requestIdempotencyKey : String
  attemptNo : Nat
deriving Repr, DecidableEq

abbrev LeaseToken := Nat

/-- A row of `integration_handoff_dispatch_attempts`. -/
structure Attempt where
  providerAlias : String
  status : AttemptStatus := .pending
  endpointSecretRef : String
  allowedHosts : List String
  maxAttempts : Nat
  nextAttemptAt : Nat
  leaseToken : Option LeaseToken := none
  payload : Json
  providerStatusCode : Option Nat := none
  externalJobId : Option String := none
  receiptId : Option String := none
  errorCode : Option String := none
  requestedBy : String
  legalHold : Bool

structure Database where
  now : Nat := 0
  handoff : Handoff
  receipts : Table String Receipt := .empty
  attempts : Table AttemptKey Attempt := .empty

/-! ## Error codes -/

/-- `[a-zA-Z0-9_.:-]`. -/
def isCodeChar (char : Char) : Bool := char.isAlphanum || ['_', '.', ':', '-'].contains char

/-- A run of other characters becomes one underscore. -/
def collapseOthers : Bool → List Char → List Char
  | _, [] => []
  | inRun, char :: rest =>
    if isCodeChar char then char :: collapseOthers false rest
    else if inRun then collapseOthers true rest
    else '_' :: collapseOthers true rest

def trimUnderscores (chars : List Char) : List Char :=
  ((chars.dropWhile (· = '_')).reverse.dropWhile (· = '_')).reverse

def redactedErrorCode (reason fallback : String) : String :=
  let normalized := (trimUnderscores (collapseOthers false (Text.trim reason).toList)).map Char.toUpper
  String.ofList ((if normalized.isEmpty then fallback.toList else normalized).take 120)

/-! ## Dispatch requests -/

structure DispatchInput where
  endpointSecretRef : String
  allowedHosts : List String
  maxAttempts : Nat := 3
  metadata : Json := .obj []
  legalHold : Bool := false

/-- `assertDispatchableHandoff`. -/
def dispatchable (handoff : Handoff) : Bool :=
  match handoff.status with
  | .deferred | .failed => true
  | .accepted | .completed | .cancelled => false

/-- `value ?? null`. -/
def textOrNull : Option String → Json
  | some text => .str text
  | none => .null

def buildDispatchPayload (handoff : Handoff) (input : DispatchInput) : Json :=
  .obj [("handoff_id", .str handoff.id), ("tenant_id", .str handoff.tenantId),
    ("provider_alias", .str handoff.providerAlias), ("job_ref", .str handoff.jobRef),
    ("payload_ref", .str handoff.payloadRef),
    ("callback", .obj [
      ("url_path", .str s!"/v1/webhooks/integration-handoffs/{handoff.tenantId}/{handoff.id}"),
      ("callback_url_secret_ref", textOrNull handoff.callbackUrlSecretRef),
      ("signature", .str (match handoff.callbackSignatureSecretRef with
        | none => "not_configured"
        | some _ => "hmac-sha256-secret-ref")),
      ("event_id_header", .str "X-RPA-Integration-Event-Id"),
      ("timestamp_header", .str "X-RPA-Integration-Timestamp"),
      ("signature_header", .str "X-RPA-Integration-Signature")]),
    ("metadata", input.metadata)]

/-- A dispatch request between its `SELECT` and its `INSERT`. -/
structure Request where
  /-- The row it has read. -/
  handoff : Handoff
  requestIdempotencyKey : String
  requestedBy : String
  input : DispatchInput

/-- `INSERT … ON CONFLICT DO UPDATE SET updated_at = updated_at`. -/
def insertIntegrationHandoffDispatchAttempt (db : Database) (request : Request) : Database :=
  let row : Attempt :=
    { providerAlias := request.handoff.providerAlias
      endpointSecretRef := request.input.endpointSecretRef
      allowedHosts := request.input.allowedHosts
      maxAttempts := request.input.maxAttempts
      nextAttemptAt := db.now
      payload := buildDispatchPayload request.handoff request.input
      requestedBy := request.requestedBy
      legalHold := request.input.legalHold }
  match db.attempts.insert? ⟨request.requestIdempotencyKey, 1⟩ row with
  | some attempts => { db with attempts }
  | none => db

/-! ## Executions -/

/-- `IntegrationHandoffDispatchDecision`. -/
inductive Decision where
  | accepted (receiptId : String) (providerStatusCode : Nat) (externalJobId : Option String)
  | transientFailed (reason : String) (providerStatusCode : Option Nat)
  | permanentFailed (reason : String) (providerStatusCode : Option Nat)

structure Policy where
  /-- `ops-defaults.md#integration.handoff.dispatch`. -/
  maxAttempts : Nat
  retryAfterMs : Nat

/-- The row `claimPendingAttempt` returned, under the lease of the execution. -/
structure Execution where
  key : AttemptKey
  attempt : Attempt
  /-- `port.dispatch` was called. -/
  sent : Bool := false

def claimPendingAttempt (policy : Policy) (db : Database) (key : AttemptKey) (token : LeaseToken) :
    Option (Database × Execution) :=
  match db.attempts.get key with
  | none => none
  | some row =>
    if row.status = .pending ∧ row.nextAttemptAt ≤ db.now then
      let claim (row : Attempt) : Attempt := { row with status := .sending, leaseToken := some token }
      some ({ db with attempts := db.attempts.modify key claim },
        { key, attempt := { claim row with maxAttempts := min row.maxAttempts policy.maxAttempts } })
    else none

/-- The attempt is still in the hands of the execution. -/
def holdsLease (db : Database) (token : LeaseToken) (key : AttemptKey) : Bool :=
  match db.attempts.get key with
  | some row => row.leaseToken = some token && row.status = .sending
  | none => false

def Attempt.acceptedWith (receiptId : String) (providerStatusCode : Nat) (externalJobId : Option String)
    (row : Attempt) : Attempt :=
  { row with
    status := .accepted, receiptId := some receiptId, externalJobId
    providerStatusCode := some providerStatusCode, errorCode := none }

def Attempt.failedWith (errorCode : String) (providerStatusCode : Option Nat) (finalFailure : Bool)
    (row : Attempt) : Attempt :=
  { row with
    status := if finalFailure then .deadLetter else .failed
    errorCode := some errorCode, providerStatusCode }

/-- A transaction that throws gives nothing. -/
def completeAcceptedAttempt (db : Database) (token : LeaseToken) (execution : Execution)
    (receiptId : String) (providerStatusCode : Nat) (externalJobId : Option String) : Option Database :=
  if holdsLease db token execution.key then
    some { db with
      attempts := db.attempts.modify execution.key
        (Attempt.acceptedWith receiptId providerStatusCode externalJobId)
      handoff := { db.handoff with
        status := .accepted, externalJobId, latestReceiptId := some receiptId, latestErrorCode := none
        legalHold := db.handoff.legalHold || execution.attempt.legalHold } }
  else none

def completeFailedAttempt (policy : Policy) (db : Database) (token : LeaseToken) (execution : Execution)
    (reason : String) (providerStatusCode : Option Nat) (finalFailure : Bool) : Option Database :=
  let errorCode := redactedErrorCode reason "INTEGRATION_HANDOFF_DISPATCH_FAILED"
  if holdsLease db token execution.key then
    let attempts := db.attempts.modify execution.key
      (Attempt.failedWith errorCode providerStatusCode finalFailure)
    if finalFailure then
      some { db with
        attempts
        handoff := { db.handoff with
          status := .failed, latestErrorCode := some errorCode
          legalHold := db.handoff.legalHold || execution.attempt.legalHold } }
    else
      let next : Attempt :=
        { execution.attempt with
          status := .pending, leaseToken := none, nextAttemptAt := db.now + policy.retryAfterMs
          providerStatusCode := none, externalJobId := none, receiptId := none, errorCode := none }
      (attempts.insert? { execution.key with attemptNo := execution.key.attemptNo + 1 } next).map
        fun attempts => { db with attempts }
  else none

/-- What `dispatchIntegrationHandoffAttempt` does with the answer of the provider. -/
def completeAttempt (policy : Policy) (db : Database) (token : LeaseToken) (execution : Execution) :
    Decision → Option Database
  | .accepted receiptId providerStatusCode externalJobId =>
    completeAcceptedAttempt db token execution receiptId providerStatusCode externalJobId
  | .transientFailed reason providerStatusCode =>
    completeFailedAttempt policy db token execution reason providerStatusCode
      (execution.attempt.maxAttempts ≤ execution.key.attemptNo)
  | .permanentFailed reason providerStatusCode =>
    completeFailedAttempt policy db token execution reason providerStatusCode true

/-! ## Callbacks -/

structure CallbackInput where
  externalJobId : String
  status : ReceiptStatus
  receiptId : String
  errorCode : Option String := none
  legalHold : Bool := false

def CallbackInput.receipt (input : CallbackInput) : Receipt where
  externalJobId := input.externalJobId
  status := input.status
  errorCode := input.errorCode
  legalHold := input.legalHold

/-- The row of the handoff is locked, so this is one step.  A receipt that was recorded
before changes nothing; one that differs from it is refused. -/
def recordIntegrationHandoffReceipt (db : Database) (input : CallbackInput)
    (verifiedSignatureSecretRef : Option String) : Option Database :=
  match verifiedSignatureSecretRef with
  | some verified => if db.handoff.callbackSignatureSecretRef = some verified then record else none
  | none => record
where
  record : Option Database :=
    match db.receipts.insert? input.receiptId input.receipt with
    | some receipts =>
      some { db with
        receipts
        handoff := { db.handoff with
          status := input.status.toHandoff, externalJobId := some input.externalJobId
          latestReceiptId := some input.receiptId, latestErrorCode := input.errorCode
          legalHold := db.handoff.legalHold || input.legalHold } }
    | none =>
      match db.receipts.get input.receiptId with
      | some existing => if existing = input.receipt then some db else none
      | none => none

/-! ## The system -/

def ReceiptStatus.final : ReceiptStatus → Bool
  | .completed | .cancelled => true
  | .accepted | .failed => false

/-- A completed or cancelled receipt has been recorded. -/
def Database.finished (db : Database) : Bool := db.receipts.rows.any fun entry => entry.2.status.final

def AttemptStatus.isOpen : AttemptStatus → Bool
  | .pending | .sending => true
  | .accepted | .failed | .deadLetter => false

/-- No attempt is pending or sending. -/
def Database.idle (db : Database) : Bool := db.attempts.rows.all fun entry => !entry.2.status.isOpen

structure State where
  db : Database
  requests : Table Nat Request := .empty
  executions : Table LeaseToken Execution := .empty
  /-- What was sent to the provider, and whether the handoff was finished by then. -/
  sends : List (AttemptKey × Bool) := []

inductive Action where
  | tick (duration : Nat)
  /-- A dispatch request reads the row of the handoff. -/
  | readHandoff (session : Nat) (requestIdempotencyKey requestedBy : String) (input : DispatchInput)
  /-- It inserts its attempt and commits. -/
  | insertAttempt (session : Nat)
  | claim (token : LeaseToken) (key : AttemptKey)
  /-- `port.dispatch` is called; a payload that is no record is not sent. -/
  | send (token : LeaseToken)
  /-- The provider has answered. -/
  | complete (token : LeaseToken) (decision : Decision)
  | callback (input : CallbackInput) (verifiedSignatureSecretRef : Option String)

/-- The execution is over. -/
def State.finish (state : State) (token : LeaseToken) (db : Option Database) : State :=
  { state with
    db := db.getD state.db
    executions := state.executions.filter fun other _ => other ≠ token }

def step (policy : Policy) (state : State) : Action → State
  | .tick duration => { state with db := { state.db with now := state.db.now + duration } }
  | .readHandoff session requestIdempotencyKey requestedBy input =>
    if dispatchable state.db.handoff then
      match state.requests.insert? session
          { handoff := state.db.handoff, requestIdempotencyKey, requestedBy, input } with
      | some requests => { state with requests }
      | none => state
    else state
  | .insertAttempt session =>
    match state.requests.get session with
    | some request =>
      { state with
        db := insertIntegrationHandoffDispatchAttempt state.db request
        requests := state.requests.filter fun other _ => other ≠ session }
    | none => state
  | .claim token key =>
    match claimPendingAttempt policy state.db key token with
    | some (db, execution) =>
      match state.executions.insert? token execution with
      | some executions => { state with db, executions }
      | none => state
    | none => state
  | .send token =>
    match state.executions.get token with
    | some execution =>
      if execution.sent then state
      else match execution.attempt.payload with
        | .obj _ =>
          { state with
            executions := state.executions.modify token fun execution => { execution with sent := true }
            sends := state.sends ++ [(execution.key, state.db.finished)] }
        | _ => state.finish token
            (completeFailedAttempt policy state.db token execution "payload_not_object" none true)
    | none => state
  | .complete token decision =>
    match state.executions.get token with
    | some execution =>
      if execution.sent then state.finish token (completeAttempt policy state.db token execution decision)
      else state
    | none => state
  | .callback input verified =>
    { state with db := (recordIntegrationHandoffReceipt state.db input verified).getD state.db }

/-- A handoff that was just created. -/
def created (handoff : Handoff) : State where
  db := { handoff := { handoff with status := .deferred } }

end RpaEnterprise.Integration
