import RpaEnterprise.Gateway.Contract
import RpaEnterprise.Lib.Dialogue
import RpaEnterprise.Lib.Text

/-!
# A gateway call

`LlmGateway.call` as a dialogue: the capability gate, the reservation, the
governance and redaction checks, the adapters with their retries and the
fallback, the structured-output check with its repairs, and the completion or
failure of the reserved row.  The adapters, the redaction boundary, the
guards and the artifact sink are the other side of the dialogue; so is the
database, through the three transactions of the idempotency store.
-/

namespace RpaEnterprise.Gateway

open Lib

structure ModelCapabilities where
  domReasoning : Bool
  vision : Bool
  jsonMode : Bool
  sse : Bool
deriving Repr, DecidableEq

inductive Transport where
  | sse
  | sync
deriving Repr, DecidableEq

inductive Adapter where
  | primary
  | fallback
deriving Repr, DecidableEq

structure Config where
  retryMax : Nat
  fallbackAttempts : Nat
  repairAttempts : Nat
deriving Repr, DecidableEq

/-- What a gateway is built with. -/
structure Deps where
  capabilities : ModelCapabilities
  /-- Whether an adapter has a `syncCall`. -/
  syncCall : Adapter → Bool
  fallback : Bool
  aiGovernance : Bool
  idempotency : Bool
  config : Config
  /-- The structured-output validator, with the reason of a refusal. -/
  validate : ResponseFormat → Json → Option String
  /-- `JSON.parse`. -/
  parse : String → Option Json

/-! ## The other side -/

inductive StreamEvent where
  | opened
  | textDelta (text : String)
  | jsonDelta (piece : String)
  | toolCallDelta
  | usage (usage : Usage)
  | done (finishReason : FinishReason)
  | error (code : AdapterErrorCode) (retryable : Bool)
  | aborted

/-- The events a stream yields and what it throws after them, if it does. -/
structure StreamRun where
  events : List StreamEvent
  thrown : Option String

inductive GovernanceKind where
  | allow
  | warn
  | block
deriving Repr, DecidableEq

structure GovernanceDecision where
  kind : GovernanceKind
  reason : String
deriving Repr, DecidableEq

inductive Redaction where
  | redacted (content : Content)
  | blocked (signals : List String)

inductive Phase where
  | initial
  | repair
deriving Repr, DecidableEq

inductive Outside where
  | evaluateGovernance (request : LLMRequest)
  | recordAiGovernanceDecision (request : LLMRequest) (decision : GovernanceDecision)
  | redactForGateway (request : LLMRequest) (raw : Content) (textRuns : Option (List TextRun))
  | recordPromptInspectDecision (request : LLMRequest) (result : Redaction) (phase : Phase)
      (messageIndex : Nat)
  | streamCall (adapter : Adapter) (request : LLMRequest)
  | sendSync (adapter : Adapter) (request : LLMRequest)
  | put (content : String) (metadata : Metadata)

@[reducible]
def Outside.Reply : Outside → Type
  | .evaluateGovernance _ => Except String GovernanceDecision
  | .recordAiGovernanceDecision _ _ => Except String Unit
  | .redactForGateway _ _ _ => Except String Redaction
  | .recordPromptInspectDecision _ _ _ _ => Except String Unit
  | .streamCall _ _ => StreamRun
  | .sendSync _ _ => Except String LLMResponse
  | .put _ _ => Except String String

abbrev Exchange (Value : Type) := Dialogue Outside Outside.Reply Thrown Value

/-- `await` of a component that may throw. -/
def awaited {Ask : Type} {Reply : Ask → Type} {Value : Type}
    (reply : Dialogue Ask Reply Thrown (Except String Value)) : Dialogue Ask Reply Thrown Value :=
  reply.awaitOr .other

def gatewayError {Value : Type} (code : ErrorCode) (message : String)
    (adapterCode : Option AdapterErrorCode) : Exchange Value :=
  .fail (.gateway ⟨code, message, adapterCode, none⟩)

/-- An audit append that fails closes the call. -/
def audited (append : Exchange (Except String Unit)) (message : String) : Exchange Unit := do
  match ← append with
  | .ok () => pure ()
  | .error _ => gatewayError .controlPlaneInternalError message none

def recordPromptInspectDecision (request : LLMRequest) (result : Redaction) (phase : Phase)
    (messageIndex : Nat) : Exchange Unit :=
  audited (.perform (Outside.recordPromptInspectDecision request result phase messageIndex))
    "prompt inspect audit append failed closed"

def recordAiGovernanceDecision (request : LLMRequest) (decision : GovernanceDecision) :
    Exchange Unit :=
  audited (.perform (Outside.recordAiGovernanceDecision request decision))
    "AI governance audit append failed closed"

def evaluateGovernance (request : LLMRequest) : Exchange GovernanceDecision :=
  awaited (.perform (Outside.evaluateGovernance request))

def redactForGateway (request : LLMRequest) (raw : Content) (textRuns : Option (List TextRun)) :
    Exchange Redaction :=
  awaited (.perform (Outside.redactForGateway request raw textRuns))

def put (content : String) (metadata : Metadata) : Exchange String :=
  awaited (.perform (Outside.put content metadata))

/-! ## The capability gate -/

inductive CapabilityDecision where
  | allow (transport : Transport)
  | deny (reason : String)
deriving Repr, DecidableEq

def needsDomReasoning : Primitive → Bool
  | .act | .observe | .extract | .agent | .selfHeal => true
  | .vlmVerify => false

/-- `SafeCapabilityGate.evaluate`, for requests without images. -/
def evaluateGate (primitive : Primitive) (capabilities : ModelCapabilities) : CapabilityDecision :=
  if primitive = .vlmVerify ∧ ¬ capabilities.vision then
    .deny s!"primitive '{primitive.text}' requires vision capability"
  else if needsDomReasoning primitive ∧ ¬ capabilities.domReasoning then
    .deny s!"primitive '{primitive.text}' requires domReasoning capability"
  else .allow (if capabilities.sse then .sse else .sync)

/-! ## The request on its way out -/

def promptSchemaInstruction (schema : Json) : String :=
  "Respond with ONLY a single JSON value strictly conforming to this JSON Schema. No prose, no markdown, no code fences. JSON Schema: "
    ++ schema.stringify

/-- The first system message of text gets the instruction; none gets it when
there is none. -/
def appendToSystem (instruction : String) : List Message → Option (List Message)
  | [] => none
  | ⟨.system, .text content⟩ :: rest => some (⟨.system, .text s!"{content}\n{instruction}"⟩ :: rest)
  | message :: rest => (appendToSystem instruction rest).map (message :: ·)

def withPromptSchema (deps : Deps) (request : LLMRequest) : LLMRequest :=
  match request.responseFormat.bind ResponseFormat.schema with
  | none => request
  | some schema =>
    if deps.capabilities.jsonMode then request
    else
      let instruction := promptSchemaInstruction schema
      { request with
        messages := (appendToSystem instruction request.messages).getD
          (⟨.system, .text instruction⟩ :: request.messages) }

def injectionBlocked (site : String) (signals : List String) : Exchange Content :=
  let signals := Text.join "," signals
  gatewayError .promptInjectionDetected s!"prompt injection blocked at {site} ({signals})" none

/-- A user message passes the redaction boundary. -/
def redactMessage (request : LLMRequest) (messageIndex : Nat) (content : Content) :
    Exchange Content := do
  let result ← redactForGateway request content request.promptInspection
  recordPromptInspectDecision request result .initial messageIndex
  match result with
  | .redacted content => pure content
  | .blocked signals => injectionBlocked "gateway" signals

def redactMessages (request : LLMRequest) (messageIndex : Nat) :
    List Message → Exchange (List Message)
  | [] => pure []
  | message :: rest => do
    let content ←
      match message.role with
      | .user => redactMessage request messageIndex message.content
      | .system => pure message.content
    let rest ← redactMessages request (messageIndex + 1) rest
    pure (⟨message.role, content⟩ :: rest)

def redactRequest (request : LLMRequest) : Exchange LLMRequest := do
  let messages ← redactMessages request 0 request.messages
  pure { request with messages, promptInspection := none }

/-! ## Adapters -/

structure Consumed where
  text : String
  usage : Option Usage
  finishReason : FinishReason

inductive ConsumeResult where
  | ok (consumed : Consumed)
  | error (code : AdapterErrorCode) (retryable : Bool)
  | aborted

/-- The loop over the events of a stream. -/
def consumeEvents (thrown : Option String) (text : String) (usage : Option Usage) :
    List StreamEvent → Except Thrown ConsumeResult
  | [] =>
    match thrown with
    | some message => .error (.other message)
    | none => .ok (.ok ⟨text, usage, .stop⟩)
  | .textDelta piece :: rest => consumeEvents thrown (text ++ piece) usage rest
  | .jsonDelta piece :: rest => consumeEvents thrown (text ++ piece) usage rest
  | .usage usage :: rest => consumeEvents thrown text (some usage) rest
  | .done finishReason :: _ => .ok (.ok ⟨text, usage, finishReason⟩)
  | .error code retryable :: _ => .ok (.error code retryable)
  | .aborted :: _ => .ok .aborted
  | .opened :: rest | .toolCallDelta :: rest => consumeEvents thrown text usage rest

def streamCall (adapter : Adapter) (request : LLMRequest) : Exchange StreamRun :=
  .perform (Outside.streamCall adapter request)

def sendSync (adapter : Adapter) (request : LLMRequest) : Exchange (Except String LLMResponse) :=
  .perform (Outside.sendSync adapter request)

def consumeSync (adapter : Adapter) (request : LLMRequest) : Exchange ConsumeResult := do
  match ← sendSync adapter request with
  | .ok response => pure (.ok ⟨"", some response.usage, response.finishReason⟩)
  | .error _ => pure (.error .connectionFailed true)

def consumeStream (adapter : Adapter) (request : LLMRequest) : Exchange ConsumeResult := do
  let stream ← streamCall adapter request
  .lift (consumeEvents stream.thrown "" none stream.events)

def consumeOnce (deps : Deps) (adapter : Adapter) (request : LLMRequest) :
    Transport → Exchange ConsumeResult
  | .sync =>
    if deps.syncCall adapter then consumeSync adapter request
    else pure (.error .backendError false)
  | .sse => consumeStream adapter request

/-- The tries of one adapter: what it answered, or the last code when its tries
are used up. -/
def tryAdapter (deps : Deps) (adapter : Adapter) (request : LLMRequest) (transport : Transport) :
    Nat → Option AdapterErrorCode → Exchange (Except (Option AdapterErrorCode) Consumed)
  | 0, last => pure (.error last)
  | tries + 1, _ => do
    match ← consumeOnce deps adapter request transport with
    | .ok consumed => pure (.ok consumed)
    | .aborted => .fail .aborted
    | .error code retryable =>
      if retryable then tryAdapter deps adapter request transport tries (some code)
      else gatewayError (mapTerminal code) s!"terminal {code.text}" (some code)

def tryChain (deps : Deps) (request : LLMRequest) (transport : Transport) :
    List (Adapter × Nat) → Option AdapterErrorCode → Exchange Consumed
  | [], last =>
    let code := last.getD .backendError
    gatewayError (mapTerminal code) "retries and fallback exhausted" (some code)
  | (adapter, tries) :: rest, last => do
    match ← tryAdapter deps adapter request transport tries last with
    | .ok consumed => pure consumed
    | .error last => tryChain deps request transport rest last

def runWithRetryAndFallback (deps : Deps) (request : LLMRequest) (transport : Transport) :
    Exchange Consumed :=
  tryChain deps request transport
    ((.primary, deps.config.retryMax + 1)
      :: if deps.fallback then [(.fallback, deps.config.fallbackAttempts)] else [])
    none

/-! ## Structured output -/

/-- What a failed structured output is reported as. -/
def structuredFail (request : LLMRequest) (reason : String) : GatewayError where
  code := if request.metadata.primitive = .extract then .extractSchemaInvalid else .llmMalformedOutput
  message := s!"structured output invalid: {reason}"
  adapterCode := some .malformedOutput

def repairContent (request : LLMRequest) (priorText reason : String) : Exchange Content := do
  let result ← redactForGateway request
    (.text s!"Previous output was invalid ({reason}). Return only corrected JSON.\n{priorText}") none
  recordPromptInspectDecision request result .repair request.messages.length
  match result with
  | .redacted content => pure content
  | .blocked signals => injectionBlocked "gateway repair" signals

def repairOnce (deps : Deps) (request : LLMRequest) (priorText reason : String)
    (transport : Transport) : Exchange Consumed := do
  let content ← repairContent request priorText reason
  let repaired := { request with messages := request.messages ++ [⟨.user, content⟩] }
  match ← consumeOnce deps .primary repaired transport with
  | .ok consumed => pure consumed
  | .aborted => .fail .aborted
  | .error code _ => gatewayError (mapTerminal code) s!"repair failed: {code.text}" (some code)

/-- Why an output is refused, or its parsed value. -/
def checkOutput (deps : Deps) (format : ResponseFormat) (text : String) : Except String Json :=
  match deps.parse text with
  | none => .error "output is not valid JSON"
  | some value =>
    if format.schemaRef = "action_plan" ∧ format.schema.isNone then .ok value
    else
      match deps.validate format value with
      | none => .ok value
      | some reason => .error reason

def respond (request : LLMRequest) (consumed : Consumed) (text : String)
    (parsedJson : Option Json) : Exchange LLMResponse := do
  let outputRef ← put text request.metadata
  pure {
    outputRef
    usage := consumed.usage.getD ⟨0, 0, 0, some true⟩
    finishReason := consumed.finishReason
    parsedJson
    stagehandCallId := none }

/-- The loop of `finalize`, with the repairs that are left. -/
def finalizeStructured (deps : Deps) (request : LLMRequest) (consumed : Consumed)
    (transport : Transport) (format : ResponseFormat) : Nat → String → Exchange LLMResponse
  | 0, text =>
    match checkOutput deps format text with
    | .ok value => respond request consumed text (some value)
    | .error reason => .fail (.gateway (structuredFail request reason))
  | repairs + 1, text =>
    match checkOutput deps format text with
    | .ok value => respond request consumed text (some value)
    | .error reason =>
      if format.strict then .fail (.gateway (structuredFail request reason))
      else do
        let repaired ← repairOnce deps request text reason transport
        finalizeStructured deps request consumed transport format repairs repaired.text

def finalize (deps : Deps) (request : LLMRequest) (consumed : Consumed) (transport : Transport) :
    Exchange LLMResponse :=
  match request.responseFormat with
  | none => respond request consumed consumed.text none
  | some format =>
    finalizeStructured deps request consumed transport format deps.config.repairAttempts
      consumed.text

/-! ## The call -/

def governed (deps : Deps) (request : LLMRequest) : Exchange Unit :=
  if deps.aiGovernance then do
    let decision ← evaluateGovernance request
    recordAiGovernanceDecision request decision
    if decision.kind = .block then
      gatewayError .aiGovernancePolicyBlocked s!"AI governance blocked: {decision.reason}" none
    else pure ()
  else pure ()

/-- Everything between the reservation and the completion of its row. -/
def produce (deps : Deps) (request : LLMRequest) (transport : Transport) :
    Exchange LLMResponse := do
  governed deps request
  let redacted ← redactRequest (withPromptSchema deps request)
  let consumed ← runWithRetryAndFallback deps redacted transport
  finalize deps redacted consumed transport

inductive Ask where
  | outside (question : Outside)
  | reserve (request : LLMRequest)
  | complete (callId : CallId) (response : LLMResponse)
  | fail (callId : CallId) (error : AdapterErrorCode)

@[reducible]
def Ask.Reply : Ask → Type
  | .outside question => question.Reply
  | .reserve _ => Except String Reservation
  | .complete _ _ => Except String Unit
  | .fail _ _ => Except String Unit

abbrev Call (Value : Type) := Dialogue Ask Ask.Reply Thrown Value

/-- What `call` rethrows: a gateway error gets the id of the call. -/
def withCallId (callId : CallId) : Thrown → Thrown
  | .gateway error =>
    .gateway { error with stagehandCallId := error.stagehandCallId.or (some callId) }
  | thrown => thrown

def failureCode : Thrown → AdapterErrorCode
  | .gateway error => error.adapterCode.getD .backendError
  | _ => .backendError

/-- The call of a reserved row: it is completed with the response, or failed. -/
def callReserved (deps : Deps) (request : LLMRequest) (transport : Transport) (callId : CallId) :
    Call LLMResponse :=
  let body : Call LLMResponse := do
    let finalized ← (produce deps request transport).embed Ask.outside
    let response := { finalized with stagehandCallId := some callId }
    awaited (.perform (Ask.complete callId response))
    pure response
  body.recover fun thrown => do
    awaited (.perform (Ask.fail callId (failureCode thrown)))
    .fail (withCallId callId thrown)

/-- What the reservation makes of the call. -/
def callAfter (deps : Deps) (request : LLMRequest) (transport : Transport) :
    Reservation → Call LLMResponse
  | .replay response => pure response
  | .reserved callId _ => callReserved deps request transport callId
  | .inFlight callId =>
    .fail (.gateway ⟨.workitemCheckoutConflict,
      s!"idempotency call '{callId}' is still in flight", none, none⟩)
  | .blocked reason =>
    .fail (.gateway ⟨.scenarioVersionConflict, s!"idempotency blocked: {reason}", none, none⟩)

def call (deps : Deps) (request : LLMRequest) : Call LLMResponse :=
  match evaluateGate request.metadata.primitive deps.capabilities with
  | .deny reason => .fail (.gateway ⟨.llmCapabilityMismatch, reason, none, none⟩)
  | .allow transport =>
    if deps.idempotency then do
      let reservation ← awaited (.perform (Ask.reserve request))
      callAfter deps request transport reservation
    else (produce deps request transport).embed Ask.outside

end RpaEnterprise.Gateway
