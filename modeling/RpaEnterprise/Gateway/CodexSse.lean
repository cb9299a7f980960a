import Mathlib
import RpaEnterprise.Gateway.Contract
import RpaEnterprise.Lib.Json
import RpaEnterprise.Lib.Text

/-!
# The SSE adapter

`CodexSseAdapter.streamCall` as a function of what its surroundings do: the signal
at the call, the clock, and turn by turn what wins the race between the next chunk
of the transport, the timer and the signal.  Chunks are whatever `JSON.parse` made
of a frame.
-/

namespace RpaEnterprise.Gateway.CodexSse

open Lib

structure CodexSseConfig where
  idleTimeoutMs : Int
  wallTimeoutMs : Int
  pricePer1kInputUsd : Rat
  pricePer1kOutputUsd : Rat

/-- The two `RegExp` tests of `classifyTransportError`. -/
structure Platform where
  isRateLimit : String → Bool
  isServerError : String → Bool

inductive Event where
  | opened
  | textDelta (text : String)
  | usage (inputTokens outputTokens cost : Rat) (estimated : Bool)
  | done (finishReason : Json)
  | error (code : AdapterErrorCode) (retryable : Bool) (message : String)
  | aborted
deriving DecidableEq

/-! ## Chunks -/

/-- `Math.ceil(text.length / 4)`. -/
def estTokens (text : String) : Nat := (Text.utf16Length text + 3) / 4

/-- `value.choices?.[0]`; the first unit of a string has no members. -/
def firstChoice (value : Json) : Option Json :=
  match value.field "choices" with
  | some (.arr items) => items.head?
  | some (.obj fields) => Json.lookup "0" fields
  | _ => none

/-- `choice?.delta?.content`, where it is a text that is not empty. -/
def chunkText (value : Json) : Option String :=
  match ((firstChoice value).bind fun choice => choice.field "delta").bind fun delta => delta.field "content" with
  | some (.str text) => if text = "" then none else some text
  | _ => none

/-- The usage of a chunk, where `if (u)` takes its branch. -/
def chunkUsage (value : Json) : Option Json := (value.field "usage").filter Json.truthy

def number? : Json → Option Rat
  | .num value => some value
  | _ => none

def promptTokens (usage : Json) : Option Rat := (usage.field "prompt_tokens").bind number?

def completionTokens (usage : Json) : Option Rat := (usage.field "completion_tokens").bind number?

/-- `choice?.finish_reason`, where `if (fr)` takes its branch. -/
def finishReason (value : Json) : Option Json :=
  ((firstChoice value).bind fun choice => choice.field "finish_reason").filter Json.truthy

def mapFinish (reason : Json) : Json :=
  match reason with
  | .str "tool_calls" => .str "tool_call"
  | reason => reason

/-! ## Counters -/

structure Counters where
  inputTokens : Rat
  outputTokens : Rat
  estimated : Bool

def Counters.addText (counters : Counters) : Option String → Counters
  | some text => { counters with outputTokens := counters.outputTokens + estTokens text }
  | none => counters

def Counters.setUsage (counters : Counters) : Option Json → Counters
  | some usage =>
    let counters := match promptTokens usage with
      | some tokens => { counters with inputTokens := tokens }
      | none => counters
    match completionTokens usage with
    | some tokens => { counters with outputTokens := tokens, estimated := false }
    | none => counters
  | none => counters

/-- What a chunk does to the counters: its text first, its usage after that. -/
def Counters.take (counters : Counters) (value : Json) : Counters :=
  (counters.addText (chunkText value)).setUsage (chunkUsage value)

/-- The estimate of the input. -/
def Counters.start (request : LLMRequest) : Counters where
  inputTokens := (request.messages.map fun message =>
    match message.content with
    | .text text => estTokens text
    | .blocks _ => 0).sum
  outputTokens := 0
  estimated := true

def Counters.cost (counters : Counters) (config : CodexSseConfig) : Rat :=
  counters.inputTokens / 1000 * config.pricePer1kInputUsd +
    counters.outputTokens / 1000 * config.pricePer1kOutputUsd

def Counters.overBudget (counters : Counters) (config : CodexSseConfig) (budget : Budget) : Bool :=
  budget.maxOutputTokens < counters.outputTokens || budget.maxCost < counters.cost config

/-! ## Turns -/

/-- What wins the race of a turn; a chunk and a timeout come with the clock read after them. -/
inductive Outcome where
  | chunk (value : Json) (after : Int)
  | ended
  | timeout (after : Int)
  | aborted
  | failed (message : String)

/-- A turn of the loop: the clock at the two checks, and the race. -/
structure Turn where
  wallReading : Int
  idleReading : Int
  outcome : Outcome

inductive Ending where
  | returned
  | thrown (message : String)
  /-- The turns given are used up and the loop goes on. -/
  | running
deriving Repr, DecidableEq

structure Result where
  events : List Event
  ending : Ending
  unused : List Turn

def Result.after (result : Result) (events : List Event) : Result :=
  { result with events := events ++ result.events }

def classifyTransportError (platform : Platform) (text : String) : AdapterErrorCode × Bool :=
  if platform.isRateLimit text then (.rateLimit, true)
  else if platform.isServerError text then (.backendError, true)
  else (.connectionFailed, true)

/-- The usage and the end that a stream is closed with. -/
def closing (config : CodexSseConfig) (counters : Counters) (reason : Json) : List Event :=
  [.usage counters.inputTokens counters.outputTokens (counters.cost config) counters.estimated, .done reason]

section Loop

variable (platform : Platform) (config : CodexSseConfig) (budget : Budget) (startedAt : Int)

/-- A chunk that is not `null`: its delta, the budget, and the end it may carry. -/
def takeChunk (counters : Counters) (value : Json) : List Event × Option (List Event) :=
  let deltas := ((chunkText value).map Event.textDelta).toList
  let counters := counters.take value
  if counters.overBudget config budget then
    (deltas, some [.error .budgetExceeded false "budget exceeded mid-stream"])
  else (deltas, (finishReason value).map fun reason => closing config counters (mapFinish reason))

def loop (counters : Counters) (lastEventAt : Int) : List Turn → Result
  | [] => ⟨[], .running, []⟩
  | turn :: rest =>
    if config.wallTimeoutMs ≤ turn.wallReading - startedAt then
      ⟨[.error .streamTimeout false "wall-clock timeout"], .returned, rest⟩
    else if config.idleTimeoutMs ≤ turn.idleReading - lastEventAt then
      ⟨[.error .streamIdleTimeout true "no token within idle timeout"], .returned, rest⟩
    else
      match turn.outcome with
      | .failed message =>
        let (code, retryable) := classifyTransportError platform message
        ⟨[.error code retryable message], .returned, rest⟩
      | .aborted => ⟨[.aborted], .returned, rest⟩
      | .timeout after =>
        ⟨[if config.wallTimeoutMs ≤ after - startedAt then .error .streamTimeout false "wall-clock timeout"
          else .error .streamIdleTimeout true "idle timeout"], .returned, rest⟩
      | .ended => ⟨closing config counters (.str "stop"), .returned, rest⟩
      | .chunk .null _ => ⟨[], .thrown "Cannot read properties of null (reading 'choices')", rest⟩
      | .chunk value after =>
        match takeChunk config budget counters value with
        | (deltas, some last) => ⟨deltas ++ last, .returned, rest⟩
        | (deltas, none) => (loop (counters.take value) after rest).after deltas

end Loop

/-- What the surroundings do to a call. -/
structure Surroundings where
  /-- `signal.aborted` when the call starts. -/
  aborted : Bool
  startedAt : Int
  lastEventAt : Int
  /-- What `transport.open` throws, if it does. -/
  refuses : Option String
  turns : List Turn

def streamCall (platform : Platform) (config : CodexSseConfig) (request : LLMRequest) (outside : Surroundings) :
    Result :=
  if outside.aborted then ⟨[.aborted], .returned, outside.turns⟩
  else
    match outside.refuses with
    | some message => ⟨[.opened], .thrown message, outside.turns⟩
    | none =>
      (loop platform config request.budget outside.startedAt (.start request) outside.lastEventAt
        outside.turns).after [.opened]

end RpaEnterprise.Gateway.CodexSse
