import RpaEnterprise.Gateway.AdapterProtocol
import RpaEnterprise.Gateway.CodexSseTransport

/-!
# The usage a provider reports

The usage event of a stream, compared with the last usage object the transport gives.
The loop reads up to the first chunk with a finish reason; what the counters hold then
is said in terms of the chunks.
-/

namespace RpaEnterprise.Gateway.CodexSse

open Lib

/-! ## Streams -/

/-- The turns take the chunks of a stream in order, and see its end after the last one.  A
timeout, an abort or a failure may come at any time. -/
inductive Delivers : List Json → List Turn → Prop where
  | waiting (chunks : List Json) : Delivers chunks []
  | chunk {turn : Turn} {value : Json} {after : Int} {chunks : List Json} {rest : List Turn}
      (outcome : turn.outcome = .chunk value after) (later : Delivers chunks rest) :
      Delivers (value :: chunks) (turn :: rest)
  | ended {turn : Turn} (rest : List Turn) (outcome : turn.outcome = .ended) : Delivers [] (turn :: rest)
  | timeout {turn : Turn} {after : Int} (chunks : List Json) (rest : List Turn)
      (outcome : turn.outcome = .timeout after) : Delivers chunks (turn :: rest)
  | aborted {turn : Turn} (chunks : List Json) (rest : List Turn) (outcome : turn.outcome = .aborted) :
      Delivers chunks (turn :: rest)
  | failed {turn : Turn} {message : String} (chunks : List Json) (rest : List Turn)
      (outcome : turn.outcome = .failed message) : Delivers chunks (turn :: rest)

variable {inputTokens outputTokens cost : Rat} {chunks : List Json} {config : CodexSseConfig}

theorem Delivers.of_chunk {turn : Turn} {rest : List Turn} {value : Json} {after : Int}
    (delivers : Delivers chunks (turn :: rest)) (outcome : turn.outcome = .chunk value after) :
    ∃ later, chunks = value :: later ∧ Delivers later rest := by
  cases delivers with
  | chunk given later =>
    cases given.symm.trans outcome
    exact ⟨_, rfl, later⟩
  | ended _ given | timeout _ _ given | aborted _ _ given | failed _ _ given => cases given.symm.trans outcome

theorem Delivers.of_ended {turn : Turn} {rest : List Turn}
    (delivers : Delivers chunks (turn :: rest)) (outcome : turn.outcome = .ended) : chunks = [] := by
  cases delivers with
  | ended => rfl
  | chunk given | timeout _ _ given | aborted _ _ given | failed _ _ given => cases given.symm.trans outcome

/-- The chunks up to the first one with a finish reason. -/
def upToFinish : List Json → List Json
  | [] => []
  | value :: rest => if (finishReason value).isSome then [value] else value :: upToFinish rest

/-- The usage objects of a stream. -/
def usageObjects (chunks : List Json) : List Json :=
  chunks.filterMap fun value => (value.field "usage").filter fun usage => usage.record?.isSome

/-! ## The counters in terms of the chunks -/

def promptOf (value : Json) : Option Rat := (chunkUsage value).bind promptTokens

def completionOf (value : Json) : Option Rat := (chunkUsage value).bind completionTokens

/-- The last count of prompt tokens. -/
def lastPrompt (chunks : List Json) : Option Rat := (chunks.filterMap promptOf).getLast?

/-- The last count of completion tokens, and the chunks after it. -/
def lastCompletion : List Json → Option (Rat × List Json)
  | [] => none
  | value :: rest => (lastCompletion rest).or ((completionOf value).map fun tokens => (tokens, rest))

/-- The estimate of the text of a chunk. -/
def chunkTokens (value : Json) : Rat :=
  match chunkText value with
  | some text => estTokens text
  | none => 0

def textTokens (chunks : List Json) : Rat := (chunks.map chunkTokens).sum

theorem addText_eq (counters : Counters) (value : Json) :
    counters.addText (chunkText value) =
      { counters with outputTokens := counters.outputTokens + chunkTokens value } := by
  rw [chunkTokens]
  cases chunkText value with
  | none => simp only [Counters.addText, Rat.add_zero]
  | some text => rfl

/-- A count the chunk carries replaces the counter; its text counts only without one. -/
theorem take_eq (counters : Counters) (value : Json) :
    counters.take value =
      { inputTokens := (promptOf value).getD counters.inputTokens
        outputTokens := (completionOf value).getD (counters.outputTokens + chunkTokens value)
        estimated := counters.estimated && (completionOf value).isNone } := by
  rw [Counters.take, addText_eq, promptOf, completionOf]
  cases chunkUsage value with
  | none => simp [Counters.setUsage]
  | some usage =>
    cases prompt : promptTokens usage <;> cases completion : completionTokens usage <;>
      simp [Counters.setUsage, prompt, completion]

theorem foldl_inputTokens (chunks : List Json) (counters : Counters) :
    (chunks.foldl Counters.take counters).inputTokens = (lastPrompt chunks).getD counters.inputTokens := by
  induction chunks generalizing counters with
  | nil => rfl
  | cons value rest ih =>
    rw [List.foldl_cons, ih, take_eq, lastPrompt, lastPrompt]
    cases prompt : promptOf value with
    | none => rw [List.filterMap_cons_none prompt, Option.getD_none]
    | some tokens =>
      rw [List.filterMap_cons_some prompt, List.getLast?_cons, Option.getD_some, Option.getD_some]

theorem foldl_outputTokens (chunks : List Json) (counters : Counters) :
    (chunks.foldl Counters.take counters).outputTokens =
      (lastCompletion chunks).elim (counters.outputTokens + textTokens chunks)
        fun found => found.1 + textTokens found.2 := by
  induction chunks generalizing counters with
  | nil => simp [lastCompletion, textTokens]
  | cons value rest ih =>
    rw [List.foldl_cons, ih, take_eq, lastCompletion]
    cases lastCompletion rest with
    | some found => rfl
    | none =>
      cases completionOf value with
      | some tokens => rfl
      | none => simp [textTokens, Rat.add_assoc]

theorem foldl_estimated (chunks : List Json) (counters : Counters) :
    (chunks.foldl Counters.take counters).estimated =
      (counters.estimated && (lastCompletion chunks).isNone) := by
  induction chunks generalizing counters with
  | nil => simp [lastCompletion]
  | cons value rest ih =>
    rw [List.foldl_cons, ih, take_eq, lastCompletion]
    cases lastCompletion rest <;> cases completionOf value <;> simp

/-! ## The usage event -/

theorem outcome_of_raced {startedAt lastEventAt : Int} {turn : Turn} {outcome : Outcome}
    (race : raced config startedAt lastEventAt turn = some outcome) : turn.outcome = outcome := by
  rw [raced] at race
  split at race
  · cases race
  · split at race
    · cases race
    · exact Option.some.inj race

theorem usage_not_mem_deltasOf (value : Json) (inputTokens outputTokens cost : Rat) (estimated : Bool) :
    Event.usage inputTokens outputTokens cost estimated ∉ deltasOf value :=
  fun member => deltasOf_isDelta value _ member

/-- The counters a usage event shows. -/
def Shows (counters : Counters) (inputTokens outputTokens : Rat) (estimated : Bool) : Prop :=
  inputTokens = counters.inputTokens ∧ outputTokens = counters.outputTokens ∧ estimated = counters.estimated

theorem shows_of_closing {counters : Counters} {reason : Json} {estimated : Bool}
    (yielded : Event.usage inputTokens outputTokens cost estimated ∈ closing config counters reason) :
    Shows counters inputTokens outputTokens estimated := by
  simp only [closing, List.mem_cons, Event.usage.injEq, reduceCtorEq, List.not_mem_nil, or_false] at yielded
  exact ⟨yielded.1, yielded.2.1, yielded.2.2.2⟩

theorem Runs.shows {budget : Budget} {startedAt lastEventAt : Int} {counters : Counters}
    {turns : List Turn} {result : Result}
    (runs : Runs config budget startedAt counters lastEventAt turns result) (delivers : Delivers chunks turns)
    {estimated : Bool} (yielded : Event.usage inputTokens outputTokens cost estimated ∈ result.events) :
    Shows ((upToFinish chunks).foldl Counters.take counters) inputTokens outputTokens estimated := by
  induction runs generalizing chunks with
  | waiting => simp at yielded
  | broken breaks =>
    obtain rfl := List.mem_singleton.mp yielded
    exact absurd breaks id
  | ended race =>
    obtain rfl := delivers.of_ended (outcome_of_raced race)
    exact shows_of_closing yielded
  | thrown => simp at yielded
  | @exceeded _ _ _ _ _ value _ _ _ breaks =>
    rcases List.mem_append.mp yielded with first | last
    · exact absurd first (usage_not_mem_deltasOf value _ _ _ _)
    · obtain rfl := List.mem_singleton.mp last
      exact absurd breaks id
  | @finished _ _ _ _ _ value _ race _ _ finish =>
    obtain ⟨later, rfl, -⟩ := delivers.of_chunk (outcome_of_raced race)
    rw [upToFinish, finish, Option.isSome_some, if_pos rfl]
    rcases List.mem_append.mp yielded with first | last
    · exact absurd first (usage_not_mem_deltasOf value _ _ _ _)
    · exact shows_of_closing last
  | @goesOn _ _ _ _ _ value _ race _ _ unfinished _ ih =>
    obtain ⟨later, rfl, delivered⟩ := delivers.of_chunk (outcome_of_raced race)
    rw [upToFinish, unfinished, Option.isSome_none, if_neg Bool.false_ne_true]
    rcases List.mem_append.mp yielded with first | last
    · exact absurd first (usage_not_mem_deltasOf value _ _ _ _)
    · exact ih delivered last

theorem streamCall_shows {platform : Platform} {request : LLMRequest}
    {outside : Surroundings} (delivers : Delivers chunks outside.turns) {estimated : Bool}
    (yielded : Event.usage inputTokens outputTokens cost estimated ∈
      (streamCall platform config request outside).events) :
    Shows ((upToFinish chunks).foldl Counters.take (.start request)) inputTokens outputTokens estimated := by
  rw [streamCall] at yielded
  split at yielded
  · simp at yielded
  · split at yielded
    · simp at yielded
    · have runs := loop_runs config request.budget outside.startedAt platform (.start request)
        outside.lastEventAt outside.turns
      exact runs.shows delivers (by simpa [Result.after] using yielded)

/-- The event has every count the usage object carries, and is not marked as an estimate. -/
def Reports (usage : Json) (inputTokens outputTokens : Rat) (estimated : Bool) : Prop :=
  (∀ tokens, promptTokens usage = some tokens → inputTokens = tokens) ∧
    (∀ tokens, completionTokens usage = some tokens → outputTokens = tokens) ∧ estimated = false

/-- The counts of the last usage object are those that the chunks up to the finish reason give: the
last prompt count in them, and their last completion count with the texts after it. -/
def Honoured (request : LLMRequest) (chunks : List Json) (usage : Json) : Prop :=
  (∀ tokens, promptTokens usage = some tokens →
    (lastPrompt (upToFinish chunks)).getD (Counters.start request).inputTokens = tokens) ∧
  ∃ completion later, lastCompletion (upToFinish chunks) = some (completion, later) ∧
    ∀ tokens, completionTokens usage = some tokens → completion + textTokens later = tokens

theorem usage_reported_iff (platform : Platform) (config : CodexSseConfig) (request : LLMRequest)
    (outside : Surroundings) {chunks : List Json} (delivers : Delivers chunks outside.turns)
    {inputTokens outputTokens cost : Rat} {estimated : Bool}
    (yielded : Event.usage inputTokens outputTokens cost estimated ∈
      (streamCall platform config request outside).events) :
    ∀ usage, (usageObjects chunks).getLast? = some usage →
      (Reports usage inputTokens outputTokens estimated ↔ Honoured request chunks usage) := by
  intro usage _
  obtain ⟨rfl, rfl, rfl⟩ := streamCall_shows delivers yielded
  rw [Reports, Honoured, foldl_inputTokens, foldl_outputTokens, foldl_estimated]
  refine and_congr_right fun _ => ?_
  cases lastCompletion (upToFinish chunks) with
  | none => simp [Counters.start]
  | some found =>
    obtain ⟨completion, later⟩ := found
    simp only [Option.elim_some, Option.isNone_some, Bool.and_false, and_true, Option.some.injEq, Prod.mk.injEq]
    constructor
    · exact fun counted => ⟨completion, later, ⟨rfl, rfl⟩, counted⟩
    · rintro ⟨_, _, ⟨rfl, rfl⟩, counted⟩
      exact counted

/-! ## Streams with usage -/

def finishChunk : Json := .obj [("choices", .arr [.obj [("finish_reason", .str "stop")]])]

def usageObject : Json := .obj [("prompt_tokens", .num 3), ("completion_tokens", .num 5)]

def usageChunk : Json := .obj [("choices", .arr []), ("usage", usageObject)]

/-- A chunk that carries the finish reason and the usage. -/
def finishWithUsage : Json :=
  .obj [("choices", .arr [.obj [("finish_reason", .str "stop")]]), ("usage", usageObject)]

theorem usage_reported_iff_finishWithUsage :
    Reports usageObject 3 5 false ∧ Honoured plainRequest [finishWithUsage] usageObject := by
  have yielded : Event.usage 3 5 0 false ∈
      (streamCall plainPlatform defaultConfig plainRequest (promptly [.chunk finishWithUsage 0])).events := by
    decide +kernel
  have reports : Reports usageObject 3 5 false :=
    ⟨fun _ given => Option.some.inj given, fun _ given => Option.some.inj given, rfl⟩
  exact ⟨reports, (usage_reported_iff plainPlatform defaultConfig plainRequest _
    (.chunk rfl (.waiting [])) yielded usageObject rfl).mp reports⟩

/-- `JSON.parse` on the data of the two frames below. -/
def parseFrames (text : String) : Option Json :=
  if text = "\x7b\"choices\":[\x7b\"finish_reason\":\"stop\"\x7d]\x7d" then some finishChunk
  else if text =
    "\x7b\"choices\":[],\"usage\":\x7b\"prompt_tokens\":3,\"completion_tokens\":5\x7d\x7d" then
    some usageChunk
  else none

def trailingUsage : List String :=
  ["data: \x7b\"choices\":[\x7b\"finish_reason\":\"stop\"\x7d]\x7d\n\nda",
    "ta: \x7b\"choices\":[],\"usage\":\x7b\"prompt_tokens\":3,\"completion_tokens\":5\x7d\x7d\n",
    "\ndata: [DONE]\n\n"]

/-- The transport gives a usage chunk after the chunk with the finish reason.  The adapter has
returned by then, and its usage event is the estimate. -/
theorem trailing_usage_unread :
    CodexSseTransport.openStream parseFrames trailingUsage = [finishChunk, usageChunk] ∧
    Delivers [finishChunk, usageChunk] (promptly [.chunk finishChunk 0]).turns ∧
    (usageObjects [finishChunk, usageChunk]).getLast? = some usageObject ∧
    Event.usage 1 0 0 true ∈
      (streamCall plainPlatform defaultConfig plainRequest (promptly [.chunk finishChunk 0])).events ∧
    ¬Reports usageObject 1 0 true := by
  refine ⟨by decide +kernel, .chunk rfl (.waiting _), rfl, by decide +kernel, ?_⟩
  rintro ⟨-, -, estimate⟩
  cases estimate

end RpaEnterprise.Gateway.CodexSse
