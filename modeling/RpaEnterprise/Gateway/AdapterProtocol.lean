import RpaEnterprise.Gateway.CodexSse

/-!
# The event protocol of the SSE adapter

`Runs` relates the turns of the loop to what the loop yields, with one constructor
for each way a turn can go.  The protocol and the budget are inductions on it.
-/

namespace RpaEnterprise.Gateway.CodexSse

open Lib

/-! ## The protocol -/

def Event.IsDelta : Event → Prop
  | .textDelta _ => True
  | _ => False

/-- The events that end a stream without a result. -/
def Event.Breaks : Event → Prop
  | .error _ _ _ | .aborted => True
  | _ => False

/-- What a stream may end with. -/
inductive Terminal : List Event → Prop where
  | finished (inputTokens outputTokens cost : Rat) (estimated : Bool) (reason : Json) :
      Terminal [.usage inputTokens outputTokens cost estimated, .done reason]
  | broken {event : Event} (breaks : event.Breaks) : Terminal [event]

/-- An opening, deltas, and one end with nothing after it. -/
def Protocol (events : List Event) : Prop :=
  ∃ deltas last, events = .opened :: (deltas ++ last) ∧ (∀ event ∈ deltas, event.IsDelta) ∧ Terminal last

/-! ## What the loop reads -/

section Reading

variable (config : CodexSseConfig) (startedAt : Int)

/-- What the race of a turn gives, where both checks before it let the turn through. -/
def raced (lastEventAt : Int) (turn : Turn) : Option Outcome :=
  if config.wallTimeoutMs ≤ turn.wallReading - startedAt then none
  else if config.idleTimeoutMs ≤ turn.idleReading - lastEventAt then none
  else some turn.outcome

/-- The chunks that arrive in time, up to the first turn without one. -/
def received (lastEventAt : Int) : List Turn → List Json
  | [] => []
  | turn :: rest =>
    match raced config startedAt lastEventAt turn with
    | some (.chunk value after) => value :: received after rest
    | _ => []

end Reading

def deltasOf (value : Json) : List Event := ((chunkText value).map Event.textDelta).toList

theorem deltasOf_isDelta (value : Json) : ∀ event ∈ deltasOf value, event.IsDelta := by
  intro event member
  rw [deltasOf] at member
  cases text : chunkText value with
  | none => simp [text] at member
  | some text' =>
    obtain rfl : event = .textDelta text' := by simpa [text] using member
    trivial

/-! ## The ways a turn can go -/

section Loop

variable (config : CodexSseConfig) (budget : Budget) (startedAt : Int)

inductive Runs : Counters → Int → List Turn → Result → Prop where
  | waiting (counters : Counters) (lastEventAt : Int) : Runs counters lastEventAt [] ⟨[], .running, []⟩
  | broken {counters : Counters} {lastEventAt : Int} {turn : Turn} {rest : List Turn} {event : Event}
      (breaks : event.Breaks)
      (silent : ∀ value after, raced config startedAt lastEventAt turn ≠ some (.chunk value after)) :
      Runs counters lastEventAt (turn :: rest) ⟨[event], .returned, rest⟩
  | ended {counters : Counters} {lastEventAt : Int} {turn : Turn} {rest : List Turn}
      (race : raced config startedAt lastEventAt turn = some .ended) :
      Runs counters lastEventAt (turn :: rest) ⟨closing config counters (.str "stop"), .returned, rest⟩
  | thrown {counters : Counters} {lastEventAt after : Int} {turn : Turn} {rest : List Turn} (message : String)
      (race : raced config startedAt lastEventAt turn = some (.chunk .null after)) :
      Runs counters lastEventAt (turn :: rest) ⟨[], .thrown message, rest⟩
  | exceeded {counters : Counters} {lastEventAt after : Int} {turn : Turn} {rest : List Turn} {value : Json}
      {event : Event} (race : raced config startedAt lastEventAt turn = some (.chunk value after))
      (present : value ≠ .null) (breaks : event.Breaks) :
      Runs counters lastEventAt (turn :: rest) ⟨deltasOf value ++ [event], .returned, rest⟩
  | finished {counters : Counters} {lastEventAt after : Int} {turn : Turn} {rest : List Turn}
      {value reason : Json} (race : raced config startedAt lastEventAt turn = some (.chunk value after))
      (present : value ≠ .null) (within : (counters.take value).overBudget config budget = false)
      (finish : finishReason value = some reason) :
      Runs counters lastEventAt (turn :: rest)
        ⟨deltasOf value ++ closing config (counters.take value) (mapFinish reason), .returned, rest⟩
  | goesOn {counters : Counters} {lastEventAt after : Int} {turn : Turn} {rest : List Turn} {value : Json}
      {result : Result} (race : raced config startedAt lastEventAt turn = some (.chunk value after))
      (present : value ≠ .null) (within : (counters.take value).overBudget config budget = false)
      (unfinished : finishReason value = none) (later : Runs (counters.take value) after rest result) :
      Runs counters lastEventAt (turn :: rest) (result.after (deltasOf value))

variable (platform : Platform)

theorem loop_runs (counters : Counters) (lastEventAt : Int) (turns : List Turn) :
    Runs config budget startedAt counters lastEventAt turns
      (loop platform config budget startedAt counters lastEventAt turns) := by
  induction turns generalizing counters lastEventAt with
  | nil => exact .waiting counters lastEventAt
  | cons turn rest ih =>
    rw [loop]
    split
    next late => exact .broken trivial fun value after race => by simp [raced, late] at race
    next inWall =>
      split
      next idle => exact .broken trivial fun value after race => by simp [raced, inWall, idle] at race
      next inIdle =>
        have race : raced config startedAt lastEventAt turn = some turn.outcome := by
          simp [raced, inWall, inIdle]
        split
        next message outcome => exact .broken trivial fun value after => by simp [race, outcome]
        next outcome => exact .broken trivial fun value after => by simp [race, outcome]
        next after outcome =>
          refine .broken ?_ fun value after => by simp [race, outcome]
          split <;> trivial
        next outcome => exact .ended (by rw [race, outcome])
        next after outcome => exact .thrown _ (by rw [race, outcome])
        next value after present outcome =>
          have race : raced config startedAt lastEventAt turn = some (.chunk value after) := by
            rw [race, outcome]
          have present : value ≠ .null := fun null => present null
          -- The budget is looked at before the finish reason.
          cases exceeded : (counters.take value).overBudget config budget with
          | true =>
            simp only [takeChunk, exceeded, if_true]
            exact .exceeded race present trivial
          | false =>
            cases finish : finishReason value with
            | some reason =>
              simp only [takeChunk, exceeded, finish, Option.map_some, Bool.false_eq_true, if_false]
              exact .finished race present exceeded finish
            | none =>
              simp only [takeChunk, exceeded, finish, Option.map_none, Bool.false_eq_true, if_false]
              exact .goesOn race present exceeded finish (ih _ _)

end Loop

/-! ## What a run yields -/

/-- What stands after the deltas, by how the run ended. -/
def Ending.Leaves : Ending → List Event → Prop
  | .returned, last => Terminal last
  | .thrown _, last | .running, last => last = []

/-- The tokens counted after every beginning of the chunks are allowed. -/
def WithinOutput (budget : Budget) (counters : Counters) (chunks : List Json) : Prop :=
  ∀ read, read <+: chunks → (read.foldl Counters.take counters).outputTokens ≤ budget.maxOutputTokens

theorem Counters.outputTokens_le {counters : Counters} {config : CodexSseConfig} {budget : Budget}
    (within : counters.overBudget config budget = false) : counters.outputTokens ≤ budget.maxOutputTokens := by
  simp only [overBudget, Bool.or_eq_false_iff, decide_eq_false_iff_not, Rat.not_lt] at within
  exact within.1

theorem WithinOutput.nil {budget : Budget} {counters : Counters}
    (start : counters.outputTokens ≤ budget.maxOutputTokens) : WithinOutput budget counters [] := by
  intro read early
  obtain rfl := List.prefix_nil.mp early
  exact start

theorem WithinOutput.cons {budget : Budget} {counters : Counters} {value : Json} {chunks : List Json}
    (start : counters.outputTokens ≤ budget.maxOutputTokens)
    (later : WithinOutput budget (counters.take value) chunks) :
    WithinOutput budget counters (value :: chunks) := by
  intro read early
  cases read with
  | nil => exact start
  | cons first read =>
    obtain ⟨rfl, rest⟩ := List.cons_prefix_cons.mp early
    exact later read rest

theorem not_done_of_breaks {event : Event} (breaks : event.Breaks) (reason : Json) : Event.done reason ≠ event := by
  rintro rfl
  exact breaks

theorem done_not_mem_deltasOf (value reason : Json) : Event.done reason ∉ deltasOf value :=
  fun member => deltasOf_isDelta value _ member

section Runs

variable {config : CodexSseConfig} {budget : Budget} {startedAt lastEventAt : Int} {counters : Counters}
  {turns : List Turn} {result : Result}

theorem Runs.shape (runs : Runs config budget startedAt counters lastEventAt turns result) :
    ∃ deltas last, result.events = deltas ++ last ∧ (∀ event ∈ deltas, event.IsDelta) ∧
      result.ending.Leaves last := by
  induction runs with
  | waiting => exact ⟨[], [], rfl, by simp, rfl⟩
  | broken breaks => exact ⟨[], _, rfl, by simp, .broken breaks⟩
  | ended => exact ⟨[], _, rfl, by simp, .finished ..⟩
  | thrown => exact ⟨[], [], rfl, by simp, rfl⟩
  | @exceeded _ _ _ _ _ value _ _ _ breaks => exact ⟨_, _, rfl, deltasOf_isDelta value, .broken breaks⟩
  | @finished _ _ _ _ _ value => exact ⟨_, _, rfl, deltasOf_isDelta value, .finished ..⟩
  | @goesOn _ _ _ _ _ value result _ _ _ _ _ ih =>
    obtain ⟨deltas, last, events, isDelta, leaves⟩ := ih
    refine ⟨deltasOf value ++ deltas, last, by simp [Result.after, events], ?_, leaves⟩
    intro event member
    rcases List.mem_append.mp member with first | later
    · exact deltasOf_isDelta value event first
    · exact isDelta event later

/-- A run whose turns are all used throws exactly on a chunk that is `null`. -/
theorem Runs.throws_iff (runs : Runs config budget startedAt counters lastEventAt turns result)
    (used : result.unused = []) :
    (∃ message, result.ending = .thrown message) ↔ Json.null ∈ received config startedAt lastEventAt turns := by
  induction runs with
  | waiting => simp [received]
  | @broken _ lastEventAt turn rest _ _ silent =>
    have nothing : received config startedAt lastEventAt (turn :: rest) = [] := by
      rw [received]
      split
      next value after race => exact absurd race (silent value after)
      next => rfl
    simp [nothing]
  | ended race => simp [received, race]
  | thrown message race => simp [received, race]
  | exceeded race present =>
    obtain rfl := used
    simp [received, race, present.symm]
  | finished race present =>
    obtain rfl := used
    simp [received, race, present.symm]
  | goesOn race present within unfinished later ih =>
    rw [received, race]
    simpa [Result.after, present.symm] using ih used

theorem Runs.withinOutput (runs : Runs config budget startedAt counters lastEventAt turns result)
    (used : result.unused = []) (start : counters.outputTokens ≤ budget.maxOutputTokens) {reason : Json}
    (done : Event.done reason ∈ result.events) :
    WithinOutput budget counters (received config startedAt lastEventAt turns) := by
  induction runs with
  | waiting => simp at done
  | broken breaks => exact absurd (List.mem_singleton.mp done) (not_done_of_breaks breaks reason)
  | ended race =>
    rw [received, race]
    exact .nil start
  | thrown => simp at done
  | @exceeded _ _ _ _ _ value _ _ _ breaks =>
    rcases List.mem_append.mp done with first | last
    · exact absurd first (done_not_mem_deltasOf value reason)
    · exact absurd (List.mem_singleton.mp last) (not_done_of_breaks breaks reason)
  | finished race _ within =>
    obtain rfl := used
    rw [received, race]
    exact .cons start (.nil (Counters.outputTokens_le within))
  | @goesOn _ _ _ _ _ value _ race _ within _ _ ih =>
    rw [received, race]
    rcases List.mem_append.mp done with first | later
    · exact absurd first (done_not_mem_deltasOf value reason)
    · exact .cons start (ih used (Counters.outputTokens_le within) later)

end Runs

theorem Terminal.exists_end {last : List Event} (terminal : Terminal last) : ∃ event ∈ last, ¬event.IsDelta := by
  cases terminal with
  | finished inputTokens outputTokens cost estimated reason =>
    exact ⟨.done reason, by simp, id⟩
  | @broken event breaks =>
    refine ⟨event, List.mem_singleton_self event, ?_⟩
    cases event with
    | error | aborted => exact id
    | opened | textDelta | usage | done => exact absurd breaks id

/-- An opening and deltas alone are no complete stream. -/
theorem not_protocol_of_deltas {deltas : List Event} (isDelta : ∀ event ∈ deltas, event.IsDelta) :
    ¬Protocol (.opened :: deltas) := by
  rintro ⟨early, last, events, -, terminal⟩
  obtain ⟨event, member, notDelta⟩ := terminal.exists_end
  obtain rfl := (List.cons.inj events).2
  exact notDelta (isDelta event (List.mem_append_right early member))

/-! ## The whole call -/

section Call

variable (platform : Platform) (config : CodexSseConfig) (request : LLMRequest) (outside : Surroundings)

/-- The chunks a call reads. -/
def receivedBy : List Json := received config outside.startedAt outside.lastEventAt outside.turns

theorem start_allowed : (Counters.start request).outputTokens ≤ request.budget.maxOutputTokens :=
  Rat.natCast_nonneg

theorem streamCall_of_opened (unaborted : outside.aborted = false) (opens : outside.refuses = none) :
    streamCall platform config request outside =
      (loop platform config request.budget outside.startedAt (.start request) outside.lastEventAt
        outside.turns).after [.opened] := by
  simp [streamCall, unaborted, opens]

/-- A call that goes on has yielded its opening and deltas.  A call that is over keeps to
the protocol, with no `done` over the budget, exactly when the signal was not aborted
before it, the transport opened and no chunk read was `null`. -/
theorem streamCall_protocol_iff :
    ((streamCall platform config request outside).ending = .running →
      ∃ deltas, (streamCall platform config request outside).events = .opened :: deltas ∧
        ∀ event ∈ deltas, event.IsDelta) ∧
    ((streamCall platform config request outside).ending ≠ .running →
      (streamCall platform config request outside).unused = [] →
      ((Protocol (streamCall platform config request outside).events ∧
          ∀ reason, Event.done reason ∈ (streamCall platform config request outside).events →
            WithinOutput request.budget (.start request) (receivedBy config outside)) ↔
        outside.aborted = false ∧ outside.refuses = none ∧ Json.null ∉ receivedBy config outside)) := by
  cases aborted : outside.aborted with
  | true =>
    have call : streamCall platform config request outside = ⟨[.aborted], .returned, outside.turns⟩ := by
      simp [streamCall, aborted]
    rw [call]
    refine ⟨nofun, fun _ _ => ⟨?_, fun condition => absurd condition.1 (by simp)⟩⟩
    rintro ⟨⟨deltas, last, events, -⟩, -⟩
    cases events
  | false =>
    cases refuses : outside.refuses with
    | some message =>
      have call : streamCall platform config request outside = ⟨[.opened], .thrown message, outside.turns⟩ := by
        simp [streamCall, aborted, refuses]
      rw [call]
      refine ⟨nofun, fun _ _ => ⟨fun kept => ?_, fun condition => absurd condition.2.1 (by simp)⟩⟩
      exact absurd kept.1 (not_protocol_of_deltas (by simp))
    | none =>
      rw [streamCall_of_opened platform config request outside aborted refuses]
      have runs := loop_runs config request.budget outside.startedAt platform (.start request)
        outside.lastEventAt outside.turns
      generalize loop platform config request.budget outside.startedAt (.start request) outside.lastEventAt
        outside.turns = result at runs
      obtain ⟨deltas, last, events, isDelta, leaves⟩ := runs.shape
      have yielded : (result.after [.opened]).events = .opened :: (deltas ++ last) := by
        simp [Result.after, events]
      constructor
      · intro running
        have nothing : last = [] := by
          rw [show result.ending = .running from running] at leaves
          exact leaves
        exact ⟨deltas, by simp [yielded, nothing], isDelta⟩
      · intro isOver used
        have throws := runs.throws_iff used
        constructor
        · rintro ⟨protocol, -⟩
          refine ⟨rfl, rfl, fun null => ?_⟩
          -- The chunk makes the run throw, and then nothing follows the deltas.
          obtain ⟨message, ending⟩ := throws.mpr null
          rw [ending] at leaves
          obtain rfl : last = [] := leaves
          rw [yielded, List.append_nil] at protocol
          exact not_protocol_of_deltas isDelta protocol
        · rintro ⟨-, -, noNull⟩
          refine ⟨⟨deltas, last, yielded, isDelta, ?_⟩, fun reason done => ?_⟩
          · cases ending : result.ending with
            | returned =>
              rw [ending] at leaves
              exact leaves
            | thrown message => exact absurd (throws.mp ⟨message, ending⟩) noNull
            | running => exact absurd ending isOver
          · have yielded : Event.done reason ∈ result.events := by simpa [Result.after] using done
            exact runs.withinOutput used (start_allowed request) yielded

end Call

/-! ## Streams that leave the protocol -/

def defaultConfig : CodexSseConfig where
  idleTimeoutMs := 20000
  wallTimeoutMs := 120000
  pricePer1kInputUsd := 0
  pricePer1kOutputUsd := 0

def plainRequest : LLMRequest where
  model := "codex"
  promptTemplateVersion := "v1"
  messages := [⟨.user, .text "page"⟩]
  promptInspection := none
  responseFormat := none
  metadata := ⟨"tenant-1", "run-1", "step-1", 0, .extract, "corr-1"⟩
  budget := ⟨1000, 1000, 1⟩
  idempotencyKey := "run-1:step-1:0"
  requestHash := "hash-1"

def plainPlatform : Platform := ⟨fun _ => false, fun _ => false⟩

/-- Turns at the clock's zero, one for each outcome. -/
def promptly (outcomes : List Outcome) : Surroundings where
  aborted := false
  startedAt := 0
  lastEventAt := 0
  refuses := none
  turns := outcomes.map fun outcome => ⟨0, 0, outcome⟩

/-- A frame `data: null` makes the generator throw after the opening, and a signal that was
aborted before the call gives `aborted` without an opening. -/
theorem null_chunk_unterminated :
    ((streamCall plainPlatform defaultConfig plainRequest (promptly [.chunk .null 0])).unused = [] ∧
      (streamCall plainPlatform defaultConfig plainRequest (promptly [.chunk .null 0])).ending ≠ .running ∧
      ¬Protocol (streamCall plainPlatform defaultConfig plainRequest (promptly [.chunk .null 0])).events) ∧
    ¬Protocol (streamCall plainPlatform defaultConfig plainRequest
      { promptly [] with aborted := true }).events := by
  have thrown : (streamCall plainPlatform defaultConfig plainRequest (promptly [.chunk .null 0])).events =
      [.opened] := rfl
  refine ⟨⟨rfl, nofun, ?_⟩, ?_⟩
  · rw [thrown]
    exact not_protocol_of_deltas (by simp)
  · rintro ⟨deltas, last, events, -⟩
    cases events

end RpaEnterprise.Gateway.CodexSse
