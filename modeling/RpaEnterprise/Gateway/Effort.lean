import RpaEnterprise.Gateway.LlmGateway

/-!
# The effort of a gateway call

What one call says to its surroundings: how many adapter streams it asks for, that
none follows a stream that ended for good, that every user message on its way to an
adapter was given out by the redaction boundary before, and that the row of a
reservation is finished once.
-/

namespace RpaEnterprise.Gateway.Effort

open Lib
open Dialogue (Concludes)

abbrev Said := List (Dialogue.Exchange Ask.Reply)

/-- The request that goes to an adapter. -/
def streamed (exchange : Dialogue.Exchange Ask.Reply) : Option LLMRequest :=
  match exchange.question with
  | .outside (.streamCall _ request) | .outside (.sendSync _ request) => some request
  | _ => none

/-- The stream ended with an error that is not retryable, or was aborted. -/
def endsForGood : Dialogue.Exchange Ask.Reply → Bool
  | ⟨.outside (.streamCall _ _), stream⟩ =>
    match consumeEvents stream.thrown "" none stream.events with
    | .ok (.error _ false) | .ok .aborted => true
    | _ => false
  | _ => false

/-- The content that the redaction boundary gives out. -/
def givenOut : Dialogue.Exchange Ask.Reply → Option Content
  | ⟨.outside (.redactForGateway _ _ _), .ok (.redacted content)⟩ => some content
  | _ => none

def reservation : Dialogue.Exchange Ask.Reply → Option CallId
  | ⟨.reserve _, .ok (.reserved callId _)⟩ => some callId
  | _ => none

/-- The row that the exchange finishes; a write that throws is rolled back. -/
def finish : Dialogue.Exchange Ask.Reply → Option CallId
  | ⟨.complete callId _, .ok ()⟩ | ⟨.fail callId _, .ok ()⟩ => some callId
  | _ => none

/-- The store could not record a failure. -/
def unrecorded : Dialogue.Exchange Ask.Reply → Bool
  | ⟨.fail _ _, .error _⟩ => true
  | _ => false

def streams (said : Said) : Nat := said.countP fun exchange => (streamed exchange).isSome

def GivenOut (said : Said) (content : Content) : Prop := ∃ exchange ∈ said, givenOut exchange = some content

/-- Every user message of the request was given out by the redaction boundary. -/
def Redacted (request : LLMRequest) (said : Said) : Prop :=
  ∀ message ∈ request.messages, message.role = .user → GivenOut said message.content

/-- No stream follows one that ended for good, and every stream carries user messages
that were redacted before. -/
structure Orderly (said : Said) : Prop where
  stops : said.Pairwise fun one two => endsForGood one = true → streamed two = none
  redacted : ∀ before exchange after, said = before ++ exchange :: after →
    ∀ request, streamed exchange = some request → Redacted request before

/-- No stream has ended for good. -/
def Open (said : Said) : Prop := ∀ exchange ∈ said, endsForGood exchange = false

variable {said : Said}

theorem Orderly.concat {exchange : Dialogue.Exchange Ask.Reply} (orderly : Orderly said)
    (admits : ∀ request, streamed exchange = some request → Open said ∧ Redacted request said) :
    Orderly (said ++ [exchange]) := by
  constructor
  · refine List.pairwise_append.mpr ⟨orderly.stops, List.pairwise_singleton _ _, ?_⟩
    intro one member two among ends
    obtain rfl := List.mem_singleton.mp among
    cases stream : streamed two with
    | none => rfl
    | some request =>
      rw [(admits request stream).1 one member] at ends
      cases ends
  · intro before other after split request stream
    rcases List.eq_nil_or_concat after with rfl | ⟨rest, last, rfl⟩
    · obtain ⟨rfl, equal⟩ := List.append_inj' split rfl
      cases equal
      exact (admits request stream).2
    · have shorter : said = before ++ other :: rest := by
        rw [List.concat_eq_append, ← List.cons_append, ← List.append_assoc] at split
        exact (List.append_inj' split rfl).1
      exact orderly.redacted before other rest shorter request stream

/-! ## What a part of the call adds -/

/-- What is said goes on, with so many streams more. -/
structure Extends (budget : Nat) (old new : Said) : Prop where
  orderly : Orderly new
  streams : streams new ≤ streams old + budget
  given : ∀ content, GivenOut old content → GivenOut new content
  reserved : new.filterMap reservation = old.filterMap reservation
  finished : new.filterMap finish = old.filterMap finish
  recorded : ∀ exchange ∈ new, unrecorded exchange = true → exchange ∈ old

theorem Extends.refl (orderly : Orderly said) : Extends 0 said said :=
  ⟨orderly, le_rfl, fun _ => id, rfl, rfl, fun _ member _ => member⟩

theorem Extends.trans {first second : Nat} {old middle new : Said} (one : Extends first old middle)
    (two : Extends second middle new) : Extends (first + second) old new where
  orderly := two.orderly
  streams := by
    have before := one.streams
    have after := two.streams
    omega
  given content given := two.given content (one.given content given)
  reserved := two.reserved.trans one.reserved
  finished := two.finished.trans one.finished
  recorded exchange member failed := one.recorded exchange (two.recorded exchange member failed) failed

theorem Extends.mono {budget more : Nat} {old new : Said} (le : budget ≤ more) (extends_ : Extends budget old new) :
    Extends more old new :=
  { extends_ with streams := extends_.streams.trans (Nat.add_le_add_left le _) }

theorem Extends.redacted {budget : Nat} {old new : Said} {request : LLMRequest}
    (extends_ : Extends budget old new) (redacted : Redacted request old) : Redacted request new :=
  fun message member user => extends_.given _ (redacted message member user)

/-- A question to a component other than the store. -/
def overheard (exchange : Dialogue.Exchange Outside.Reply) (said : Said) : Said :=
  said ++ [⟨.outside exchange.question, exchange.reply⟩]

/-- From what was said with `pre` the part asks for at most so many streams, and where
it ends with a value what was said by then meets `post`. -/
def Spends {Value : Type} (pre : Said → Prop) (budget : Nat) (post : Said → Value → Prop)
    (dialogue : Exchange Value) : Prop :=
  ∀ said, Orderly said → pre said → dialogue.Concludes overheard
    (fun new ending => Extends budget said new ∧ ∀ value, ending = .ok value → post new value) said

variable {Value Result : Type} {pre : Said → Prop} {budget : Nat} {post : Said → Value → Prop}

theorem Spends.pure {value : Value} (holds : ∀ said, pre said → post said value) :
    Spends pre 0 post (Pure.pure value : Exchange Value) := by
  intro said orderly met
  refine ⟨.refl orderly, fun _ equal => ?_⟩
  cases equal
  exact holds said met

theorem Spends.fail (thrown : Thrown) : Spends pre 0 post (.fail thrown : Exchange Value) :=
  fun _ orderly _ => ⟨.refl orderly, fun _ equal => nomatch equal⟩

theorem Spends.bind {dialogue : Exchange Value} {rest : Value → Exchange Result} {more : Nat}
    {after : Said → Result → Prop} (first : Spends pre budget post dialogue)
    (second : ∀ value, Spends (post · value) more after (rest value)) :
    Spends pre (budget + more) after (dialogue >>= rest) := by
  intro said orderly met
  refine Concludes.bind ((first said orderly met).mono fun new ending ⟨extended, holds⟩ => ?_)
  cases ending with
  | error thrown => exact ⟨extended.mono (Nat.le_add_right _ _), fun _ equal => nomatch equal⟩
  | ok value =>
    refine (second value new extended.orderly (holds value rfl)).mono fun last ending ⟨later, holds⟩ => ?_
    exact ⟨extended.trans later, holds⟩

theorem Spends.mono {dialogue : Exchange Value} {more : Nat} {weaker : Said → Value → Prop}
    (spends : Spends pre budget post dialogue) (le : budget ≤ more)
    (implies : ∀ said value, post said value → weaker said value) : Spends pre more weaker dialogue :=
  fun said orderly met => (spends said orderly met).mono fun _ _ ⟨extended, holds⟩ =>
    ⟨extended.mono le, fun value equal => implies _ _ (holds value equal)⟩

theorem Spends.weaken {dialogue : Exchange Value} {stronger : Said → Prop}
    (spends : Spends pre budget post dialogue) (implies : ∀ said, stronger said → pre said) :
    Spends stronger budget post dialogue :=
  fun said orderly met => spends said orderly (implies said met)

/-! ## Questions to the surroundings -/

def asksForStream : Outside → Bool
  | .streamCall _ _ | .sendSync _ _ => true
  | _ => false

theorem streamed_none {question : Outside} (quiet : asksForStream question = false) (reply : question.Reply) :
    streamed ⟨.outside question, reply⟩ = none ∧ endsForGood ⟨.outside question, reply⟩ = false := by
  cases question <;> first | exact ⟨rfl, rfl⟩ | cases quiet

theorem Extends.concat {question : Outside} {reply : question.Reply}
    (orderly : Orderly (said ++ [⟨.outside question, reply⟩])) :
    Extends (if asksForStream question then 1 else 0) said (said ++ [⟨.outside question, reply⟩]) where
  orderly := orderly
  streams := by
    unfold Effort.streams
    rw [List.countP_append]
    cases question <;> simp [streamed, asksForStream]
  given content := by
    rintro ⟨exchange, member, given⟩
    exact ⟨exchange, List.mem_append_left _ member, given⟩
  reserved := by simp [reservation]
  finished := by simp [finish]
  recorded exchange member failed := by
    rcases List.mem_append.mp member with old | new
    · exact old
    · obtain rfl := List.mem_singleton.mp new
      cases failed

theorem Open.concat {exchange : Dialogue.Exchange Ask.Reply} (opened : Open said)
    (goesOn : endsForGood exchange = false) : Open (said ++ [exchange]) := by
  intro other member
  rcases List.mem_append.mp member with old | new
  · exact opened other old
  · rw [List.mem_singleton.mp new]
    exact goesOn

/-- A question that asks for no stream. -/
theorem Spends.perform {question : Outside} (quiet : asksForStream question = false) :
    Spends pre 0 (fun new reply => ∃ old, pre old ∧ new = old ++ [⟨.outside question, reply⟩])
      (.perform question : Exchange question.Reply) := by
  intro said orderly met reply
  have silent := streamed_none quiet reply
  have next : Orderly (said ++ [⟨.outside question, reply⟩]) :=
    orderly.concat fun request stream => nomatch silent.1.symm.trans stream
  have extended := Extends.concat next
  rw [quiet] at extended
  refine ⟨extended, fun value equal => ?_⟩
  cases equal
  exact ⟨said, met, rfl⟩

theorem Spends.awaited {dialogue : Exchange (Except String Value)}
    (spends : Spends pre budget (fun new reply => ∀ value, reply = .ok value → post new value) dialogue) :
    Spends pre budget post (awaited dialogue) := by
  refine Spends.mono (spends.bind fun reply => ?_) (Nat.le_of_eq (Nat.add_zero _)) fun _ _ => id
  cases reply with
  | ok value => exact Spends.pure fun said holds => holds value rfl
  | error message => exact Spends.fail _

/-- A question that leaves open what was open. -/
theorem Spends.quietly {question : Outside} (quiet : asksForStream question = false) :
    Spends Open 0 (fun new _ => Open new) (.perform question : Exchange question.Reply) :=
  (Spends.perform quiet).mono le_rfl fun said reply => by
    rintro ⟨old, opened, rfl⟩
    exact opened.concat (streamed_none quiet reply).2

theorem Spends.audited {append : Exchange (Except String Unit)} {message : String}
    (spends : Spends pre 0 (fun new _ => pre new) append) :
    Spends pre 0 (fun new _ => pre new) (audited append message) := by
  refine Spends.mono (spends.bind fun reply => ?_) (Nat.le_refl (0 + 0)) fun _ _ => id
  cases reply with
  | ok value => exact Spends.pure fun _ => id
  | error text => exact Spends.fail _

/-- What stays when more is said holds after a part if it held before. -/
theorem Spends.frame {dialogue : Exchange Value} {kept : Said → Prop} (spends : Spends pre budget post dialogue)
    (stays : ∀ budget old new, Extends budget old new → kept old → kept new) :
    Spends (fun said => pre said ∧ kept said) budget (fun new value => post new value ∧ kept new) dialogue :=
  fun said orderly met => (spends said orderly met.1).mono fun _ _ ⟨extended, holds⟩ =>
    ⟨extended, fun value equal => ⟨holds value equal, stays _ _ _ extended met.2⟩⟩

/-! ## The parts of a call -/

theorem governed_spends (deps : Deps) (request : LLMRequest) :
    Spends Open 0 (fun new _ => Open new) (governed deps request) := by
  unfold governed
  split
  · have evaluates : Spends Open 0 (fun new _ => Open new) (evaluateGovernance request) :=
      ((Spends.quietly rfl).mono le_rfl fun _ _ opened _ _ => opened).awaited
    refine Spends.mono (evaluates.bind fun decision => ?_) (Nat.le_refl (0 + (0 + 0))) fun _ _ => id
    refine (Spends.quietly rfl).audited.bind fun _ => ?_
    split
    · exact Spends.fail _
    · exact Spends.pure fun _ => id
  · exact Spends.pure fun _ => id

theorem redactForGateway_spends (request : LLMRequest) (raw : Content) (textRuns : Option (List TextRun)) :
    Spends Open 0 (fun new result => Open new ∧ ∀ content, result = .redacted content → GivenOut new content)
      (redactForGateway request raw textRuns) := by
  refine ((Spends.perform rfl).mono le_rfl fun said reply => ?_).awaited
  rintro ⟨old, opened, rfl⟩ result rfl
  refine ⟨opened.concat rfl, fun content equal => ?_⟩
  subst equal
  exact ⟨_, List.mem_append_right _ (List.mem_singleton_self _), rfl⟩

theorem recordPromptInspectDecision_spends (request : LLMRequest) (result : Redaction) (phase : Phase)
    (messageIndex : Nat) :
    Spends Open 0 (fun new _ => Open new) (recordPromptInspectDecision request result phase messageIndex) :=
  (Spends.quietly rfl).audited

/-- What a content becomes at the boundary was given out by it. -/
theorem redaction_spends (request : LLMRequest) (raw : Content) (textRuns : Option (List TextRun))
    (phase : Phase) (messageIndex : Nat) (site : String) :
    Spends Open 0 (fun new content => Open new ∧ GivenOut new content)
      (do
        let result ← redactForGateway request raw textRuns
        recordPromptInspectDecision request result phase messageIndex
        match result with
        | .redacted content => pure content
        | .blocked signals => injectionBlocked site signals) := by
  refine Spends.mono ((redactForGateway_spends request raw textRuns).bind fun result => ?_)
    (Nat.le_refl (0 + (0 + 0))) fun _ _ => id
  have stays : ∀ budget old new, Extends budget old new →
      (∀ content, result = .redacted content → GivenOut old content) →
        ∀ content, result = .redacted content → GivenOut new content :=
    fun _ _ _ extended given content equal => extended.given content (given content equal)
  have recorded := (recordPromptInspectDecision_spends request result phase messageIndex).frame stays
  refine recorded.bind fun _ => ?_
  cases result with
  | redacted content => exact Spends.pure fun said holds => ⟨holds.1, holds.2 content rfl⟩
  | blocked signals => exact Spends.fail _

theorem redactMessages_spends (request : LLMRequest) (messageIndex : Nat) (messages : List Message) :
    Spends Open 0 (fun new redacted => Open new ∧
        ∀ message ∈ redacted, message.role = .user → GivenOut new message.content)
      (redactMessages request messageIndex messages) := by
  induction messages generalizing messageIndex with
  | nil => exact Spends.pure fun _ opened => ⟨opened, fun _ absent => nomatch absent⟩
  | cons message rest ih =>
    have later : ∀ content, Spends (fun said => Open said ∧ (message.role = .user → GivenOut said content)) 0
        (fun new redacted => Open new ∧ ∀ message ∈ redacted, message.role = .user → GivenOut new message.content)
        (do
          let rest ← redactMessages request (messageIndex + 1) rest
          pure (⟨message.role, content⟩ :: rest)) := by
      intro content
      have stays : ∀ budget old new, Extends budget old new →
          (message.role = .user → GivenOut old content) → message.role = .user → GivenOut new content :=
        fun _ _ _ extended given user => extended.given content (given user)
      refine Spends.mono (((ih (messageIndex + 1)).frame stays).bind fun redacted =>
        Spends.pure fun said holds => ⟨holds.1.1, fun other member user => ?_⟩) (Nat.le_refl (0 + 0)) fun _ _ => id
      rcases List.mem_cons.mp member with rfl | among
      · exact holds.2 user
      · exact holds.1.2 other among user
    rw [redactMessages]
    cases role : message.role with
    | user =>
      rw [role] at later
      have first := redaction_spends request message.content request.promptInspection .initial messageIndex "gateway"
      exact Spends.mono (first.bind fun content => (later content).weaken fun _ holds => ⟨holds.1, fun _ => holds.2⟩)
        (Nat.le_refl (0 + 0)) fun _ _ => id
    | system =>
      rw [role] at later
      exact (later message.content).weaken fun _ opened => ⟨opened, fun user => nomatch user⟩

/-- No stream has ended for good and the messages of the request were redacted. -/
def Ready (request : LLMRequest) (said : Said) : Prop := Open said ∧ Redacted request said

theorem redactRequest_spends (request : LLMRequest) :
    Spends Open 0 (fun new redacted => Ready redacted new) (redactRequest request) :=
  Spends.mono ((redactMessages_spends request 0 request.messages).bind fun _ =>
    Spends.pure fun _ holds => ⟨holds.1, holds.2⟩) (Nat.le_refl (0 + 0)) fun _ _ => id

/-! ## Streams -/

/-- The call goes on after such a result. -/
def goesOn : ConsumeResult → Bool
  | .ok _ | .error _ true => true
  | _ => false

/-- A question that asks for a stream of the request. -/
theorem Spends.stream {question : Outside} {request : LLMRequest} (asks : asksForStream question = true)
    (carries : ∀ reply : question.Reply, streamed ⟨.outside question, reply⟩ = some request) :
    Spends (Ready request) 1 (fun new reply => ∃ old, Ready request old ∧ new = old ++ [⟨.outside question, reply⟩])
      (.perform question : Exchange question.Reply) := by
  intro said orderly ready reply
  have next : Orderly (said ++ [⟨.outside question, reply⟩]) := by
    refine orderly.concat fun other stream => ?_
    cases (carries reply).symm.trans stream
    exact ready
  have extended := Extends.concat next
  rw [asks] at extended
  refine ⟨extended, fun value equal => ?_⟩
  cases equal
  exact ⟨said, ready, rfl⟩

theorem Ready.concat {request : LLMRequest} {exchange : Dialogue.Exchange Ask.Reply}
    (ready : Ready request said) (continues : endsForGood exchange = false) : Ready request (said ++ [exchange]) := by
  refine ⟨ready.1.concat continues, fun message member user => ?_⟩
  obtain ⟨earlier, among, given⟩ := ready.2 message member user
  exact ⟨earlier, List.mem_append_left _ among, given⟩

theorem consumeStream_spends (adapter : Adapter) (request : LLMRequest) :
    Spends (Ready request) 1 (fun new result => goesOn result = true → Ready request new)
      (consumeStream adapter request) := by
  have asked : Spends (Ready request) 1
      (fun new reply => ∃ old, Ready request old ∧ new = old ++ [⟨.outside (.streamCall adapter request), reply⟩])
      (streamCall adapter request) := Spends.stream rfl fun _ => rfl
  refine Spends.mono (asked.bind fun stream => ?_) (Nat.le_refl (1 + 0)) fun _ _ => id
  cases consumed : consumeEvents stream.thrown "" none stream.events with
  | error thrown => exact Spends.fail thrown
  | ok result =>
    refine Spends.pure ?_
    rintro said ⟨old, ready, rfl⟩ continues
    refine ready.concat ?_
    simp only [endsForGood, consumed]
    cases result with
    | ok consumed => rfl
    | error code retryable =>
      cases retryable with
      | true => rfl
      | false => cases continues
    | aborted => cases continues

theorem consumeSync_spends (adapter : Adapter) (request : LLMRequest) :
    Spends (Ready request) 1 (fun new result => goesOn result = true → Ready request new)
      (consumeSync adapter request) := by
  have asked : Spends (Ready request) 1
      (fun new reply => ∃ old, Ready request old ∧ new = old ++ [⟨.outside (.sendSync adapter request), reply⟩])
      (sendSync adapter request) := Spends.stream rfl fun _ => rfl
  refine Spends.mono (asked.bind fun reply => ?_) (Nat.le_refl (1 + 0)) fun _ _ => id
  cases reply with
  | ok response | error message =>
    refine Spends.pure ?_
    rintro said ⟨old, ready, rfl⟩ -
    exact ready.concat rfl

theorem consumeOnce_spends (deps : Deps) (adapter : Adapter) (request : LLMRequest) (transport : Transport) :
    Spends (Ready request) 1 (fun new result => goesOn result = true → Ready request new)
      (consumeOnce deps adapter request transport) := by
  cases transport with
  | sse => exact consumeStream_spends adapter request
  | sync =>
    rw [consumeOnce]
    split
    · exact consumeSync_spends adapter request
    · exact (Spends.pure fun _ _ continues => nomatch continues).mono (Nat.zero_le 1) fun _ _ => id

theorem tryAdapter_spends (deps : Deps) (adapter : Adapter) (request : LLMRequest) (transport : Transport)
    (tries : Nat) (last : Option AdapterErrorCode) :
    Spends (Ready request) tries (fun new _ => Ready request new)
      (tryAdapter deps adapter request transport tries last) := by
  induction tries generalizing last with
  | zero => exact Spends.pure fun _ => id
  | succ tries ih =>
    rw [tryAdapter]
    refine Spends.mono ((consumeOnce_spends deps adapter request transport).bind fun result => ?_)
      (Nat.le_of_eq (Nat.add_comm 1 tries)) fun _ _ => id
    cases result with
    | ok consumed => exact (Spends.pure fun _ ready => ready rfl).mono (Nat.zero_le _) fun _ _ => id
    | aborted => exact (Spends.fail _).mono (Nat.zero_le _) fun _ _ => id
    | error code retryable =>
      cases retryable with
      | true => exact (ih (some code)).weaken fun _ ready => ready rfl
      | false => exact (Spends.fail _).mono (Nat.zero_le _) fun _ _ => id

theorem tryChain_spends (deps : Deps) (request : LLMRequest) (transport : Transport)
    (links : List (Adapter × Nat)) (last : Option AdapterErrorCode) :
    Spends (Ready request) (links.map Prod.snd).sum (fun new _ => Ready request new)
      (tryChain deps request transport links last) := by
  induction links generalizing last with
  | nil => exact Spends.fail _
  | cons link rest ih =>
    rw [tryChain, List.map_cons, List.sum_cons]
    refine (tryAdapter_spends deps link.1 request transport link.2 last).bind fun result => ?_
    cases result with
    | ok consumed =>
      have answered : Spends (Ready request) 0 (fun new _ => Ready request new) (pure consumed : Exchange Consumed) :=
        Spends.pure fun _ => id
      exact answered.mono (Nat.zero_le _) fun _ _ => id
    | error last => exact ih last

theorem runWithRetryAndFallback_spends (deps : Deps) (request : LLMRequest) (transport : Transport) :
    Spends (Ready request) (deps.config.retryMax + 1 + deps.config.fallbackAttempts)
      (fun new _ => Ready request new) (runWithRetryAndFallback deps request transport) := by
  refine (tryChain_spends deps request transport _ none).mono ?_ fun _ _ => id
  cases deps.fallback <;> simp

/-! ## Repairs -/

theorem repairContent_spends (request : LLMRequest) (priorText reason : String) :
    Spends (Ready request) 0 (fun new content => Ready request new ∧ GivenOut new content)
      (repairContent request priorText reason) :=
  ((redaction_spends request _ none .repair request.messages.length "gateway repair").frame
    fun _ _ _ extended => extended.redacted).mono le_rfl fun _ _ holds => ⟨⟨holds.1.1, holds.2⟩, holds.1.2⟩

theorem repairOnce_spends (deps : Deps) (request : LLMRequest) (priorText reason : String) (transport : Transport) :
    Spends (Ready request) 1 (fun new _ => Ready request new)
      (repairOnce deps request priorText reason transport) := by
  refine Spends.mono ((repairContent_spends request priorText reason).bind fun content => ?_)
    (Nat.le_refl (0 + (1 + 0))) fun _ _ => id
  have added : ∀ said, Ready request said ∧ GivenOut said content →
      Ready { request with messages := request.messages ++ [⟨.user, content⟩] } said := by
    rintro said ⟨ready, given⟩
    refine ⟨ready.1, fun message member user => ?_⟩
    rcases List.mem_append.mp member with old | new
    · exact ready.2 message old user
    · rw [List.mem_singleton.mp new]
      exact given
  refine ((consumeOnce_spends deps .primary _ transport).weaken added).bind fun result => ?_
  have before : ∀ said, Ready { request with messages := request.messages ++ [⟨.user, content⟩] } said →
      Ready request said :=
    fun said ready => ⟨ready.1, fun message member => ready.2 message (List.mem_append_left _ member)⟩
  cases result with
  | ok consumed => exact Spends.pure fun said ready => before said (ready rfl)
  | aborted => exact Spends.fail _
  | error code retryable => exact Spends.fail _

theorem respond_spends (request : LLMRequest) (consumed : Consumed) (text : String) (parsedJson : Option Json) :
    Spends Open 0 (fun _ _ => True) (respond request consumed text parsedJson) := by
  have stored : Spends Open 0 (fun _ _ => True) (put text request.metadata) :=
    ((Spends.quietly rfl).mono le_rfl fun _ _ _ _ _ => trivial).awaited
  exact Spends.mono (stored.bind fun _ => Spends.pure fun _ => id) (Nat.le_refl (0 + 0)) fun _ _ => id

theorem finalizeStructured_spends (deps : Deps) (request : LLMRequest) (consumed : Consumed)
    (transport : Transport) (format : ResponseFormat) (repairs : Nat) (text : String) :
    Spends (Ready request) repairs (fun _ _ => True)
      (finalizeStructured deps request consumed transport format repairs text) := by
  have responds : ∀ text parsedJson, Spends (Ready request) 0 (fun _ _ => True)
      (respond request consumed text parsedJson) :=
    fun text parsedJson => (respond_spends request consumed text parsedJson).weaken fun _ ready => ready.1
  induction repairs generalizing text with
  | zero =>
    rw [finalizeStructured]
    split
    · exact responds text _
    · exact Spends.fail _
  | succ repairs ih =>
    rw [finalizeStructured]
    split
    · exact (responds text _).mono (Nat.zero_le _) fun _ _ => id
    · rename_i reason refused
      split
      · exact (Spends.fail _).mono (Nat.zero_le _) fun _ _ => id
      · exact Spends.mono ((repairOnce_spends deps request text reason transport).bind fun repaired =>
          ih repaired.text) (Nat.le_of_eq (Nat.add_comm 1 repairs)) fun _ _ => id

theorem finalize_spends (deps : Deps) (request : LLMRequest) (consumed : Consumed) (transport : Transport) :
    Spends (Ready request) deps.config.repairAttempts (fun _ _ => True)
      (finalize deps request consumed transport) := by
  unfold finalize
  split
  · exact ((respond_spends request consumed _ none).weaken fun _ ready => ready.1).mono (Nat.zero_le _) fun _ _ => id
  · exact finalizeStructured_spends deps request consumed transport _ _ _

/-- The streams that one call may ask for. -/
def Config.bound (config : Config) : Nat :=
  config.retryMax + 1 + config.fallbackAttempts + config.repairAttempts

theorem produce_spends (deps : Deps) (request : LLMRequest) (transport : Transport) :
    Spends Open (Config.bound deps.config) (fun _ _ => True) (produce deps request transport) := by
  unfold produce
  refine Spends.mono ((governed_spends deps request).bind fun _ =>
    (redactRequest_spends (withPromptSchema deps request)).bind fun redacted =>
      (runWithRetryAndFallback_spends deps redacted transport).bind fun consumed =>
        finalize_spends deps redacted consumed transport) ?_ fun _ _ => id
  unfold Config.bound
  omega

/-! ## The call -/

def heard (exchange : Dialogue.Exchange Ask.Reply) (said : Said) : Said := said ++ [exchange]

/-- What is said in a call: the streams it asks for, their order, the redaction of their
messages, and, unless the store could not record a failure, one end for each row that was
reserved. -/
structure Bounded (bound : Nat) (said : Said) : Prop where
  streams : streams said ≤ bound
  orderly : Orderly said
  finished : (∀ exchange ∈ said, unrecorded exchange = false) →
    said.filterMap finish = said.filterMap reservation
  once : (said.filterMap reservation).length ≤ 1

/-- A question to the store. -/
def isStore : Ask → Bool
  | .outside _ => false
  | _ => true

theorem store_silent {question : Ask} (store : isStore question = true) (reply : question.Reply) :
    streamed ⟨question, reply⟩ = none ∧ endsForGood ⟨question, reply⟩ = false ∧ givenOut ⟨question, reply⟩ = none := by
  cases question <;> first | exact ⟨rfl, rfl, rfl⟩ | cases store

theorem Orderly.store {question : Ask} (orderly : Orderly said) (store : isStore question = true)
    (reply : question.Reply) : Orderly (said ++ [⟨question, reply⟩]) :=
  orderly.concat fun _ stream => nomatch (store_silent store reply).1.symm.trans stream

theorem streams_store (said : Said) {question : Ask} (store : isStore question = true) (reply : question.Reply) :
    streams (said ++ [⟨question, reply⟩]) = streams said := by
  unfold streams
  rw [List.countP_append]
  simp [(store_silent store reply).1]

theorem orderly_nil : Orderly [] :=
  ⟨List.Pairwise.nil, fun before exchange after split => by simp at split⟩

theorem produce_concludes (deps : Deps) (request : LLMRequest) (transport : Transport)
    (orderly : Orderly said) (opened : Open said) :
    ((produce deps request transport).embed Ask.outside : Call LLMResponse).Concludes heard
      (fun new _ => Extends (Config.bound deps.config) said new) said :=
  Concludes.embed ((produce_spends deps request transport said orderly opened).mono fun _ _ holds => holds.1)

/-- A row was reserved and is not finished yet. -/
structure Pending (bound : Nat) (callId : CallId) (said : Said) : Prop where
  orderly : Orderly said
  streams : streams said ≤ bound
  reserved : said.filterMap reservation = [callId]
  finished : said.filterMap finish = []
  recorded : ∀ exchange ∈ said, unrecorded exchange = false

theorem Pending.extends {bound : Nat} {callId : CallId} {old new : Said} (pending : Pending 0 callId old)
    (extended : Extends bound old new) : Pending bound callId new where
  orderly := extended.orderly
  streams := extended.streams.trans (Nat.add_le_of_le_sub (Nat.le_refl _) (by simp [pending.streams]))
  reserved := extended.reserved.trans pending.reserved
  finished := extended.finished.trans pending.finished
  recorded exchange member := by
    cases failed : unrecorded exchange with
    | false => rfl
    | true => exact failed.symm.trans (pending.recorded exchange (extended.recorded exchange member failed))

/-- An exchange with the store that finishes the row. -/
theorem Pending.finish {bound : Nat} {callId : CallId} {question : Ask} {reply : question.Reply}
    (pending : Pending bound callId said) (store : isStore question = true)
    (unreserved : reservation ⟨question, reply⟩ = none) (finishes : finish ⟨question, reply⟩ = some callId) :
    Bounded bound (said ++ [⟨question, reply⟩]) where
  streams := (streams_store said store reply).trans_le pending.streams
  orderly := pending.orderly.store store reply
  finished _ := by simp [pending.reserved, pending.finished, unreserved, finishes]
  once := by simp [pending.reserved, unreserved]

/-- A completion that throws leaves the row as it was. -/
theorem Pending.thrown {bound : Nat} {callId : CallId} (pending : Pending bound callId said)
    (response : LLMResponse) (message : String) :
    Pending bound callId (said ++ [⟨.complete callId response, .error message⟩]) where
  orderly := pending.orderly.store rfl _
  streams := (streams_store said rfl _).trans_le pending.streams
  reserved := by simp [pending.reserved, reservation]
  finished := by simp [pending.finished, Effort.finish]
  recorded exchange member := by
    rcases List.mem_append.mp member with old | new
    · exact pending.recorded exchange old
    · rw [List.mem_singleton.mp new]
      rfl

/-- The handler of a call: its row fails. -/
theorem Pending.fails {bound : Nat} {callId : CallId} (pending : Pending bound callId said)
    (thrown : Thrown) :
    (do
      awaited (.perform (Ask.fail callId (failureCode thrown)))
      .fail (withCallId callId thrown) : Call LLMResponse).Concludes heard (fun said _ => Bounded bound said) said := by
  intro reply
  cases reply with
  | ok value => exact pending.finish rfl rfl rfl
  | error message =>
    refine ⟨(streams_store said rfl _).trans_le pending.streams, pending.orderly.store rfl _, ?_, ?_⟩
    · exact fun recorded => nomatch recorded _ (List.mem_append_right _ (List.mem_singleton_self _))
    · rw [heard, List.filterMap_append, pending.reserved]
      rfl

theorem pending_reserved (request : LLMRequest) (callId key : String) :
    Pending 0 callId [⟨.reserve request, .ok (.reserved callId key)⟩] where
  orderly := orderly_nil.store rfl _
  streams := le_rfl
  reserved := rfl
  finished := rfl
  recorded exchange member := by
    rw [List.mem_singleton.mp member]
    rfl

/-- The row of a reservation is completed or failed. -/
theorem callReserved_bounded (deps : Deps) (request : LLMRequest) (transport : Transport) (callId key : String) :
    (callReserved deps request transport callId).Concludes heard
      (fun said _ => Bounded (Config.bound deps.config) said)
      [⟨.reserve request, .ok (.reserved callId key)⟩] := by
  have start := pending_reserved request callId key
  have opened : Open [⟨.reserve request, .ok (.reserved callId key)⟩] := by
    intro exchange member
    rw [List.mem_singleton.mp member]
    rfl
  refine Concludes.recover (Concludes.bind ((produce_concludes deps request transport start.orderly opened).mono
    fun said ending extended => ?_))
  have pending := start.extends extended
  cases ending with
  | error thrown => exact pending.fails thrown
  | ok finalized =>
    intro reply
    cases reply with
    | ok value => exact pending.finish rfl rfl rfl
    | error message => exact (pending.thrown _ message).fails _

theorem bounded_of_quiet {bound : Nat} (orderly : Orderly said) (streams : streams said ≤ bound)
    (reserved : said.filterMap reservation = []) (finished : said.filterMap finish = []) : Bounded bound said :=
  ⟨streams, orderly, fun _ => finished.trans reserved.symm, by simp [reserved]⟩

theorem call_concludes (deps : Deps) (request : LLMRequest) :
    (call deps request).Concludes heard (fun said _ => Bounded (Config.bound deps.config) said) [] := by
  unfold call
  split
  · exact bounded_of_quiet orderly_nil (Nat.zero_le _) rfl rfl
  · rename_i transport allowed
    split
    · intro reply
      have quiet : reservation ⟨.reserve request, reply⟩ = none →
          Bounded (Config.bound deps.config) [⟨.reserve request, reply⟩] := by
        intro unreserved
        refine bounded_of_quiet (orderly_nil.store rfl _) (Nat.zero_le _) ?_ rfl
        rw [List.filterMap_cons, unreserved, List.filterMap_nil]
      cases reply with
      | error message => exact quiet rfl
      | ok answered =>
        cases answered with
        | reserved callId key => exact callReserved_bounded deps request transport callId key
        | replay response => exact quiet rfl
        | inFlight callId => exact quiet rfl
        | blocked reason => exact quiet rfl
    · refine (produce_concludes deps request transport orderly_nil fun _ absent => nomatch absent).mono
        fun said ending extended => ?_
      exact bounded_of_quiet extended.orderly (extended.streams.trans_eq (Nat.zero_add _)) extended.reserved
        extended.finished

theorem foldl_heard (said later : Said) :
    later.foldl (fun said exchange => heard exchange said) said = said ++ later := by
  induction later generalizing said with
  | nil => exact (List.append_nil said).symm
  | cons exchange rest ih => rw [List.foldl_cons, ih, heard, List.append_assoc, List.singleton_append]

/-- Whatever the adapters and the other components answer, a call asks for at most
`retryMax + 1`, the fallback and the repair attempts of streams, for none after one that
ended with an error that is not retryable or was aborted, sends each with user messages
that the redaction boundary gave out before, and ends the row of its reservation once,
where the store can record failures. -/
theorem call_bounded {World : Type} (answer : World → (question : Ask) → question.Reply × World) (world : World)
    (deps : Deps) (request : LLMRequest) :
    Bounded (deps.config.retryMax + 1 + deps.config.fallbackAttempts + deps.config.repairAttempts)
      ((call deps request).transcript answer world).1 := by
  have said := (call_concludes deps request).transcript answer world
  rw [foldl_heard, List.nil_append] at said
  exact said

end RpaEnterprise.Gateway.Effort
