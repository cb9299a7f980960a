import Mathlib
import RpaEnterprise.Gateway.Effort

/-!
# The usage that a response reports

A response carries the usage of the stream that ended the retries.  Streams of
repairs replace its text and leave its usage as it is, and a replay carries the
usage of the call that was stored.
-/

namespace RpaEnterprise.Gateway.Effort

open Lib
open Dialogue (Concludes Guarantees)

/-- The usage of a stream that completed successfully; none is reported as zero. -/
def usageOf : Dialogue.Exchange Ask.Reply → Option Usage
  | ⟨.outside (.streamCall _ _), stream⟩ =>
    match consumeEvents stream.thrown "" none stream.events with
    | .ok (.ok consumed) => some (consumed.usage.getD ⟨0, 0, 0, some true⟩)
    | _ => none
  | ⟨.outside (.sendSync _ _), .ok response⟩ => some response.usage
  | _ => none

def replayOf : Dialogue.Exchange Ask.Reply → Option LLMResponse
  | ⟨.reserve _, .ok (.replay response)⟩ => some response
  | _ => none

/-- The usage of the streams that completed successfully, in their order. -/
def used (said : Said) : List Usage := said.filterMap usageOf

/-- The response that was replayed. -/
def replayed (said : Said) : Option LLMResponse := said.findSome? replayOf

/-- Input tokens, output tokens and cost. -/
def counts (usage : Usage) : Nat × Nat × Rat := (usage.inputTokens, usage.outputTokens, usage.cost)

def totals (usages : List Usage) : Nat × Nat × Rat := (usages.map counts).sum

theorem totals_cons (usage : Usage) (rest : List Usage) : totals (usage :: rest) = counts usage + totals rest :=
  List.sum_cons

/-! ## Parts without streams -/

def silent (question : Outside) : Prop := asksForStream question = false

/-- Whatever the replies, the part asks for no stream. -/
def Quiet {Value : Type} (dialogue : Exchange Value) : Prop :=
  dialogue.Guarantees (fun _ _ => True) silent fun _ => True

theorem Quiet.bind {Value Result : Type} {dialogue : Exchange Value} {rest : Value → Exchange Result}
    (first : Quiet dialogue) (second : ∀ value, Quiet (rest value)) : Quiet (dialogue >>= rest) :=
  Guarantees.bind first fun value _ => second value

theorem Quiet.perform {question : Outside} (quiet : asksForStream question = false) :
    Quiet (.perform question : Exchange question.Reply) :=
  ⟨quiet, fun _ _ => trivial⟩

theorem Quiet.awaited {Value : Type} {dialogue : Exchange (Except String Value)} (quiet : Quiet dialogue) :
    Quiet (awaited dialogue) := by
  refine quiet.bind fun reply => ?_
  cases reply <;> trivial

theorem Quiet.audited {append : Exchange (Except String Unit)} {message : String} (quiet : Quiet append) :
    Quiet (audited append message) := by
  refine quiet.bind fun reply => ?_
  cases reply <;> trivial

theorem redaction_quiet (request : LLMRequest) (raw : Content) (textRuns : Option (List TextRun))
    (phase : Phase) (messageIndex : Nat) (site : String) :
    Quiet (do
      let result ← redactForGateway request raw textRuns
      recordPromptInspectDecision request result phase messageIndex
      match result with
      | .redacted content => pure content
      | .blocked signals => injectionBlocked site signals) := by
  refine (Quiet.perform rfl).awaited.bind fun result => (Quiet.perform rfl).audited.bind fun _ => ?_
  cases result <;> trivial

theorem redactMessages_quiet (request : LLMRequest) (messageIndex : Nat) (messages : List Message) :
    Quiet (redactMessages request messageIndex messages) := by
  induction messages generalizing messageIndex with
  | nil => trivial
  | cons message rest ih =>
    have later : ∀ content, Quiet (do
        let rest ← redactMessages request (messageIndex + 1) rest
        pure (⟨message.role, content⟩ :: rest)) := fun content => (ih _).bind fun _ => trivial
    rw [redactMessages]
    cases role : message.role with
    | user =>
      rw [role] at later
      exact (redaction_quiet request _ _ .initial messageIndex "gateway").bind later
    | system =>
      rw [role] at later
      exact later message.content

theorem governed_quiet (deps : Deps) (request : LLMRequest) : Quiet (governed deps request) := by
  unfold governed
  split
  · refine (Quiet.perform rfl).awaited.bind fun decision => (Quiet.perform rfl).audited.bind fun _ => ?_
    split <;> trivial
  · trivial

/-! ## Accounts of a call -/

/-- The usage of the successful streams so far, and the response that was replayed. -/
structure Account where
  used : List Usage
  replayed : Option LLMResponse

def account (exchange : Dialogue.Exchange Ask.Reply) (before : Account) : Account :=
  ⟨before.used ++ (usageOf exchange).toList, before.replayed.or (replayOf exchange)⟩

def tally (exchange : Dialogue.Exchange Outside.Reply) (before : Account) : Account :=
  account ⟨.outside exchange.question, exchange.reply⟩ before

def Account.add (before : Account) (spent : List Usage) : Account := ⟨before.used ++ spent, before.replayed⟩

@[simp]
theorem Account.add_nil (before : Account) : before.add [] = before := by
  simp [Account.add]

theorem Account.add_add (before : Account) (first second : List Usage) :
    (before.add first).add second = before.add (first ++ second) := by
  simp [Account.add]

theorem foldl_account (said : Said) (before : Account) :
    said.foldl (fun before exchange => account exchange before) before =
      ⟨before.used ++ used said, before.replayed.or (replayed said)⟩ := by
  induction said generalizing before with
  | nil => simp [used, replayed]
  | cons exchange rest ih =>
    rw [List.foldl_cons, ih]
    simp only [account, used, replayed, List.filterMap_cons, List.findSome?_cons]
    cases usageOf exchange <;> cases before.replayed <;> cases replayOf exchange <;> simp

theorem usageOf_silent {question : Outside} (reply : question.Reply) (quiet : silent question) :
    usageOf ⟨.outside question, reply⟩ = none := by
  cases question with
  | streamCall adapter request => cases quiet
  | sendSync adapter request => cases quiet
  | _ => rfl

theorem tally_silent (question : Outside) (reply : question.Reply) (before : Account) (quiet : silent question) :
    tally ⟨question, reply⟩ before = before := by
  simp [tally, account, usageOf_silent reply quiet, replayOf]

/-- The usage of a part that ended well. -/
def spent {Error Value : Type} (usage : Value → List Usage) : Except Error Value → List Usage
  | .ok value => usage value
  | .error _ => []

/-- The part accounts for the usage of what it returns. -/
def Accounts {Value : Type} (usage : Value → List Usage) (dialogue : Exchange Value) : Prop :=
  ∀ before : Account, dialogue.Concludes tally (fun new ending => new = before.add (spent usage ending)) before

theorem Accounts.bind {Value Result : Type} {usage : Value → List Usage} {total : Result → List Usage}
    {dialogue : Exchange Value} {rest : Value → Exchange Result} (first : Accounts usage dialogue)
    (second : ∀ value (before : Account), (rest value).Concludes tally
      (fun new ending => new = before.add (spent total ending)) (before.add (usage value))) :
    Accounts total (dialogue >>= rest) := by
  intro before
  refine Concludes.bind ((first before).mono ?_)
  rintro new ending rfl
  cases ending with
  | ok value => exact second value before
  | error thrown => rfl

def consumedUsage (consumed : Consumed) : List Usage := [consumed.usage.getD ⟨0, 0, 0, some true⟩]

def resultUsage : ConsumeResult → List Usage
  | .ok consumed => consumedUsage consumed
  | _ => []

theorem consumeStream_accounts (adapter : Adapter) (request : LLMRequest) :
    Accounts resultUsage (consumeStream adapter request) := by
  intro before stream
  have noted : tally ⟨.streamCall adapter request, stream⟩ before =
      before.add (spent resultUsage (consumeEvents stream.thrown "" none stream.events)) := by
    simp only [tally, account, Account.add, usageOf, replayOf, Option.or_none]
    cases consumeEvents stream.thrown "" none stream.events with
    | error thrown => rfl
    | ok result => cases result <;> rfl
  rw [noted]
  show Concludes tally _ (Dialogue.lift (consumeEvents stream.thrown "" none stream.events)) _
  cases consumeEvents stream.thrown "" none stream.events <;> rfl

theorem consumeSync_accounts (adapter : Adapter) (request : LLMRequest) :
    Accounts resultUsage (consumeSync adapter request) := by
  intro before reply
  cases reply with
  | ok response =>
    show tally ⟨.sendSync adapter request, .ok response⟩ before = _
    simp [tally, account, usageOf, replayOf, Account.add, spent, resultUsage, consumedUsage]
  | error message =>
    show tally ⟨.sendSync adapter request, .error message⟩ before = _
    simp [tally, account, usageOf, replayOf, spent, resultUsage]

theorem consumeOnce_accounts (deps : Deps) (adapter : Adapter) (request : LLMRequest) (transport : Transport) :
    Accounts resultUsage (consumeOnce deps adapter request transport) := by
  cases transport with
  | sse => exact consumeStream_accounts adapter request
  | sync =>
    rw [consumeOnce]
    split
    · exact consumeSync_accounts adapter request
    · intro before
      exact (Account.add_nil before).symm

theorem Accounts.pure {Value : Type} {usage : Value → List Usage} {value : Value} (free : usage value = []) :
    Accounts usage (Pure.pure value) := by
  intro before
  show before = before.add (usage value)
  rw [free, Account.add_nil]

theorem Accounts.fail {Value : Type} {usage : Value → List Usage} (thrown : Thrown) :
    Accounts usage (.fail thrown) :=
  fun before => (Account.add_nil before).symm

def triedUsage : Except (Option AdapterErrorCode) Consumed → List Usage
  | .ok consumed => consumedUsage consumed
  | .error _ => []

theorem tryAdapter_accounts (deps : Deps) (adapter : Adapter) (request : LLMRequest) (transport : Transport)
    (tries : Nat) (last : Option AdapterErrorCode) :
    Accounts triedUsage (tryAdapter deps adapter request transport tries last) := by
  induction tries generalizing last with
  | zero => exact Accounts.pure rfl
  | succ tries ih =>
    rw [tryAdapter]
    refine (consumeOnce_accounts deps adapter request transport).bind fun result before => ?_
    cases result with
    | ok consumed => rfl
    | aborted => rfl
    | error code retryable =>
      have free : before.add (resultUsage (.error code retryable)) = before := Account.add_nil before
      rw [free]
      cases retryable with
      | true => exact ih (some code) before
      | false => exact Accounts.fail _ before

theorem tryChain_accounts (deps : Deps) (request : LLMRequest) (transport : Transport)
    (links : List (Adapter × Nat)) (last : Option AdapterErrorCode) :
    Accounts consumedUsage (tryChain deps request transport links last) := by
  induction links generalizing last with
  | nil => exact Accounts.fail _
  | cons link rest ih =>
    rw [tryChain]
    refine (tryAdapter_accounts deps link.1 request transport link.2 last).bind fun result before => ?_
    cases result with
    | ok consumed => rfl
    | error last =>
      have free : before.add (triedUsage (.error last)) = before := Account.add_nil before
      rw [free]
      exact ih last before

/-! ## Repairs and the response -/

theorem repairContent_quiet (request : LLMRequest) (priorText reason : String) :
    Quiet (repairContent request priorText reason) :=
  redaction_quiet request _ none .repair request.messages.length "gateway repair"

theorem repairOnce_accounts (deps : Deps) (request : LLMRequest) (priorText reason : String)
    (transport : Transport) : Accounts consumedUsage (repairOnce deps request priorText reason transport) := by
  intro before
  refine Concludes.quiet_bind (repairContent_quiet request priorText reason) tally_silent
    (fun _ => (Account.add_nil before).symm) fun content => ?_
  refine (consumeOnce_accounts deps .primary _ transport).bind (fun result before => ?_) before
  cases result with
  | ok consumed => rfl
  | aborted => rfl
  | error code retryable => rfl

/-- The response reports the usage of the given stream, and what was used on the way to it
are streams of repairs. -/
def Reports (consumed : Consumed) (before new : Account) (ending : Except Thrown LLMResponse) : Prop :=
  (∃ repairs, new = before.add repairs) ∧
    ∀ response, ending = .ok response → response.usage = consumed.usage.getD ⟨0, 0, 0, some true⟩

theorem respond_reports (request : LLMRequest) (consumed : Consumed) (text : String) (parsedJson : Option Json)
    (before : Account) :
    (respond request consumed text parsedJson).Concludes tally (Reports consumed before) before := by
  have unused : before = before.add [] := (Account.add_nil before).symm
  have stored : Quiet (put text request.metadata) := (Quiet.perform rfl).awaited
  refine Concludes.quiet_bind stored tally_silent (fun _ => ⟨⟨[], unused⟩, fun _ equal => nomatch equal⟩)
    fun outputRef => ⟨⟨[], unused⟩, fun response equal => ?_⟩
  cases equal
  rfl

theorem finalizeStructured_reports (deps : Deps) (request : LLMRequest) (consumed : Consumed)
    (transport : Transport) (format : ResponseFormat) (repairs : Nat) (text : String) (before : Account) :
    (finalizeStructured deps request consumed transport format repairs text).Concludes tally
      (Reports consumed before) before := by
  have refused : ∀ before : Account, ∀ thrown, Reports consumed before before (.error thrown) :=
    fun before thrown => ⟨⟨[], (Account.add_nil before).symm⟩, fun _ equal => nomatch equal⟩
  induction repairs generalizing text before with
  | zero =>
    rw [finalizeStructured]
    split
    · exact respond_reports request consumed text _ before
    · exact refused before _
  | succ repairs ih =>
    rw [finalizeStructured]
    split
    · exact respond_reports request consumed text _ before
    · rename_i reason invalid
      split
      · exact refused before _
      · refine Concludes.bind ((repairOnce_accounts deps request text reason transport before).mono ?_)
        rintro new ending rfl
        cases ending with
        | error thrown => exact ⟨⟨[], rfl⟩, fun _ equal => nomatch equal⟩
        | ok repaired =>
          refine (ih repaired.text (before.add (consumedUsage repaired))).mono ?_
          rintro last ending ⟨⟨later, rfl⟩, holds⟩
          exact ⟨⟨_, Account.add_add _ _ _⟩, holds⟩

theorem finalize_reports (deps : Deps) (request : LLMRequest) (consumed : Consumed) (transport : Transport)
    (before : Account) :
    (finalize deps request consumed transport).Concludes tally (Reports consumed before) before := by
  unfold finalize
  split
  · exact respond_reports request consumed _ none before
  · exact finalizeStructured_reports deps request consumed transport _ _ _ before

/-- Of the streams that were used, the response reports the first. -/
def ReportsFirst (before new : Account) (ending : Except Thrown LLMResponse) : Prop :=
  ∀ response, ending = .ok response → ∃ repairs, new = before.add (response.usage :: repairs)

theorem produce_reports (deps : Deps) (request : LLMRequest) (transport : Transport) (before : Account) :
    (produce deps request transport).Concludes tally (ReportsFirst before) before := by
  have redacts : Quiet (redactRequest (withPromptSchema deps request)) :=
    (redactMessages_quiet _ 0 _).bind fun _ => trivial
  refine Concludes.quiet_bind (governed_quiet deps request) tally_silent (fun _ _ equal => nomatch equal) fun _ => ?_
  refine Concludes.quiet_bind redacts tally_silent (fun _ _ equal => nomatch equal) fun redacted => ?_
  refine Concludes.bind ((tryChain_accounts deps redacted transport _ none before).mono ?_)
  rintro new ending rfl
  cases ending with
  | error thrown => exact fun _ equal => nomatch equal
  | ok consumed =>
    refine (finalize_reports deps redacted consumed transport _).mono ?_
    rintro last ending ⟨⟨repairs, rfl⟩, reports⟩ response equal
    refine ⟨repairs, ?_⟩
    rw [Account.add_add, reports response equal]
    rfl

/-! ## The call -/

/-- A response is a replay, with no stream used, or reports the first stream used. -/
def CallReports (new : Account) (ending : Except Thrown LLMResponse) : Prop :=
  ∀ response, ending = .ok response →
    new = ⟨[], some response⟩ ∨ ∃ repairs, new = ⟨response.usage :: repairs, none⟩

theorem account_store {question : Ask} (store : isStore question = true) (reply : question.Reply)
    (unplayed : replayOf ⟨question, reply⟩ = none) (before : Account) : account ⟨question, reply⟩ before = before := by
  have unused : usageOf ⟨question, reply⟩ = none := by
    cases question with
    | outside question => cases store
    | _ => rfl
  simp [account, unplayed, unused]

theorem callReserved_reports (deps : Deps) (request : LLMRequest) (transport : Transport) (callId : CallId) :
    (callReserved deps request transport callId).Concludes account CallReports ⟨[], none⟩ := by
  refine Concludes.recover (Concludes.bind (Concludes.embed
    ((produce_reports deps request transport ⟨[], none⟩).mono fun new ending reports => ?_)))
  have fails : ∀ thrown, (do
      awaited (.perform (Ask.fail callId (failureCode thrown)))
      .fail (withCallId callId thrown) : Call LLMResponse).Concludes account CallReports new := by
    intro thrown reply
    cases reply <;> exact fun _ equal => nomatch equal
  cases ending with
  | error thrown => exact fails thrown
  | ok finalized =>
    obtain ⟨repairs, rfl⟩ := reports finalized rfl
    intro reply
    rw [account_store rfl reply rfl]
    cases reply with
    | error message => exact fails _
    | ok value =>
      intro response equal
      cases equal
      exact .inr ⟨repairs, rfl⟩

theorem call_reports (deps : Deps) (request : LLMRequest) :
    (call deps request).Concludes account CallReports ⟨[], none⟩ := by
  unfold call
  split
  · exact fun _ equal => nomatch equal
  · rename_i transport allowed
    split
    · intro reply
      cases reply with
      | error message => exact fun _ equal => nomatch equal
      | ok answered =>
        cases answered with
        | reserved callId key => exact callReserved_reports deps request transport callId
        | replay response =>
          intro other equal
          cases equal
          exact .inl rfl
        | inFlight callId => exact fun _ equal => nomatch equal
        | blocked reason => exact fun _ equal => nomatch equal
    · refine Concludes.embed ((produce_reports deps request transport ⟨[], none⟩).mono fun new ending reports => ?_)
      intro response equal
      obtain ⟨repairs, rfl⟩ := reports response equal
      exact .inr ⟨repairs, rfl⟩

/-- The usage of a response is the sum over the streams that completed in its call
exactly if it is no replay and the streams of its repairs report nothing, or if it is
the replay of a response that reports nothing. -/
theorem usage_accounted_iff {World : Type} (answer : World → (question : Ask) → question.Reply × World)
    (world : World) (deps : Deps) (request : LLMRequest) (response : LLMResponse)
    (returned : ((call deps request).transcript answer world).2 = .ok response) :
    counts response.usage = totals (used ((call deps request).transcript answer world).1) ↔
      match replayed ((call deps request).transcript answer world).1 with
      | some stored => counts stored.usage = 0
      | none => totals (used ((call deps request).transcript answer world).1).tail = 0 := by
  have reports := (call_reports deps request).transcript answer world response returned
  rw [foldl_account] at reports
  generalize ((call deps request).transcript answer world).1 = said at reports
  rcases reports with replay | ⟨repairs, produced⟩
  · have nothing : used said = [] := congrArg Account.used replay
    have stored : replayed said = some response := congrArg Account.replayed replay
    rw [nothing, stored]
    exact Iff.rfl
  · have first : used said = response.usage :: repairs := congrArg Account.used produced
    have unplayed : replayed said = none := congrArg Account.replayed produced
    rw [first, unplayed, totals_cons]
    show counts response.usage = counts response.usage + totals repairs ↔ totals repairs = 0
    exact left_eq_add

/-- Surroundings whose adapter has the given streams to give. -/
def scripted (runs : List StreamRun) : (question : Ask) → question.Reply × List StreamRun
  | .outside (.streamCall _ _) => (runs.headD ⟨[], none⟩, runs.tail)
  | .outside (.sendSync _ _) => (.error "", runs)
  | .outside (.redactForGateway _ raw _) => (.ok (.redacted raw), runs)
  | .outside (.recordPromptInspectDecision _ _ _ _) => (.ok (), runs)
  | .outside (.evaluateGovernance _) => (.error "", runs)
  | .outside (.recordAiGovernanceDecision _ _) => (.ok (), runs)
  | .outside (.put _ _) => (.ok "ref", runs)
  | .reserve _ => (.error "", runs)
  | .complete _ _ => (.ok (), runs)
  | .fail _ _ => (.ok (), runs)

/-- A gateway without a store that repairs once and takes `[]` for the only JSON text. -/
def repairingDeps : Deps where
  capabilities := ⟨true, false, true, true⟩
  syncCall _ := false
  fallback := false
  aiGovernance := false
  idempotency := false
  config := ⟨0, 0, 1⟩
  validate _ _ := none
  parse text := if text = "[]" then some (.arr []) else none

def planRequest : LLMRequest where
  model := "gpt-4.1"
  promptTemplateVersion := "v1"
  messages := []
  promptInspection := none
  responseFormat := some ⟨"action_plan", "v1", false, none⟩
  metadata := ⟨"tenant-1", "run-1", "step-1", 0, .act, "corr-1"⟩
  budget := ⟨1000, 1000, 1⟩
  idempotencyKey := "run-1:step-1:0"
  requestHash := "hash-1"

def stream (text : String) (inputTokens outputTokens : Nat) : StreamRun :=
  ⟨[.opened, .textDelta text, .usage ⟨inputTokens, outputTokens, 0, some false⟩, .done .stop], none⟩

theorem usage_accounted_iff_unrepaired :
    counts ⟨10, 5, 0, some false⟩ =
        totals (used ((call repairingDeps planRequest).transcript scripted [stream "[]" 10 5]).1) ↔
      match replayed ((call repairingDeps planRequest).transcript scripted [stream "[]" 10 5]).1 with
      | some stored => counts stored.usage = 0
      | none => totals (used ((call repairingDeps planRequest).transcript scripted [stream "[]" 10 5]).1).tail = 0 :=
  usage_accounted_iff scripted [stream "[]" 10 5] repairingDeps planRequest
    ⟨"ref", ⟨10, 5, 0, some false⟩, .stop, some (.arr []), none⟩ rfl

/-- The first stream is repaired by a second; the response reports the first only. -/
theorem repair_not_accounted :
    ∃ response,
      ((call repairingDeps planRequest).transcript scripted [stream "" 10 5, stream "[]" 20 7]).2 = .ok response ∧
      counts response.usage = (10, 5, 0) ∧
      totals (used ((call repairingDeps planRequest).transcript scripted
        [stream "" 10 5, stream "[]" 20 7]).1) = (30, 12, 0) := by
  have both : used ((call repairingDeps planRequest).transcript scripted [stream "" 10 5, stream "[]" 20 7]).1 =
      [⟨10, 5, 0, some false⟩, ⟨20, 7, 0, some false⟩] := rfl
  refine ⟨_, rfl, rfl, ?_⟩
  rw [both]
  decide +kernel

end RpaEnterprise.Gateway.Effort
