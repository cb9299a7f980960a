import RpaEnterprise.Gateway.Exclusivity

/-!
# What a replay gives back

`complete` writes a response to the columns of its row, and a later `reserve` of the
key reads them back.  There are columns for the output, the tokens, the cost and the
parsed value; none for the finish reason or the estimated flag, and a parsed `null`
is read as a column that was never written.
-/

namespace RpaEnterprise.Gateway

open Lib

/-- The replay has the text, the parsed value, the finish reason and the usage of the
original. -/
structure Repeats (original replayed : LLMResponse) : Prop where
  text : replayed.outputRef = original.outputRef
  parsedJson : replayed.parsedJson = original.parsedJson
  finishReason : replayed.finishReason = original.finishReason
  usage : replayed.usage = original.usage

/-- What the columns hold of a response. -/
structure Storable (response : LLMResponse) : Prop where
  stops : response.finishReason = .stop
  measured : response.usage.estimated = none
  parsed : response.parsedJson ≠ some .null
  cost : numeric6 response.usage.cost = response.usage.cost

/-- Through the columns and back. -/
theorem repeats_iff (id : CallId) (row : StagehandCall) (response : LLMResponse) :
    Repeats response (responseFromRow id (row.completed response) response.outputRef) ↔ Storable response := by
  constructor
  · intro repeats
    have usage : (⟨response.usage.inputTokens, response.usage.outputTokens,
        numeric6 response.usage.cost, none⟩ : Usage) = response.usage := repeats.usage
    refine ⟨repeats.finishReason.symm, (congrArg Usage.estimated usage).symm, fun null => ?_,
      congrArg Usage.cost usage⟩
    have parsed := repeats.parsedJson
    simp only [responseFromRow, StagehandCall.completed, null] at parsed
    cases parsed
  · rintro ⟨stops, measured, parsed, cost⟩
    refine ⟨rfl, ?_, stops.symm, ?_⟩
    · simp only [responseFromRow, StagehandCall.completed]
    · simp only [responseFromRow, StagehandCall.completed, cost, ← measured]

/-! ## The row of a completed call -/

/-- A reopening `UPDATE` runs while its row is still failed. -/
def FindsFailed (sessions : Sessions) (next : Statement) : Prop :=
  ∀ row ∈ reopenedRow sessions next, row.streamStatus = .error ∨ row.streamStatus = .aborted

theorem FindsFailed.settled {sessions : Sessions} {next : Statement} (failed : FindsFailed sessions next) :
    FindsSettled sessions next := by
  intro opened
  obtain ⟨row, found, opened⟩ := Option.map_eq_some_iff.mp opened
  rcases failed row found with error | aborted
  · exact nomatch opened.symm.trans error
  · exact nomatch opened.symm.trans aborted

/-- The row of a call that was completed. -/
structure Completed (callId : CallId) (row : StagehandCall) (sessions : Sessions) : Prop where
  sound : Sound sessions
  stored : sessions.store.get callId = some row

theorem Completed.statement {callId : CallId} {row : StagehandCall} (done : row.streamStatus = .done)
    (sessions : Sessions) (next : Statement) (failed : FindsFailed sessions next)
    (completed : Completed callId row sessions) : Completed callId row (statement sessions next) := by
  have effect := statement_effect sessions next
  refine ⟨effect.sound failed.settled completed.sound, ?_⟩
  have stored := completed.stored
  generalize Gateway.statement sessions next = after at effect
  cases effect with
  | refused => exact stored
  | reads _ caller place before after fits => exact stored
  | inserts caller request other store before absent inserted =>
    rw [Sessions.move_store, Table.get_insert? inserted, if_neg]
    · exact stored
    · rintro rfl
      cases stored.symm.trans (Table.get_of_insert? inserted)
  | reopens caller request other before =>
    refine (Table.get_modify_of_ne _ _ ?_).trans stored
    rintro rfl
    have found : reopenedRow sessions (.update caller) = some row := by
      simp only [reopenedRow, before, stored]
    rcases failed row found with error | aborted
    · cases done.symm.trans error
    · cases done.symm.trans aborted
  | settles _ caller request other change before same closed =>
    refine (Table.get_modify_of_ne _ _ ?_).trans stored
    rintro rfl
    obtain ⟨held, found, -, opened⟩ := completed.sound.held before
    cases stored.symm.trans found
    cases done.symm.trans opened

/-- What `reserve` answers where the key of the request has a row that is done. -/
theorem reserve_done {store : Store} {callId : CallId} {row : StagehandCall} {outputRef : String}
    (unique : store.Unique) (stored : store.get callId = some row) (done : row.streamStatus = .done)
    (output : row.outputRef = some outputRef) {later : LLMRequest} (isFor : row.isFor later = true)
    (newId : CallId) :
    reserve store later newId =
      some (if row.requestHash = later.requestHash then .replay (responseFromRow callId row outputRef)
        else .blocked "request_hash_mismatch", store) := by
  unfold reserve
  cases found : store.find? fun _ row => row.isFor later with
  | none =>
    have absent := Table.find?_eq_none_iff.mp found callId row stored
    rw [isFor] at absent
    exact absurd absent (by decide)
  | some entry =>
    obtain ⟨id, other⟩ := entry
    have held := Table.find?_some found
    obtain rfl := unique id callId later ⟨other, held⟩ ⟨row, stored, isFor⟩
    obtain rfl : other = row := Option.some.inj (held.1.symm.trans stored)
    by_cases same : other.requestHash = later.requestHash
    · simp [reserveExisting, same, done, output]
    · simp [reserveExisting, same]

/-- In every run whose reopenings find their rows still failed, once a holder has
completed its row, a reserve of its tenant and key answers with a replay of the
response exactly if it has the hash of the row and the columns can hold the response. -/
theorem replay_repeats_iff {store : Store} (unique : store.Unique) {before after : List Statement}
    {caller : Nat} {request : LLMRequest} {callId : CallId} {row : StagehandCall} {response : LLMResponse}
    (failed : Along statement FindsFailed (.start store) (before ++ .complete caller response :: after))
    (holds : (exec statement (.start store) before).callers caller = .holding request callId)
    (stored : (exec statement (.start store) before).store.get callId = some row)
    (later : LLMRequest) (isFor : row.isFor later = true) (newId : CallId) :
    (∃ replayed next,
      reserve (exec statement (.start store) (before ++ .complete caller response :: after)).store later newId =
        some (.replay replayed, next) ∧ Repeats response replayed) ↔
      row.requestHash = later.requestHash ∧ Storable response := by
  rw [along_append] at failed
  obtain ⟨early, now, late⟩ := failed
  have sound : Sound (exec statement (.start store) before) :=
    exec_keeps (fun sessions next failed => (statement_effect sessions next).sound failed.settled) early
      (Sound.start unique)
  rw [exec_append, exec_cons]
  generalize exec statement (.start store) before = sessions at holds stored now late sound
  have written : (statement sessions (.complete caller response)).store.get callId =
      some (row.completed response) := by
    simp [statement, settle, holds, complete, updateOne, stored]
  have completed : Completed callId (row.completed response) (statement sessions (.complete caller response)) :=
    ⟨(statement_effect sessions _).sound now.settled sound, written⟩
  have last := exec_keeps (Completed.statement rfl) late completed
  rw [reserve_done last.sound.unique last.stored rfl rfl isFor newId, ← repeats_iff callId row response]
  have hash : (row.completed response).requestHash = row.requestHash := rfl
  rw [hash]
  by_cases same : row.requestHash = later.requestHash
  · simp [same]
  · simp [same]

/-- A call that is completed, and one of the same key after it. -/
def completedCall (response : LLMResponse) : List Statement :=
  [.insert 0 extractionRequest "call-0", .complete 0 response]

theorem replay_repeats_iff_completedCall :
    (∃ replayed next,
      reserve (exec statement (.start .empty) (completedCall ⟨"ref", ⟨3, 2, 0, none⟩, .stop, none, none⟩)).store
        extractionRequest "call-1" = some (.replay replayed, next) ∧
      Repeats ⟨"ref", ⟨3, 2, 0, none⟩, .stop, none, none⟩ replayed) ↔
    extractionRequest.requestHash = extractionRequest.requestHash ∧
      Storable ⟨"ref", ⟨3, 2, 0, none⟩, .stop, none, none⟩ :=
  @replay_repeats_iff .empty (by rintro _ _ _ ⟨_, absent, _⟩; cases absent)
    [.insert 0 extractionRequest "call-0"] [] 0 extractionRequest "call-0" (.reserved extractionRequest)
    ⟨"ref", ⟨3, 2, 0, none⟩, .stop, none, none⟩ ⟨by rintro _ ⟨⟩, by rintro _ ⟨⟩, trivial⟩ rfl rfl
    extractionRequest (by decide) "call-1"

/-- A reply that was cut off, with an estimated usage, a parsed `null` and a tenth of a
millionth as its cost. -/
def cutOff : LLMResponse := ⟨"ref", ⟨3, 2, 1 / 10000000, some true⟩, .length, some .null, none⟩

/-- Its replay ended with `stop`, is not estimated, has no parsed value and cost nothing. -/
theorem cutOff_replayed :
    ∃ replayed next,
      reserve (exec statement (.start .empty) (completedCall cutOff)).store extractionRequest "call-1" =
        some (.replay replayed, next) ∧
      replayed.finishReason = .stop ∧ replayed.usage.estimated = none ∧ replayed.parsedJson = none ∧
        replayed.usage.cost = 0 ∧ cutOff.usage.cost ≠ 0 := by
  refine ⟨_, _, rfl, rfl, rfl, rfl, ?_, by decide +kernel⟩
  show numeric6 (1 / 10000000) = 0
  decide +kernel

end RpaEnterprise.Gateway
