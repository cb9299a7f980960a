import RpaEnterprise.Integration.Handoffs

/-!
# Finished handoffs

Nothing in the dispatch of a handoff looks at its receipts: an attempt that is under way
when the provider reports the end is still sent, and its answer overwrites the status.
A handoff stays finished in the runs in which the end is reported, and attempts are
inserted, only while no other attempt is under way.
-/

namespace RpaEnterprise.Integration

open Lib

/-- A finished handoff keeps its status and sends nothing more, and there is one attempt
under way at most. -/
structure StaysFinished (state : State) : Prop where
  status : state.db.finished = true →
    state.db.handoff.status = .completed ∨ state.db.handoff.status = .cancelled
  sends : ∀ send ∈ state.sends, send.2 = false
  oneOpen : ∀ first second firstRow secondRow,
    state.db.attempts.get first = some firstRow → firstRow.status.isOpen = true →
    state.db.attempts.get second = some secondRow → secondRow.status.isOpen = true → first = second

/-- An attempt is inserted, and the end of the handoff is recorded, only while no attempt
is under way; and after the end neither an attempt nor another receipt is recorded that
takes it back. -/
def Orderly (state : State) : Action → Prop
  | .insertAttempt session => ∀ request, state.requests.get session = some request →
      state.db.attempts.get ⟨request.requestIdempotencyKey, 1⟩ = none →
      state.db.idle = true ∧ state.db.finished = false
  | .callback input _ => state.db.receipts.get input.receiptId = none →
      (input.status.final = true → state.db.idle = true) ∧
        (input.status.final = false → state.db.finished = false)
  | _ => True

section Readings

variable {db : Database}

theorem idle_iff : db.idle = true ↔
    ∀ key row, db.attempts.get key = some row → row.status.isOpen = false := by
  simp [Database.idle, Table.get_eq_some_iff]

theorem holdsLease_iff {token : LeaseToken} {key : AttemptKey} : holdsLease db token key = true ↔
    ∃ row, db.attempts.get key = some row ∧ row.leaseToken = some token ∧ row.status = .sending := by
  unfold holdsLease
  cases db.attempts.get key <;> simp

end Readings

/-! ## What every step keeps -/

/-- There is one attempt under way at most, none once the handoff is finished. -/
structure Settled (db : Database) : Prop where
  oneOpen : ∀ first second firstRow secondRow,
    db.attempts.get first = some firstRow → firstRow.status.isOpen = true →
    db.attempts.get second = some secondRow → secondRow.status.isOpen = true → first = second
  closed : db.finished = true → db.idle = true
  status : db.finished = true → db.handoff.status = .completed ∨ db.handoff.status = .cancelled

/-- Every execution holds the lease of its attempt. -/
def Held (state : State) : Prop :=
  ∀ token execution, state.executions.get token = some execution →
    holdsLease state.db token execution.key = true

structure Sound (state : State) : Prop where
  settled : Settled state.db
  held : Held state
  sends : ∀ send ∈ state.sends, send.2 = false

theorem Sound.staysFinished {state : State} (sound : Sound state) : StaysFinished state where
  status := sound.settled.status
  sends := sound.sends
  oneOpen := sound.settled.oneOpen

section Attempts

variable {db : Database} {token : LeaseToken} {key : AttemptKey}

/-- While an attempt is sending the handoff is not finished. -/
theorem Settled.not_finished (settled : Settled db) (holds : holdsLease db token key = true) :
    db.finished = false := by
  obtain ⟨row, found, -, sending⟩ := holdsLease_iff.mp holds
  by_contra finished
  have closed := idle_iff.mp (settled.closed (by simpa using finished)) key row found
  simp [sending, AttemptStatus.isOpen] at closed

/-- The attempt of an execution ends; others stay as they are. -/
theorem Settled.only (settled : Settled db) (holds : holdsLease db token key = true)
    {other : AttemptKey} {row : Attempt} (found : db.attempts.get other = some row)
    (isOpen : row.status.isOpen = true) : other = key := by
  obtain ⟨mine, isMine, -, sending⟩ := holdsLease_iff.mp holds
  exact settled.oneOpen other key row mine found isOpen isMine (by simp [sending, AttemptStatus.isOpen])

/-- The attempt of the execution was the only one under way. -/
theorem Settled.closed_after (settled : Settled db) (holds : holdsLease db token key = true)
    {change : Attempt → Attempt} (closes : ∀ row, (change row).status.isOpen = false)
    {other : AttemptKey} {row : Attempt} (found : (db.attempts.modify key change).get other = some row) :
    row.status.isOpen = false := by
  rw [Table.get_modify] at found
  split at found
  · obtain ⟨before, -, rfl⟩ := Option.map_eq_some_iff.mp found
    exact closes before
  · rename_i different
    by_contra isOpen
    exact different (settled.only holds found (by simpa using isOpen))

/-- A handoff that is not finished, with one attempt under way at most. -/
theorem settled_of_unfinished {after : Database} (unfinished : after.finished = false)
    (oneOpen : ∀ first second firstRow secondRow,
      after.attempts.get first = some firstRow → firstRow.status.isOpen = true →
      after.attempts.get second = some secondRow → secondRow.status.isOpen = true → first = second) :
    Settled after where
  oneOpen := oneOpen
  closed := by simp [unfinished]
  status := by simp [unfinished]

/-- A new attempt where none is under way is the only one. -/
theorem oneOpen_insert {table next : Table AttemptKey Attempt} {new : Attempt}
    (closed : ∀ other row, table.get other = some row → row.status.isOpen = false)
    (inserted : table.insert? key new = some next) :
    ∀ first second firstRow secondRow,
      next.get first = some firstRow → firstRow.status.isOpen = true →
      next.get second = some secondRow → secondRow.status.isOpen = true → first = second := by
  have here : ∀ other row, next.get other = some row → row.status.isOpen = true → other = key := by
    intro other row found isOpen
    rw [Table.get_insert? inserted] at found
    split at found
    · assumption
    · exact absurd (closed other row found) (by simp [isOpen])
  intro first second firstRow secondRow isFirst firstOpen isSecond secondOpen
  rw [here first firstRow isFirst firstOpen, here second secondRow isSecond secondOpen]

/-- The attempt of an execution ends, and another one may be inserted for it. -/
structure Closes (db : Database) (token : LeaseToken) (key : AttemptKey) (after : Database) : Prop where
  holds : holdsLease db token key = true
  receipts : after.receipts = db.receipts
  attempts : ∃ change : Attempt → Attempt, (∀ row, (change row).status.isOpen = false) ∧
    (after.attempts = db.attempts.modify key change ∨
      ∃ retry new, (db.attempts.modify key change).insert? retry new = some after.attempts)

theorem closes_accepted {execution : Execution} {receiptId : String} {providerStatusCode : Nat}
    {externalJobId : Option String} {after : Database}
    (done : completeAcceptedAttempt db token execution receiptId providerStatusCode externalJobId = some after) :
    Closes db token execution.key after := by
  unfold completeAcceptedAttempt at done
  split at done
  · cases done
    exact ⟨‹_›, rfl, Attempt.acceptedWith receiptId providerStatusCode externalJobId, fun _ => rfl, .inl rfl⟩
  · cases done

theorem closes_failed {policy : Policy} {execution : Execution} {reason : String}
    {providerStatusCode : Option Nat} {finalFailure : Bool} {after : Database}
    (done : completeFailedAttempt policy db token execution reason providerStatusCode finalFailure = some after) :
    Closes db token execution.key after := by
  unfold completeFailedAttempt at done
  dsimp only at done
  split at done
  · cases finalFailure with
    | true =>
      cases done
      exact ⟨‹_›, rfl, Attempt.failedWith _ providerStatusCode true, fun _ => rfl, .inl rfl⟩
    | false =>
      obtain ⟨attempts, inserted, rfl⟩ := Option.map_eq_some_iff.mp done
      exact ⟨‹_›, rfl, Attempt.failedWith _ providerStatusCode false, fun _ => rfl, .inr ⟨_, _, inserted⟩⟩
  · cases done

theorem closes_completed {policy : Policy} {execution : Execution} {decision : Decision} {after : Database}
    (done : completeAttempt policy db token execution decision = some after) :
    Closes db token execution.key after := by
  cases decision with
  | accepted => exact closes_accepted done
  | transientFailed => exact closes_failed done
  | permanentFailed => exact closes_failed done

theorem Closes.settled {after : Database} (closes : Closes db token key after) (settled : Settled db) :
    Settled after := by
  have unfinished : after.finished = false := by
    rw [Database.finished, closes.receipts]
    exact settled.not_finished closes.holds
  obtain ⟨change, ends, attempts⟩ := closes.attempts
  have closed : ∀ other row, (db.attempts.modify key change).get other = some row →
      row.status.isOpen = false :=
    fun other row => settled.closed_after closes.holds ends
  refine settled_of_unfinished unfinished ?_
  rcases attempts with same | ⟨retry, new, inserted⟩
  · intro first second firstRow secondRow isFirst firstOpen
    rw [same] at isFirst
    exact absurd (closed first firstRow isFirst) (by simp [firstOpen])
  · exact oneOpen_insert closed inserted

/-- The leases of other executions are not touched. -/
theorem Closes.keeps {after : Database} (closes : Closes db token key after) {other : LeaseToken}
    {otherKey : AttemptKey} (different : other ≠ token) (holds : holdsLease db other otherKey = true) :
    holdsLease after other otherKey = true := by
  obtain ⟨row, found, lease, sending⟩ := holdsLease_iff.mp holds
  obtain ⟨mine, isMine, myLease, -⟩ := holdsLease_iff.mp closes.holds
  have apart : otherKey ≠ key := by
    rintro rfl
    rw [found] at isMine
    cases isMine
    exact different (by simpa [lease] using myLease)
  obtain ⟨change, ends, attempts⟩ := closes.attempts
  have kept : (db.attempts.modify key change).get otherKey = some row := by
    rw [Table.get_modify_of_ne _ _ apart, found]
  refine holdsLease_iff.mpr ⟨row, ?_, lease, sending⟩
  rcases attempts with same | ⟨retry, new, inserted⟩
  · rw [same, kept]
  · rw [Table.get_insert? inserted, if_neg, kept]
    rintro rfl
    rw [Table.get_of_insert? inserted] at kept
    cases kept

theorem Sound.finish {state : State} (sound : Sound state) {token : LeaseToken} {execution : Execution}
    {after : Option Database} (closes : ∀ db, after = some db → Closes state.db token execution.key db) :
    Sound (state.finish token after) where
  settled := by
    cases after with
    | none => exact sound.settled
    | some db => exact (closes db rfl).settled sound.settled
  held := by
    intro other otherExecution found
    rw [State.finish, Table.get_filter, Option.filter_eq_some_iff] at found
    have holds := sound.held other otherExecution found.1
    cases after with
    | none => exact holds
    | some db => exact (closes db rfl).keeps (by simpa using found.2) holds
  sends := sound.sends

end Attempts

/-! ## The other steps -/

section Steps

variable {policy : Policy} {state : State}

theorem Sound.claimed (sound : Sound state) {token : LeaseToken} {key : AttemptKey} {db : Database}
    {execution : Execution} {executions : Table LeaseToken Execution}
    (claims : claimPendingAttempt policy state.db key token = some (db, execution))
    (inserted : state.executions.insert? token execution = some executions) :
    Sound { state with db, executions } := by
  unfold claimPendingAttempt at claims
  split at claims
  · cases claims
  · rename_i row found
    split at claims
    · rename_i due
      simp only [Option.some.injEq, Prod.mk.injEq] at claims
      obtain ⟨rfl, rfl⟩ := claims
      -- a pending attempt was open before, and stays the only open one
      have before : ∀ other after, (state.db.attempts.modify key fun row : Attempt =>
          { row with status := .sending, leaseToken := some token }).get other = some after →
          after.status.isOpen = true →
          ∃ row, state.db.attempts.get other = some row ∧ row.status.isOpen = true := by
        intro other after isAfter isOpen
        rw [Table.get_modify] at isAfter
        split at isAfter
        · rename_i same
          exact ⟨row, same ▸ found, by simp [due.1, AttemptStatus.isOpen]⟩
        · exact ⟨after, isAfter, isOpen⟩
      have unfinished : state.db.finished = false := by
        by_contra finished
        have closed := idle_iff.mp (sound.settled.closed (by simpa using finished)) key row found
        simp [due.1, AttemptStatus.isOpen] at closed
      refine ⟨settled_of_unfinished unfinished ?_, ?_, sound.sends⟩
      · intro first second firstRow secondRow isFirst firstOpen isSecond secondOpen
        obtain ⟨firstBefore, wasFirst, firstWasOpen⟩ := before first firstRow isFirst firstOpen
        obtain ⟨secondBefore, wasSecond, secondWasOpen⟩ := before second secondRow isSecond secondOpen
        exact sound.settled.oneOpen first second _ _ wasFirst firstWasOpen wasSecond secondWasOpen
      · intro other otherExecution isOther
        rw [Table.get_insert? inserted] at isOther
        split at isOther
        · cases isOther
          rename_i same
          refine holdsLease_iff.mpr ⟨{ row with status := .sending, leaseToken := some token }, ?_, ?_, rfl⟩
          · simp [found]
          · rw [same]
        · obtain ⟨held, isHeld, lease, sending⟩ := holdsLease_iff.mp (sound.held other otherExecution isOther)
          have apart : otherExecution.key ≠ key := by
            intro same
            rw [same, found] at isHeld
            cases isHeld
            rw [due.1] at sending
            cases sending
          refine holdsLease_iff.mpr ⟨held, ?_, lease, sending⟩
          rw [Table.get_modify_of_ne _ _ apart, isHeld]
    · cases claims

theorem Sound.inserted (sound : Sound state) {request : Request} (requests : Table Nat Request)
    (orderly : state.db.attempts.get ⟨request.requestIdempotencyKey, 1⟩ = none →
      state.db.idle = true ∧ state.db.finished = false) :
    Sound { state with db := insertIntegrationHandoffDispatchAttempt state.db request, requests } := by
  unfold insertIntegrationHandoffDispatchAttempt
  dsimp only
  split
  · rename_i attempts inserted
    obtain ⟨idle, unfinished⟩ := orderly (Table.get_of_insert? inserted)
    refine ⟨settled_of_unfinished unfinished (oneOpen_insert (idle_iff.mp idle) inserted), ?_, sound.sends⟩
    intro token execution found
    obtain ⟨row, isRow, lease, sending⟩ := holdsLease_iff.mp (sound.held token execution found)
    refine holdsLease_iff.mpr ⟨row, ?_, lease, sending⟩
    rw [Table.get_insert? inserted, if_neg, isRow]
    rintro same
    rw [same, Table.get_of_insert? inserted] at isRow
    cases isRow
  · exact ⟨sound.settled, sound.held, sound.sends⟩

/-- A receipt is new and sets the status, or was there and changes nothing. -/
theorem record_cases {db after : Database} {input : CallbackInput} {verified : Option String}
    (records : recordIntegrationHandoffReceipt db input verified = some after) :
    after = db ∨ db.receipts.insert? input.receiptId input.receipt = some after.receipts ∧
      after.attempts = db.attempts ∧ after.handoff.status = input.status.toHandoff := by
  have recorded : recordIntegrationHandoffReceipt.record db input = some after := by
    unfold recordIntegrationHandoffReceipt at records
    split at records
    · split at records
      · exact records
      · cases records
    · exact records
  unfold recordIntegrationHandoffReceipt.record at recorded
  split at recorded
  · rename_i receipts inserted
    cases recorded
    exact .inr ⟨inserted, rfl, rfl⟩
  · split at recorded
    · split at recorded
      · exact .inl (Option.some.inj recorded).symm
      · cases recorded
    · cases recorded

theorem Sound.recorded (sound : Sound state) {input : CallbackInput} {verified : Option String}
    (orderly : Orderly state (.callback input verified)) {db : Database}
    (records : recordIntegrationHandoffReceipt state.db input verified = some db) :
    Sound { state with db } := by
  rcases record_cases records with rfl | ⟨inserted, attempts, status⟩
  · exact sound
  · obtain ⟨whileIdle, unfinished⟩ := orderly (Table.get_of_insert? inserted)
    have idle : db.idle = state.db.idle := by rw [Database.idle, attempts, Database.idle]
    have finished : db.finished = (state.db.finished || input.status.final) := by
      rw [Database.finished, Table.rows_insert? inserted]
      simp [Database.finished, CallbackInput.receipt]
    refine ⟨⟨?_, ?_, ?_⟩, ?_, sound.sends⟩
    · rw [attempts]
      exact sound.settled.oneOpen
    · intro isFinished
      rw [finished, Bool.or_eq_true] at isFinished
      rw [idle]
      exact isFinished.elim sound.settled.closed whileIdle
    · intro isFinished
      rw [status]
      cases final : input.status.final with
      | true => cases received : input.status <;> simp_all [ReceiptStatus.final, ReceiptStatus.toHandoff]
      | false =>
        rw [finished, final, unfinished final] at isFinished
        cases isFinished
    · intro token execution found
      rw [holdsLease, attempts]
      exact sound.held token execution found

theorem Sound.step (sound : Sound state) {action : Action} (orderly : Orderly state action) :
    Sound (step policy state action) := by
  cases action with
  | tick duration =>
    exact ⟨⟨sound.settled.oneOpen, sound.settled.closed, sound.settled.status⟩, sound.held, sound.sends⟩
  | readHandoff session requestIdempotencyKey requestedBy input =>
    simp only [Integration.step]
    split
    · split
      · exact ⟨sound.settled, sound.held, sound.sends⟩
      · exact sound
    · exact sound
  | insertAttempt session =>
    simp only [Integration.step]
    split
    · rename_i request found
      exact sound.inserted _ (orderly request found)
    · exact sound
  | claim token key =>
    simp only [Integration.step]
    split
    · rename_i db execution claims
      split
      · rename_i executions inserted
        exact sound.claimed claims inserted
      · exact sound
    · exact sound
  | send token =>
    simp only [Integration.step]
    split
    · rename_i execution found
      split
      · exact sound
      · split
        · refine ⟨sound.settled, ?_, ?_⟩
          · intro other otherExecution isOther
            rw [Table.get_modify] at isOther
            split at isOther
            · obtain ⟨before, isBefore, rfl⟩ := Option.map_eq_some_iff.mp isOther
              exact sound.held other before isBefore
            · exact sound.held other otherExecution isOther
          · intro send member
            rcases List.mem_append.mp member with before | here
            · exact sound.sends send before
            · rw [List.mem_singleton.mp here]
              exact sound.settled.not_finished (sound.held token execution found)
        · exact sound.finish fun db done => closes_failed done
    · exact sound
  | complete token decision =>
    simp only [Integration.step]
    split
    · rename_i execution found
      split
      · exact sound.finish fun db done => closes_completed done
      · exact sound
    · exact sound
  | callback input verified =>
    simp only [Integration.step]
    cases records : recordIntegrationHandoffReceipt state.db input verified with
    | none => exact sound
    | some db => exact sound.recorded orderly records

theorem sound_created (handoff : Handoff) : Sound (created handoff) where
  settled := ⟨by simp [created], by simp [created, Database.finished, Table.empty],
    by simp [created, Database.finished, Table.empty]⟩
  held := by simp [Held, created]
  sends := by simp [created]

end Steps

/-- In every run in which attempts are inserted and the end is reported only while no
attempt is under way, a finished handoff stays finished. -/
theorem finished_handoff_stays_finished (policy : Policy) (handoff : Handoff) (actions : List Action)
    (meets : Along (step policy) Orderly (created handoff) actions) :
    Throughout (step policy) StaysFinished (created handoff) actions := by
  have sound : Throughout (step policy) Sound (created handoff) actions :=
    throughout_keeps (fun _ _ orderly sound => sound.step orderly) meets (sound_created handoff)
  exact fun first begins => (sound first begins).staysFinished

/-! ## One job -/

def payslips : Handoff where
  id := "handoff-1"
  tenantId := "tenant-1"
  providerAlias := "payroll"
  jobRef := "jobs/payslips"
  payloadRef := "artifact://payslips"

def threeAttempts : Policy := ⟨3, 60000⟩

/-- An attempt is requested, claimed and sent. -/
def sendFirst : List Action :=
  [.readHandoff 1 "key-1" "operator" { endpointSecretRef := "secret://payroll", allowedHosts := ["payroll.test"] },
    .insertAttempt 1, .claim 7 ⟨"key-1", 1⟩, .send 7]

/-- The provider reports that the job is done. -/
def reportsDone : Action := .callback { externalJobId := "ext-1", status := .completed, receiptId := "r-1" } none

/-- The provider answers the request. -/
def answers : Action := .complete 7 (.accepted "a-1" 202 (some "ext-1"))

/-- The provider answers before it reports. -/
theorem finished_handoff_stays_finished_payslips :
    Throughout (step threeAttempts) StaysFinished (created payslips) (sendFirst ++ [answers, reportsDone]) := by
  refine finished_handoff_stays_finished threeAttempts payslips _ ⟨trivial, ?_, trivial, trivial, trivial, ?_, trivial⟩
  · intro request _ _
    decide +kernel
  · intro _
    decide +kernel

/-- The report comes before the answer, and the answer takes it back. -/
theorem late_answer_reopens_handoff :
    (exec (step threeAttempts) (created payslips) (sendFirst ++ [reportsDone, answers])).db.finished = true ∧
      (exec (step threeAttempts) (created payslips)
        (sendFirst ++ [reportsDone, answers])).db.handoff.status = .accepted ∧
      ¬ StaysFinished (exec (step threeAttempts) (created payslips) (sendFirst ++ [reportsDone, answers])) := by
  have finished : (exec (step threeAttempts) (created payslips)
      (sendFirst ++ [reportsDone, answers])).db.finished = true := by decide +kernel
  have status : (exec (step threeAttempts) (created payslips)
      (sendFirst ++ [reportsDone, answers])).db.handoff.status = .accepted := by decide +kernel
  refine ⟨finished, status, fun stays => ?_⟩
  have kept := stays.status finished
  rw [status] at kept
  rcases kept with same | same <;> cases same

end RpaEnterprise.Integration
