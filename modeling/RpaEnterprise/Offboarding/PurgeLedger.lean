import RpaEnterprise.Lib.Execution
import RpaEnterprise.Lib.Table

/-!
# Requests to purge a tenant

The ledger `tenant_offboarding_requests` of one tenant.  One principal requests, another
decides, anyone may cancel up to the start, and a purge job takes the request that is
due and deletes rows of the tenant.  A command reads its request and writes it with two
statements; a write names the status it expects, so it comes to nothing when the status
has changed in between.  The history of the ledger is kept beside it.
-/

namespace RpaEnterprise.Offboarding

open Lib

abbrev Time := Nat

inductive RequestStatus where
  | pending
  | approved
  | rejected
  | cancelled
  | purging
  | purged
deriving Repr, DecidableEq

def RequestStatus.active : RequestStatus → Bool
  | .pending | .approved | .purging => true
  | .rejected | .cancelled | .purged => false

/-- A row of `tenant_offboarding_requests`. -/
structure Request where
  status : RequestStatus := .pending
  requestedBy : String
  decidedBy : Option String := none
  decidedAt : Option Time := none
  purgeAfter : Option Time := none
  purgedAt : Option Time := none
deriving Repr, DecidableEq

inductive Event where
  | approved (id : Nat) (decidedBy : String) (purgeAfter : Time)
  | rejected (id : Nat) (decidedBy : String)
  | cancelled (id : Nat)
  /-- The request moved to `purging`. -/
  | started (id : Nat) (instant : Time)
  /-- A row of the tenant was deleted. -/
  | deleted (id : Nat)
deriving Repr, DecidableEq

def Event.request : Event → Nat
  | .approved id _ _ => id
  | .rejected id _ => id
  | .cancelled id => id
  | .started id _ => id
  | .deleted id => id

inductive Verdict where
  | approved
  | rejected
deriving Repr, DecidableEq

/-- A `decide` command whose request was pending, by another principal. -/
structure DecideCommand where
  requestId : Nat
  verdict : Verdict
  principal : String
  startedAt : Time
deriving Repr, DecidableEq

/-- A purge job; its first transaction has begun, or it has its request. -/
inductive PurgeJob where
  | opened (startedAt : Time)
  | claimed (ledgerId : Nat)
deriving Repr, DecidableEq

structure State where
  now : Time := 0
  requests : Table Nat Request := .empty
  decisions : Table Nat DecideCommand := .empty
  /-- The `cancel` commands whose request could be cancelled. -/
  cancellations : Table Nat Nat := .empty
  jobs : Table Nat PurgeJob := .empty
  history : List Event := []
deriving Repr, DecidableEq

inductive Action where
  | tick (ms : Nat)
  | create (id : Nat) (requestedBy : String)
  /-- The `SELECT` and the check of a `decide` command. -/
  | decide (command requestId : Nat) (verdict : Verdict) (principal : String)
  /-- Its `UPDATE`. -/
  | writeDecision (command graceMs : Nat)
  | cancel (command requestId : Nat)
  | writeCancellation (command : Nat)
  | openPurge (job : Nat)
  | claimLedger (job : Nat)
  | deleteRow (job : Nat)
  | finalizePurge (job : Nat)
  | stopPurge (job : Nat)
deriving Repr, DecidableEq

namespace State

def drop {Row : Type} (table : Table Nat Row) (id : Nat) : Table Nat Row :=
  table.filter fun other _ => other ≠ id

/-- Some request is active: the next one violates `uq_tenant_offboarding_active`. -/
def hasActive (state : State) : Bool := state.requests.rows.any fun entry => entry.2.status.active

def create (state : State) (id : Nat) (requestedBy : String) : State :=
  if state.hasActive then state
  else match state.requests.insert? id { requestedBy } with
    | some requests => { state with requests }
    | none => state

def decide (state : State) (command requestId : Nat) (verdict : Verdict) (principal : String) : State :=
  match state.requests.get requestId with
  | some row =>
    if row.status ≠ .pending ∨ row.requestedBy = principal ∨ (state.decisions.get command).isSome then state
    else { state with
      decisions := state.decisions.put command ⟨requestId, verdict, principal, state.now⟩ }
  | none => state

/-- A status is written where the row has one that the statement expects. -/
def transition (state : State) (id : Nat) (expected : Request → Bool) (change : Request → Request)
    (event : Event) : State :=
  match state.requests.get id with
  | some row =>
    if expected row then
      { state with requests := state.requests.modify id change, history := event :: state.history }
    else state
  | none => state

def writeDecision (state : State) (command : DecideCommand) (graceMs : Nat) : State :=
  match command.verdict with
  | .approved =>
    state.transition command.requestId (·.status = .pending)
      (fun row => { row with
        status := .approved, decidedBy := some command.principal, decidedAt := some command.startedAt
        purgeAfter := some (command.startedAt + graceMs) })
      (.approved command.requestId command.principal (command.startedAt + graceMs))
  | .rejected =>
    state.transition command.requestId (·.status = .pending)
      (fun row => { row with
        status := .rejected, decidedBy := some command.principal, decidedAt := some command.startedAt })
      (.rejected command.requestId command.principal)

def cancellable (row : Request) : Bool := row.status = .pending ∨ row.status = .approved

def cancel (state : State) (command requestId : Nat) : State :=
  if (state.requests.get requestId).any cancellable then
    { state with cancellations := state.cancellations.put command requestId }
  else state

def writeCancellation (state : State) (requestId : Nat) : State :=
  state.transition requestId cancellable (fun row => { row with status := .cancelled }) (.cancelled requestId)

/-- Approved, and the time of grace is over. -/
def due (row : Request) (now : Time) : Bool := row.status = .approved ∧ row.purgeAfter.any (· ≤ now)

/-- The request that is due moves to `purging`; one that is purging is taken up again. -/
def claimLedger (state : State) (job : Nat) (startedAt : Time) : State :=
  match state.requests.find? fun _ row => row.status = .purging ∨ due row startedAt with
  | some (id, row) =>
    { state with
      requests := state.requests.modify id fun row => { row with status := .purging }
      jobs := state.jobs.put job (.claimed id)
      history := if row.status = .purging then state.history else .started id state.now :: state.history }
  | none => { state with jobs := drop state.jobs job }

def finalizePurge (state : State) (job ledgerId : Nat) : State :=
  { state with
    requests := state.requests.modify ledgerId fun row =>
      if row.status = .purging then { row with status := .purged, purgedAt := some state.now } else row
    jobs := drop state.jobs job }

end State

def step (state : State) : Action → State
  | .tick ms => { state with now := state.now + ms }
  | .create id requestedBy => state.create id requestedBy
  | .decide command requestId verdict principal => state.decide command requestId verdict principal
  | .writeDecision id graceMs =>
    match state.decisions.get id with
    | some command => { state.writeDecision command graceMs with decisions := State.drop state.decisions id }
    | none => state
  | .cancel command requestId => state.cancel command requestId
  | .writeCancellation id =>
    match state.cancellations.get id with
    | some requestId =>
      { state.writeCancellation requestId with cancellations := State.drop state.cancellations id }
    | none => state
  | .openPurge job =>
    if (state.jobs.get job).isSome then state
    else { state with jobs := state.jobs.put job (.opened state.now) }
  | .claimLedger job =>
    match state.jobs.get job with
    | some (.opened startedAt) => state.claimLedger job startedAt
    | _ => state
  | .deleteRow job =>
    match state.jobs.get job with
    | some (.claimed ledgerId) => { state with history := .deleted ledgerId :: state.history }
    | _ => state
  | .finalizePurge job =>
    match state.jobs.get job with
    | some (.claimed ledgerId) => state.finalizePurge job ledgerId
    | _ => state
  | .stopPurge job => { state with jobs := State.drop state.jobs job }

/-! ## The property -/

/-- Approved by another principal, and purged when the time of grace was over. -/
def Cleared (history : List Event) (id : Nat) (requestedBy : String) : Prop :=
  ∃ decidedBy purgeAfter started, decidedBy ≠ requestedBy ∧ .approved id decidedBy purgeAfter ∈ history ∧
    .started id started ∈ history ∧ purgeAfter ≤ started

def Unrevoked (history : List Event) (id : Nat) : Prop :=
  (∀ decidedBy, .rejected id decidedBy ∉ history) ∧ .cancelled id ∉ history

/-- Rows are deleted for requests that two principals agreed on, in time, and that were
neither rejected nor cancelled, and one request at most is active. -/
structure FourEyes (state : State) : Prop where
  deleted : ∀ id, .deleted id ∈ state.history →
    ∃ row, state.requests.get id = some row ∧ Cleared state.history id row.requestedBy ∧
      Unrevoked state.history id
  active : ∀ id other one two, state.requests.get id = some one → state.requests.get other = some two →
    one.status.active = true → two.status.active = true → id = other

/-! ## The invariant -/

/-- What the status of a request says of its history. -/
structure Request.Sound (row : Request) (id : Nat) (history : List Event) : Prop where
  undeleted : row.status ≠ .purging → row.status ≠ .purged → .deleted id ∉ history
  unrevoked : row.status ≠ .rejected → row.status ≠ .cancelled → Unrevoked history id
  approved : row.status = .approved → ∃ decidedBy purgeAfter, decidedBy ≠ row.requestedBy ∧
    row.purgeAfter = some purgeAfter ∧ .approved id decidedBy purgeAfter ∈ history
  cleared : row.status = .purging ∨ row.status = .purged → Cleared history id row.requestedBy

structure Guarded (state : State) : Prop where
  requests : ∀ id row, state.requests.get id = some row → row.Sound id state.history
  recorded : ∀ event ∈ state.history, (state.requests.get event.request).isSome = true
  decisions : ∀ key command, state.decisions.get key = some command →
    ∃ row, state.requests.get command.requestId = some row ∧ command.principal ≠ row.requestedBy
  jobs : ∀ key id, state.jobs.get key = some (.claimed id) →
    ∃ row, state.requests.get id = some row ∧ (row.status = .purging ∨ row.status = .purged)
  opened : ∀ key startedAt, state.jobs.get key = some (.opened startedAt) → startedAt ≤ state.now
  active : ∀ id other one two, state.requests.get id = some one → state.requests.get other = some two →
    one.status.active = true → two.status.active = true → id = other

theorem Guarded.fourEyes {state : State} (guarded : Guarded state) : FourEyes state where
  deleted id deleted := by
    have known := guarded.recorded _ deleted
    obtain ⟨row, stored⟩ := Option.isSome_iff_exists.mp known
    have sound := guarded.requests id row stored
    have ended : row.status = .purging ∨ row.status = .purged := by
      by_contra other
      exact sound.undeleted (not_or.mp other).1 (not_or.mp other).2 deleted
    refine ⟨row, stored, sound.cleared ended, sound.unrevoked ?_ ?_⟩
    · rcases ended with same | same <;> rw [same] <;> nofun
    · rcases ended with same | same <;> rw [same] <;> nofun
  active := guarded.active

theorem Unrevoked.append {history extra : List Event} {id : Nat} (unrevoked : Unrevoked history id)
    (others : ∀ event ∈ extra, event.request = id → (∃ decidedBy purgeAfter, event = .approved id decidedBy purgeAfter) ∨
      (∃ instant, event = .started id instant) ∨ event = .deleted id) : Unrevoked (extra ++ history) id := by
  constructor
  · intro decidedBy listed
    rcases List.mem_append.mp listed with new | old
    · rcases others _ new rfl with ⟨_, _, same⟩ | ⟨_, same⟩ | same <;> cases same
    · exact unrevoked.1 decidedBy old
  · intro listed
    rcases List.mem_append.mp listed with new | old
    · rcases others _ new rfl with ⟨_, _, same⟩ | ⟨_, same⟩ | same <;> cases same
    · exact unrevoked.2 old

theorem Cleared.append {history : List Event} {id : Nat} {requestedBy : String}
    (cleared : Cleared history id requestedBy) (extra : List Event) :
    Cleared (extra ++ history) id requestedBy := by
  obtain ⟨decidedBy, purgeAfter, started, other, approved, moved, passed⟩ := cleared
  exact ⟨decidedBy, purgeAfter, started, other, List.mem_append_right _ approved,
    List.mem_append_right _ moved, passed⟩

/-- Events of other requests change nothing. -/
theorem Request.Sound.append {row : Request} {id : Nat} {history extra : List Event}
    (sound : row.Sound id history) (others : ∀ event ∈ extra, event.request ≠ id) :
    row.Sound id (extra ++ history) where
  undeleted notPurging notPurged listed := by
    rcases List.mem_append.mp listed with new | old
    · exact others _ new rfl
    · exact sound.undeleted notPurging notPurged old
  unrevoked notRejected notCancelled :=
    (sound.unrevoked notRejected notCancelled).append fun event new same => absurd same (others event new)
  approved status := by
    obtain ⟨decidedBy, purgeAfter, other, kept, approved⟩ := sound.approved status
    exact ⟨decidedBy, purgeAfter, other, kept, List.mem_append_right _ approved⟩
  cleared status := (sound.cleared status).append extra

namespace Guarded

variable {state : State}

/-- One request is written, with the events that are about it. -/
theorem write (guarded : Guarded state) {id : Nat} {row : Request} {change : Request → Request}
    {extra : List Event} (stored : state.requests.get id = some row)
    (about : ∀ event ∈ extra, event.request = id) (sound : (change row).Sound id (extra ++ state.history))
    (requester : (change row).requestedBy = row.requestedBy)
    (active : (change row).status.active = true → row.status.active = true)
    (ended : row.status = .purging ∨ row.status = .purged →
      (change row).status = .purging ∨ (change row).status = .purged) :
    Guarded { state with requests := state.requests.modify id change, history := extra ++ state.history } := by
  have rows {other : Nat} {found : Request} (there : (state.requests.modify id change).get other = some found) :
      (other = id ∧ found = change row) ∨ (other ≠ id ∧ state.requests.get other = some found) := by
    rw [Table.get_modify] at there
    split at there
    next same =>
      rw [same, stored, Option.map_some, Option.some.injEq] at there
      exact .inl ⟨same, there.symm⟩
    next different => exact .inr ⟨different, there⟩
  have still {other : Nat} {found : Request} (there : state.requests.get other = some found) :
      ∃ new, (state.requests.modify id change).get other = some new ∧ new.requestedBy = found.requestedBy ∧
        (found.status = .purging ∨ found.status = .purged → new.status = .purging ∨ new.status = .purged) := by
    rw [Table.get_modify]
    split
    next same =>
      subst same
      obtain rfl := Option.some.inj (stored.symm.trans there)
      exact ⟨change row, by rw [stored, Option.map_some], requester, ended⟩
    next => exact ⟨found, there, rfl, fun status => status⟩
  refine ⟨fun other found there => ?_, fun event listed => ?_, fun key command listed => ?_,
    fun key other listed => ?_, guarded.opened, fun first second one two storedOne storedTwo activeOne activeTwo => ?_⟩
  · rcases rows there with ⟨rfl, rfl⟩ | ⟨different, earlier⟩
    · exact sound
    · exact (guarded.requests other found earlier).append fun event new same =>
        different (same.symm.trans (about event new))
  · have known : (state.requests.get event.request).isSome = true := by
      rcases List.mem_append.mp listed with new | old
      · rw [about event new, stored]
        rfl
      · exact guarded.recorded event old
    obtain ⟨found, there⟩ := Option.isSome_iff_exists.mp known
    obtain ⟨new, now, -⟩ := still there
    exact Option.isSome_of_eq_some now
  · obtain ⟨found, there, different⟩ := guarded.decisions key command listed
    obtain ⟨new, now, same, -⟩ := still there
    exact ⟨new, now, same ▸ different⟩
  · obtain ⟨found, there, status⟩ := guarded.jobs key other listed
    obtain ⟨new, now, -, keeps⟩ := still there
    exact ⟨new, now, keeps status⟩
  · have before {other : Nat} {found : Request}
        (there : (state.requests.modify id change).get other = some found)
        (isActive : found.status.active = true) :
        ∃ old, state.requests.get other = some old ∧ old.status.active = true := by
      rcases rows there with ⟨rfl, rfl⟩ | ⟨-, earlier⟩
      · exact ⟨row, stored, active isActive⟩
      · exact ⟨found, earlier, isActive⟩
    obtain ⟨oldOne, earlierOne, activeOne⟩ := before storedOne activeOne
    obtain ⟨oldTwo, earlierTwo, activeTwo⟩ := before storedTwo activeTwo
    exact guarded.active first second oldOne oldTwo earlierOne earlierTwo activeOne activeTwo

/-- The commands and jobs in progress may be fewer, or others that the rows allow. -/
theorem withSessions (guarded : Guarded state) {decisions : Table Nat DecideCommand}
    {cancellations : Table Nat Nat} {jobs : Table Nat PurgeJob} {now : Time}
    (decided : ∀ key command, decisions.get key = some command →
      ∃ row, state.requests.get command.requestId = some row ∧ command.principal ≠ row.requestedBy)
    (claimed : ∀ key id, jobs.get key = some (.claimed id) →
      ∃ row, state.requests.get id = some row ∧ (row.status = .purging ∨ row.status = .purged))
    (opened : ∀ key startedAt, jobs.get key = some (.opened startedAt) → startedAt ≤ now) :
    Guarded { state with now, decisions, cancellations, jobs } :=
  ⟨guarded.requests, guarded.recorded, decided, claimed, opened, guarded.active⟩

theorem create (guarded : Guarded state) (id : Nat) (requestedBy : String) :
    Guarded (state.create id requestedBy) := by
  unfold State.create
  split
  · exact guarded
  next none =>
    split
    next requests inserted =>
      have absent := Table.get_of_insert? inserted
      have inactive {other : Nat} {row : Request} (there : state.requests.get other = some row) :
          row.status.active = false := by
        by_contra active
        refine none (List.any_eq_true.mpr ⟨(other, row), Table.get_eq_some_iff.mp there, ?_⟩)
        simpa using active
      have unheard (event : Event) (listed : event ∈ state.history) : event.request ≠ id := by
        intro same
        have known := guarded.recorded event listed
        rw [same, absent] at known
        cases known
      have kept {other : Nat} {row : Request} (there : state.requests.get other = some row) :
          requests.get other = some row := by
        rw [Table.get_insert? inserted, if_neg]
        · exact there
        · rintro rfl
          cases absent.symm.trans there
      refine ⟨fun other row there => ?_, fun event listed => ?_, fun key command listed => ?_,
        fun key other listed => ?_, guarded.opened, fun first second one two storedOne storedTwo activeOne activeTwo => ?_⟩
      · rw [Table.get_insert? inserted] at there
        split at there
        next same =>
          subst same
          cases there
          refine ⟨fun _ _ listed => unheard _ listed rfl, fun _ _ => ⟨fun _ listed => unheard _ listed rfl,
            fun listed => unheard _ listed rfl⟩, ?_, ?_⟩
          · intro approved
            cases approved
          · rintro (status | status) <;> cases status
        next => exact guarded.requests other row there
      · obtain ⟨row, there⟩ := Option.isSome_iff_exists.mp (guarded.recorded event listed)
        exact Option.isSome_of_eq_some (kept there)
      · obtain ⟨row, there, different⟩ := guarded.decisions key command listed
        exact ⟨row, kept there, different⟩
      · obtain ⟨row, there, status⟩ := guarded.jobs key other listed
        exact ⟨row, kept there, status⟩
      · have new {other : Nat} {row : Request} (there : requests.get other = some row)
            (active : row.status.active = true) : other = id := by
          rw [Table.get_insert? inserted] at there
          split at there
          · assumption
          · cases (inactive there).symm.trans active
        exact (new storedOne activeOne).trans (new storedTwo activeTwo).symm
    next => exact guarded

theorem transition (guarded : Guarded state) {id : Nat} {expected : Request → Bool}
    {change : Request → Request} {event : Event} (about : event.request = id)
    (sound : ∀ row, state.requests.get id = some row → expected row = true →
      (change row).Sound id (event :: state.history))
    (requester : ∀ row, (change row).requestedBy = row.requestedBy)
    (early : ∀ row, expected row = true →
      row.status.active = true ∧ row.status ≠ .purging ∧ row.status ≠ .purged) :
    Guarded (state.transition id expected change event) := by
  unfold State.transition
  split
  next row stored =>
    split
    next expects =>
      obtain ⟨active, notPurging, notPurged⟩ := early row expects
      refine @write state guarded id row change [event] stored (by simpa using about) (sound row stored expects)
        (requester row) (fun _ => active) ?_
      rintro (status | status)
      · exact absurd status notPurging
      · exact absurd status notPurged
    next => exact guarded
  next => exact guarded

theorem writeDecision (guarded : Guarded state) {key : Nat} {command : DecideCommand}
    (listed : state.decisions.get key = some command) (graceMs : Nat) :
    Guarded (state.writeDecision command graceMs) := by
  obtain ⟨found, there, different⟩ := guarded.decisions key command listed
  have pending (row : Request) (expects : decide (row.status = .pending) = true) :
      row.status.active = true ∧ row.status ≠ .purging ∧ row.status ≠ .purged := by
    rw [of_decide_eq_true expects]
    exact ⟨rfl, nofun, nofun⟩
  unfold State.writeDecision
  split
  all_goals
    refine guarded.transition rfl (fun row stored expects => ?_) (fun _ => rfl) pending
    obtain rfl := Option.some.inj (there.symm.trans stored)
    have status := of_decide_eq_true expects
    have sound := guarded.requests _ found there
    have undeleted := sound.undeleted (status ▸ nofun) (status ▸ nofun)
  · refine ⟨fun _ _ deleted => undeleted (by simpa using deleted), fun _ _ => ?_, fun _ => ?_, ?_⟩
    · refine @Unrevoked.append state.history [_] _ (sound.unrevoked (status ▸ nofun) (status ▸ nofun)) ?_
      intro event new _
      exact .inl ⟨_, _, List.mem_singleton.mp new⟩
    · exact ⟨_, _, different, rfl, List.mem_cons_self⟩
    · rintro (ended | ended) <;> cases ended
  · refine ⟨fun _ _ deleted => undeleted (by simpa using deleted), fun stays => absurd rfl stays, nofun, ?_⟩
    rintro (ended | ended) <;> cases ended

theorem writeCancellation (guarded : Guarded state) (requestId : Nat) :
    Guarded (state.writeCancellation requestId) := by
  have early (row : Request) (expects : State.cancellable row = true) :
      row.status.active = true ∧ row.status ≠ .purging ∧ row.status ≠ .purged := by
    rcases of_decide_eq_true expects with status | status <;> rw [status] <;> exact ⟨rfl, nofun, nofun⟩
  refine guarded.transition rfl (fun row stored expects => ?_) (fun _ => rfl) early
  obtain ⟨-, notPurging, notPurged⟩ := early row expects
  refine ⟨fun _ _ deleted => ?_, fun _ stays => absurd rfl stays, nofun, ?_⟩
  · exact (guarded.requests _ row stored).undeleted notPurging notPurged (by simpa using deleted)
  · rintro (ended | ended) <;> cases ended

/-- The request of a job was approved by another principal and is due. -/
theorem claimLedger (guarded : Guarded state) {job : Nat} {startedAt : Time}
    (listed : state.jobs.get job = some (.opened startedAt)) : Guarded (state.claimLedger job startedAt) := by
  have started := guarded.opened job startedAt listed
  unfold State.claimLedger
  split
  next id row found =>
    obtain ⟨stored, meets⟩ := Table.find?_some found
    have sound := guarded.requests id row stored
    have claimed : Guarded { state with
        requests := state.requests.modify id fun row => { row with status := .purging }
        history := if row.status = .purging then state.history else .started id state.now :: state.history } := by
      by_cases resumed : row.status = .purging
      · rw [if_pos resumed]
        refine @write state guarded id row _ [] stored (by simp) ?_ rfl (fun _ => by rw [resumed]; rfl)
          (fun _ => .inl rfl)
        exact ⟨fun stays => absurd rfl stays, fun _ _ => sound.unrevoked (resumed ▸ nofun) (resumed ▸ nofun),
          nofun, fun _ => sound.cleared (.inl resumed)⟩
      · rw [if_neg resumed]
        have due := (of_decide_eq_true meets).resolve_left resumed
        simp only [State.due, decide_eq_true_eq, Option.any_eq_true] at due
        obtain ⟨status, purgeAfter, kept, passed⟩ := due
        obtain ⟨decidedBy, stated, different, same, approved⟩ := sound.approved status
        obtain rfl := Option.some.inj (kept.symm.trans same)
        refine @write state guarded id row _ [.started id state.now] stored (by simp [Event.request]) ?_ rfl
          (fun _ => by rw [status]; rfl) (fun _ => .inl rfl)
        refine ⟨fun stays => absurd rfl stays, fun _ _ => ?_, nofun, fun _ => ?_⟩
        · refine (sound.unrevoked (status ▸ nofun) (status ▸ nofun)).append fun event new _ => ?_
          exact .inr (.inl ⟨_, List.mem_singleton.mp new⟩)
        · exact ⟨decidedBy, purgeAfter, state.now, different, List.mem_cons_of_mem _ approved,
            List.mem_cons_self, passed.trans started⟩
    refine claimed.withSessions claimed.decisions (fun key other among => ?_) fun key began among => ?_
    · rw [Table.get_put] at among
      split at among
      · cases among
        exact ⟨_, by rw [Table.get_modify_self, stored, Option.map_some], .inl rfl⟩
      · exact claimed.jobs key other among
    · rw [Table.get_put] at among
      split at among
      · cases among
      · exact guarded.opened key began among
  next =>
    exact guarded.withSessions guarded.decisions
      (fun key id among => guarded.jobs key id (Table.get_of_get_filter_ne among).1)
      fun key began among => guarded.opened key began (Table.get_of_get_filter_ne among).1

theorem deleteRow (guarded : Guarded state) {job id : Nat} (listed : state.jobs.get job = some (.claimed id)) :
    Guarded { state with history := .deleted id :: state.history } := by
  obtain ⟨row, stored, status⟩ := guarded.jobs job id listed
  have sound := guarded.requests id row stored
  have written := @write state guarded id row (fun row => row) [.deleted id] stored (by simp [Event.request]) ?_
    rfl (fun active => active) (fun ended => ended)
  · rw [Table.modify_id fun _ _ => rfl] at written
    exact written
  · refine ⟨fun notPurging notPurged => ?_, fun notRejected notCancelled => ?_, fun approved => ?_, fun _ => ?_⟩
    · exact absurd status (not_or.mpr ⟨notPurging, notPurged⟩)
    · refine (sound.unrevoked notRejected notCancelled).append fun event new _ => ?_
      exact .inr (.inr (List.mem_singleton.mp new))
    · rw [approved] at status
      rcases status with same | same <;> cases same
    · exact (sound.cleared status).append [.deleted id]

theorem finalizePurge (guarded : Guarded state) {job id : Nat} (listed : state.jobs.get job = some (.claimed id)) :
    Guarded (state.finalizePurge job id) := by
  obtain ⟨row, stored, status⟩ := guarded.jobs job id listed
  have sound := guarded.requests id row stored
  have written := @write state guarded id row (fun row =>
      if row.status = .purging then { row with status := .purged, purgedAt := some state.now } else row) []
    stored (by simp) ?_ (by split <;> rfl) ?_ ?_
  · exact written.withSessions written.decisions
      (fun key other among => written.jobs key other (Table.get_of_get_filter_ne among).1)
      fun key began among => guarded.opened key began (Table.get_of_get_filter_ne among).1
  · split
    next purging =>
      exact ⟨fun _ stays => absurd rfl stays, fun _ _ => sound.unrevoked (purging ▸ nofun) (purging ▸ nofun),
        nofun, fun _ => sound.cleared status⟩
    next => exact sound
  · split
    next purging => exact fun _ => by rw [purging]; rfl
    next => exact fun active => active
  · split
    next => exact fun _ => .inr rfl
    next => exact fun ended => ended

theorem initial : Guarded {} where
  requests id row stored := by cases stored
  recorded event listed := by cases listed
  decisions key command listed := by cases listed
  jobs key id listed := by cases listed
  opened key startedAt listed := by cases listed
  active id other one two stored := by cases stored

theorem step (guarded : Guarded state) (action : Action) : Guarded (step state action) := by
  cases action with
  | tick ms =>
    exact guarded.withSessions guarded.decisions guarded.jobs fun key began listed =>
      (guarded.opened key began listed).trans (Nat.le_add_right _ _)
  | create id requestedBy => exact guarded.create id requestedBy
  | decide command requestId verdict principal =>
    rw [Offboarding.step, State.decide]
    split
    next row stored =>
      split
      · exact guarded
      next other =>
        refine guarded.withSessions (fun key found listed => ?_) guarded.jobs guarded.opened
        rw [Table.get_put] at listed
        split at listed
        · cases listed
          exact ⟨row, stored, fun same => other (.inr (.inl same.symm))⟩
        · exact guarded.decisions key found listed
    next => exact guarded
  | writeDecision id graceMs =>
    rw [Offboarding.step]
    split
    next command listed =>
      have written := guarded.writeDecision listed graceMs
      have same : (state.writeDecision command graceMs).decisions = state.decisions := by
        unfold State.writeDecision State.transition
        repeat' split
        all_goals rfl
      refine written.withSessions (fun key found among => ?_) written.jobs written.opened
      exact written.decisions key found (same ▸ (Table.get_of_get_filter_ne among).1)
    next => exact guarded
  | cancel command requestId =>
    rw [Offboarding.step, State.cancel]
    split
    · exact guarded.withSessions guarded.decisions guarded.jobs guarded.opened
    · exact guarded
  | writeCancellation id =>
    rw [Offboarding.step]
    split
    next requestId _ =>
      have written := guarded.writeCancellation requestId
      exact written.withSessions written.decisions written.jobs written.opened
    next => exact guarded
  | openPurge job =>
    rw [Offboarding.step]
    split
    · exact guarded
    · refine guarded.withSessions guarded.decisions (fun key id listed => ?_) fun key began listed => ?_
      · rw [Table.get_put] at listed
        split at listed
        · cases listed
        · exact guarded.jobs key id listed
      · rw [Table.get_put] at listed
        split at listed
        · cases listed
          exact le_rfl
        · exact guarded.opened key began listed
  | claimLedger job =>
    rw [Offboarding.step]
    split
    next startedAt listed => exact guarded.claimLedger listed
    next => exact guarded
  | deleteRow job =>
    rw [Offboarding.step]
    split
    next ledgerId listed => exact guarded.deleteRow listed
    next => exact guarded
  | finalizePurge job =>
    rw [Offboarding.step]
    split
    next ledgerId listed => exact guarded.finalizePurge listed
    next => exact guarded
  | stopPurge job =>
    exact guarded.withSessions guarded.decisions
      (fun key id listed => guarded.jobs key id (Table.get_of_get_filter_ne listed).1)
      fun key began listed => guarded.opened key began (Table.get_of_get_filter_ne listed).1

end Guarded

/-- In every interleaving of the commands and the purge jobs, rows of the tenant are
deleted only for a request that another principal approved, that was due when it moved
to `purging` and that was neither rejected nor cancelled, and one request at most is
active. -/
theorem four_eyes_purge (schedule : List Action) : Throughout step FourEyes {} schedule :=
  throughout_invariant Guarded (fun _ action guarded => guarded.step action) (fun _ guarded => guarded.fourEyes)
    Guarded.initial schedule

end RpaEnterprise.Offboarding
