import RpaEnterprise.Pipeline.SinkDelivery

/-!
# Replays of dead-lettered deliveries

A replay reads the dead letter, enqueues a `sink_deliver` job and marks the dead
letter as requeued, in one transaction under `READ COMMITTED`.  The `SELECT`
takes no lock, and the marking `UPDATE` does not count its rows.  It holds the
row until the commit, so it is one step with the commit.  A single replay runs
under its idempotency key; a replay of all dead letters lists them first and
runs one transaction for each.
-/

namespace RpaEnterprise.Pipeline.DeadLetterReplay

open Lib SinkDelivery

/-- A row of `sink_deliveries`, with the columns a replay reads or writes. -/
structure DeadLetter where
  tenantId : String
  normalizedRecordId : String
  sinkConfigId : String
  status : DeliveryStatus
  requeuedAt : Option Int
deriving Repr, DecidableEq

/-- `status = 'dead_letter' AND requeued_at IS NULL`, of the tenant. -/
def DeadLetter.eligible (row : DeadLetter) (tenantId : String) : Bool :=
  row.tenantId = tenantId && row.status = .deadLetter && row.requeuedAt.isNone

/-- A `sink_deliver` job; the dead letter it was enqueued for is not part of its
payload. -/
structure Job where
  tenantId : String
  normalizedRecordId : String
  sinkConfigId : String
  deadLetterId : String
deriving Repr, DecidableEq

inductive KeyStatus where
  | processing | succeeded | failed
deriving Repr, DecidableEq

/-- A row of `control_plane_idempotency_keys` for this endpoint; the request hash
is that of the path, which names the dead letter. -/
structure KeyRow where
  deadLetterId : String
  status : KeyStatus
deriving Repr, DecidableEq

/-- The counts of a replay of all dead letters. -/
structure Tally where
  attempted : Nat
  replayed : Nat
  conflicts : Nat
  truncated : Bool
deriving Repr, DecidableEq

inductive Origin where
  | single (key : String)
  /-- The dead letters that are still to be replayed, and the counts so far. -/
  | all (rest : List String) (tally : Tally)
deriving Repr, DecidableEq

structure Replay where
  tenantId : String
  deadLetterId : String
  origin : Origin
deriving Repr, DecidableEq

inductive Answer where
  | enqueued (deadLetterId : String)
  | tally (tally : Tally)
  | stored (status : KeyStatus)
  | notFound
  | inFlight
  | hashMismatch
  | internalError
deriving Repr, DecidableEq

inductive Call where
  | idle
  /-- The next transaction is that of the dead letter. -/
  | ready (replay : Replay)
  | selected (replay : Replay) (job : Job)
  | enqueued (replay : Replay) (job : Job)
  | answered (answer : Answer)

/-- The transaction of a call that has read its dead letter. -/
def Call.transaction : Call → Option (Replay × Job)
  | .selected replay job | .enqueued replay job => some (replay, job)
  | _ => none

/-- The dead letter a transaction has read. -/
def Call.reading (call : Call) : Option String := call.transaction.map fun open_ => open_.1.deadLetterId

structure System where
  rows : Table String DeadLetter
  keys : Table (String × String) KeyRow
  jobs : List Job
  calls : Nat → Call

def System.start (rows : Table String DeadLetter) : System := ⟨rows, .empty, [], fun _ => .idle⟩

def System.move (system : System) (call : Nat) (place : Call) : System :=
  { system with calls := Function.update system.calls call place }

/-! ## Steps -/

/-- The cap of a replay of all dead letters. -/
def cap : Nat := 500

/-- `reserve` for the key; an expired reservation is taken over. -/
def reserve (system : System) (call : Nat) (tenantId key deadLetterId : String) (expired : Bool) : System :=
  let ready : Call := .ready ⟨tenantId, deadLetterId, .single key⟩
  match system.keys.get (tenantId, key) with
  | none =>
    { system.move call ready with
      keys := system.keys.put (tenantId, key) ⟨deadLetterId, .processing⟩ }
  | some row =>
    if row.deadLetterId ≠ deadLetterId then system.move call (.answered .hashMismatch)
    else if row.status = .processing then
      system.move call (if expired then ready else .answered .inFlight)
    else system.move call (.answered (.stored row.status))

/-- The first transaction of a replay of all dead letters. -/
def eligibleIds (system : System) (tenantId : String) : List String :=
  (system.rows.rows.filter fun entry => entry.2.eligible tenantId).map Prod.fst

/-- What is left after one dead letter of a batch. -/
def continue_ (tenantId : String) : List String → Tally → Call
  | [], tally => .answered (.tally tally)
  | id :: rest, tally => .ready ⟨tenantId, id, .all rest tally⟩

def list (system : System) (call : Nat) (tenantId : String) : System :=
  let ids := (eligibleIds system tenantId).take (cap + 1)
  let batch := ids.take cap
  system.move call (continue_ tenantId batch ⟨batch.length, 0, 0, cap < ids.length⟩)

/-- `RESOURCE_NOT_FOUND`: stored under the key, or counted as a conflict. -/
def reject (system : System) (call : Nat) (replay : Replay) : System :=
  match replay.origin with
  | .single key =>
    { system.move call (.answered .notFound) with
      keys := system.keys.modify (replay.tenantId, key) fun row => { row with status := .failed } }
  | .all rest tally =>
    system.move call (continue_ replay.tenantId rest { tally with conflicts := tally.conflicts + 1 })

def select (system : System) (call : Nat) (replay : Replay) : System :=
  match (system.rows.get replay.deadLetterId).filter (·.eligible replay.tenantId) with
  | some row =>
    system.move call (.selected replay
      ⟨replay.tenantId, row.normalizedRecordId, row.sinkConfigId, replay.deadLetterId⟩)
  | none => reject system call replay

/-- `UPDATE … SET requeued_at = now() WHERE … AND requeued_at IS NULL`. -/
def mark (rows : Table String DeadLetter) (replay : Replay) (now : Int) : Table String DeadLetter :=
  rows.modify replay.deadLetterId fun row =>
    if row.eligible replay.tenantId then { row with requeuedAt := some now } else row

/-- The marking `UPDATE`, the record of the key and the commit. -/
def commit (system : System) (call : Nat) (replay : Replay) (job : Job) (now : Int) : System :=
  let written : System := { system with rows := mark system.rows replay now, jobs := system.jobs ++ [job] }
  match replay.origin with
  | .single key =>
    { written.move call (.answered (.enqueued replay.deadLetterId)) with
      keys := system.keys.modify (replay.tenantId, key) fun row => { row with status := .succeeded } }
  | .all rest tally =>
    written.move call (continue_ replay.tenantId rest { tally with replayed := tally.replayed + 1 })

inductive Action where
  | reserve (call : Nat) (tenantId key deadLetterId : String) (expired : Bool)
  | list (call : Nat) (tenantId : String)
  | select (call : Nat)
  | enqueue (call : Nat)
  | commit (call : Nat) (now : Int)
  /-- The call fails; a transaction it is in is rolled back. -/
  | fail (call : Nat)

def step (system : System) : Action → System
  | .reserve call tenantId key deadLetterId expired =>
    match system.calls call with
    | .idle | .answered _ => DeadLetterReplay.reserve system call tenantId key deadLetterId expired
    | _ => system
  | .list call tenantId =>
    match system.calls call with
    | .idle | .answered _ => DeadLetterReplay.list system call tenantId
    | _ => system
  | .select call =>
    match system.calls call with
    | .ready replay => DeadLetterReplay.select system call replay
    | _ => system
  | .enqueue call =>
    match system.calls call with
    | .selected replay job => system.move call (.enqueued replay job)
    | _ => system
  | .commit call now =>
    match system.calls call with
    | .enqueued replay job => DeadLetterReplay.commit system call replay job now
    | _ => system
  | .fail call => system.move call (.answered .internalError)

/-! ## One job for a dead letter -/

def SingleShot (system : System) : Prop :=
  ∀ id, system.jobs.countP (fun job => job.deadLetterId = id) ≤ 1

/-- A transaction reads its dead letter while no other one that has read it is
still open. -/
def Alone (system : System) : Action → Prop
  | .select call =>
    match system.calls call with
    | .ready replay =>
      ∀ other, other ≠ call → (system.calls other).reading ≠ some replay.deadLetterId
    | _ => True
  | _ => True

/-- What an action can do to the system. -/
inductive Effect (system : System) : Action → System → Prop
  | refused (action : Action) : Effect system action system
  /-- The call gets to a place where it has read no dead letter. -/
  | rests (action : Action) (call : Nat) (place : Call) (keys : Table (String × String) KeyRow)
      (free : place.reading = none) : Effect system action { system.move call place with keys }
  | selects (call : Nat) (replay : Replay) (row : DeadLetter) (job : Job)
      (before : system.calls call = .ready replay)
      (stored : system.rows.get replay.deadLetterId = some row)
      (eligible : row.eligible replay.tenantId = true) (named : job.deadLetterId = replay.deadLetterId) :
      Effect system (.select call) (system.move call (.selected replay job))
  | enqueues (call : Nat) (replay : Replay) (job : Job) (before : system.calls call = .selected replay job) :
      Effect system (.enqueue call) (system.move call (.enqueued replay job))
  | commits (call : Nat) (replay : Replay) (job : Job) (now : Int) (place : Call)
      (keys : Table (String × String) KeyRow) (before : system.calls call = .enqueued replay job)
      (free : place.reading = none) :
      Effect system (.commit call now)
        { rows := mark system.rows replay now
          keys
          jobs := system.jobs ++ [job]
          calls := Function.update system.calls call place }

theorem continue_reading (tenantId : String) (rest : List String) (tally : Tally) :
    (continue_ tenantId rest tally).reading = none := by
  cases rest <;> rfl

theorem reserve_effect (system : System) (action : Action) (call : Nat) (tenantId key deadLetterId : String)
    (expired : Bool) : Effect system action (reserve system call tenantId key deadLetterId expired) := by
  unfold reserve
  dsimp only
  split
  · exact .rests _ _ _ _ rfl
  · split
    · exact .rests _ _ _ _ rfl
    · split
      · cases expired
        · exact .rests _ _ _ _ rfl
        · exact .rests _ _ _ _ rfl
      · exact .rests _ _ _ _ rfl

theorem select_effect (system : System) {call : Nat} {replay : Replay}
    (before : system.calls call = .ready replay) :
    Effect system (.select call) (select system call replay) := by
  unfold select
  split
  · rename_i row found
    rw [Option.filter_eq_some_iff] at found
    exact .selects call replay row _ before found.1 found.2 rfl
  · unfold reject
    split
    · exact .rests _ _ _ _ rfl
    · exact .rests _ _ _ _ (continue_reading _ _ _)

theorem commit_effect (system : System) {call : Nat} {replay : Replay} {job : Job} (now : Int)
    (before : system.calls call = .enqueued replay job) :
    Effect system (.commit call now) (commit system call replay job now) := by
  unfold commit
  dsimp only
  split
  · exact .commits call replay job now _ _ before rfl
  · exact .commits call replay job now _ _ before (continue_reading _ _ _)

theorem step_effect (system : System) (action : Action) : Effect system action (step system action) := by
  cases action with
  | reserve call tenantId key deadLetterId expired =>
    simp only [step]
    split
    · exact reserve_effect system _ call tenantId key deadLetterId expired
    · exact reserve_effect system _ call tenantId key deadLetterId expired
    · exact .refused _
  | list call tenantId =>
    simp only [step]
    split
    · exact .rests _ _ _ _ (continue_reading _ _ _)
    · exact .rests _ _ _ _ (continue_reading _ _ _)
    · exact .refused _
  | select call =>
    simp only [step]
    split
    · rename_i replay before
      exact select_effect system before
    · exact .refused _
  | enqueue call =>
    simp only [step]
    split
    · rename_i replay job before
      exact .enqueues call replay job before
    · exact .refused _
  | commit call now =>
    simp only [step]
    split
    · rename_i replay job before
      exact commit_effect system now before
    · exact .refused _
  | fail call => exact .rests _ _ _ _ rfl

/-- A dead letter that was read is still eligible and has no job. -/
structure Readable (system : System) (replay : Replay) (job : Job) : Prop where
  named : job.deadLetterId = replay.deadLetterId
  fresh : ∀ other ∈ system.jobs, other.deadLetterId ≠ replay.deadLetterId
  stored : ∃ row, system.rows.get replay.deadLetterId = some row ∧ row.eligible replay.tenantId = true

structure Sound (system : System) : Prop where
  sole : ∀ one two id, (system.calls one).reading = some id → (system.calls two).reading = some id → one = two
  reads : ∀ call replay job, (system.calls call).transaction = some (replay, job) → Readable system replay job
  spent : ∀ job ∈ system.jobs, ∀ row tenantId, system.rows.get job.deadLetterId = some row →
    row.eligible tenantId = false
  once : SingleShot system

theorem reading_of_transaction {call : Call} {replay : Replay} {job : Job}
    (open_ : call.transaction = some (replay, job)) : call.reading = some replay.deadLetterId := by
  rw [Call.reading, open_]
  rfl

theorem transaction_of_not_reading {call : Call} (free : call.reading = none) : call.transaction = none := by
  rwa [Call.reading, Option.map_eq_none_iff] at free

/-- A call that stays in its transaction, or is in none. -/
theorem Sound.move {system : System} (sound : Sound system) {call : Nat} {place : Call}
    (keys : Table (String × String) KeyRow)
    (stays : place.transaction = none ∨ place.transaction = (system.calls call).transaction) :
    Sound { system.move call place with keys } := by
  have before : ∀ other open_, (Function.update system.calls call place other).transaction = some open_ →
      (system.calls other).transaction = some open_ := by
    intro other open_ now
    rw [Function.update_apply] at now
    split at now
    · rename_i same
      subst same
      rcases stays with none | stays
      · rw [none] at now
        cases now
      · rwa [stays] at now
    · exact now
  have reading : ∀ other id, (Function.update system.calls call place other).reading = some id →
      (system.calls other).reading = some id := by
    intro other id now
    obtain ⟨open_, found, rfl⟩ := Option.map_eq_some_iff.mp now
    exact Option.map_eq_some_iff.mpr ⟨open_, before other open_ found, rfl⟩
  refine ⟨fun one two id first second => ?_, fun other replay job now => ?_, sound.spent, sound.once⟩
  · exact sound.sole one two id (reading one id first) (reading two id second)
  · obtain ⟨named, fresh, stored⟩ := sound.reads other replay job (before other _ now)
    exact ⟨named, fresh, stored⟩

theorem Sound.select {system : System} (sound : Sound system) {call : Nat} {replay : Replay}
    {row : DeadLetter} {job : Job} (stored : system.rows.get replay.deadLetterId = some row)
    (eligible : row.eligible replay.tenantId = true) (named : job.deadLetterId = replay.deadLetterId)
    (alone : ∀ other, other ≠ call → (system.calls other).reading ≠ some replay.deadLetterId) :
    Sound (system.move call (.selected replay job)) := by
  have fresh : ∀ other ∈ system.jobs, other.deadLetterId ≠ replay.deadLetterId := by
    intro other member same
    rw [← same] at stored
    rw [sound.spent other member row _ stored] at eligible
    cases eligible
  refine ⟨fun one two id first second => ?_, fun other replay' job' now => ?_, sound.spent, sound.once⟩
  · simp only [System.move, Function.update_apply] at first second
    split at first
    · rename_i here
      cases first
      split at second
      · rename_i there
        exact here.trans there.symm
      · rename_i apart
        exact absurd second (alone two apart)
    · rename_i apart
      split at second
      · cases second
        exact absurd first (alone one apart)
      · exact sound.sole one two id first second
  · simp only [System.move, Function.update_apply] at now
    split at now
    · cases now
      exact ⟨named, fresh, row, stored, eligible⟩
    · obtain ⟨named', fresh', stored'⟩ := sound.reads other replay' job' now
      exact ⟨named', fresh', stored'⟩

theorem get_mark (rows : Table String DeadLetter) (replay : Replay) (now : Int) (id : String) :
    (mark rows replay now).get id =
      if id = replay.deadLetterId then
        (rows.get id).map fun row =>
          if row.eligible replay.tenantId then { row with requeuedAt := some now } else row
      else rows.get id :=
  Table.get_modify rows _ _ id

theorem Sound.commit {system : System} (sound : Sound system) {call : Nat} {replay : Replay} {job : Job}
    {place : Call} (now : Int) (keys : Table (String × String) KeyRow)
    (before : system.calls call = .enqueued replay job) (free : place.reading = none) :
    Sound { rows := mark system.rows replay now, keys, jobs := system.jobs ++ [job]
            calls := Function.update system.calls call place } := by
  obtain ⟨named, fresh, row, stored, eligible⟩ := sound.reads call replay job (before ▸ rfl)
  have reading : (system.calls call).reading = some replay.deadLetterId := by
    rw [before]
    rfl
  have old : ∀ other id, (Function.update system.calls call place other).reading = some id →
      other ≠ call ∧ (system.calls other).reading = some id := by
    intro other id now
    rw [Function.update_apply] at now
    split at now
    · rw [free] at now
      cases now
    · rename_i apart
      exact ⟨apart, now⟩
  refine ⟨fun one two id first second => ?_, fun other replay' job' now' => ?_, ?_, fun id => ?_⟩
  · exact sound.sole one two id (old one id first).2 (old two id second).2
  · -- the other transactions have read other dead letters
    obtain ⟨apart, still⟩ := old other _ (reading_of_transaction now')
    have different : replay'.deadLetterId ≠ replay.deadLetterId := by
      intro same
      exact apart (sound.sole other call _ (same ▸ still) reading)
    dsimp only at now'
    rw [Function.update_of_ne apart] at now'
    obtain ⟨named', fresh', row', stored', eligible'⟩ := sound.reads other replay' job' now'
    refine ⟨named', fun job'' member => ?_, row', ?_, eligible'⟩
    · rcases List.mem_append.mp member with among | last
      · exact fresh' job'' among
      · rw [List.mem_singleton.mp last, named]
        exact fun same => different same.symm
    · rw [get_mark, if_neg different]
      exact stored'
  · intro job' member row' tenantId found
    dsimp only at found
    rw [get_mark] at found
    split at found
    · rename_i same
      rw [same, stored, Option.map_some, if_pos eligible] at found
      cases found
      simp [DeadLetter.eligible]
    · rename_i apart
      rcases List.mem_append.mp member with among | last
      · exact sound.spent job' among row' tenantId found
      · rw [List.mem_singleton.mp last, named] at apart
        exact absurd rfl apart
  · rw [List.countP_append, List.countP_singleton]
    split
    · rename_i own
      have none : system.jobs.countP (fun job => job.deadLetterId = id) = 0 := by
        rw [List.countP_eq_zero]
        intro other member same
        rw [decide_eq_true_eq] at own same
        exact fresh other member (same.trans (own.symm.trans named))
      omega
    · exact sound.once id

theorem Sound.step {system : System} {action : Action} (alone : Alone system action) (sound : Sound system) :
    Sound (step system action) := by
  have effect := step_effect system action
  generalize DeadLetterReplay.step system action = next at effect
  cases effect with
  | refused => exact sound
  | rests _ call place keys free => exact sound.move keys (.inl (transaction_of_not_reading free))
  | selects call replay row job before stored eligible named =>
    simp only [Alone, before] at alone
    exact sound.select stored eligible named alone
  | enqueues call replay job before =>
    exact sound.move system.keys (.inr (by rw [before]; rfl))
  | commits call replay job now place keys before free => exact sound.commit now keys before free

theorem start_sound (rows : Table String DeadLetter) : Sound (.start rows) where
  sole one two id reading := by cases reading
  reads call replay job open_ := by cases open_
  spent job member := by cases member
  once id := Nat.zero_le 1

/-- In a run whose transactions read a dead letter only while no other one that
has read it is open, each dead letter gets at most one job. -/
theorem replays_of_run (rows : Table String DeadLetter) (schedule : List Action)
    (alone : Along step Alone (.start rows) schedule) : SingleShot (exec step (.start rows) schedule) :=
  (exec_keeps (fun _ _ => Sound.step) alone (start_sound rows)).once

/-! ## Two replays -/

def deadLetters : Table String DeadLetter :=
  ⟨[("delivery-1", ⟨"tenant-1", "record-1", "sink-1", .deadLetter, none⟩)], by simp⟩

/-- Two replays of a dead letter, of which the second reads it after the first is committed. -/
def replayedInTurn : List Action :=
  [.reserve 0 "tenant-1" "key-1" "delivery-1" false, .reserve 1 "tenant-1" "key-2" "delivery-1" false,
    .select 0, .enqueue 0, .commit 0 1, .select 1, .list 2 "tenant-1"]

theorem replays_of_run_apart :
    Along step Alone (.start deadLetters) replayedInTurn ∧
      SingleShot (exec step (.start deadLetters) replayedInTurn) := by
  have alone : Along step Alone (.start deadLetters) replayedInTurn := by
    refine ⟨trivial, trivial, fun other apart => ?_, trivial, trivial, fun other apart => ?_, trivial, trivial⟩
    · by_cases second : other = 1
      · subst second
        decide
      · have idle : (exec step (.start deadLetters) (replayedInTurn.take 2)).calls other = .idle :=
          (Function.update_of_ne second _ _).trans (Function.update_of_ne apart _ _)
        intro reading
        cases (congrArg Call.reading idle).symm.trans reading
    · by_cases first : other = 0
      · subst first
        decide
      · have reserved : (exec step (.start deadLetters) (replayedInTurn.take 2)).calls other = .idle :=
          (Function.update_of_ne apart _ _).trans (Function.update_of_ne first _ _)
        have idle : (exec step (.start deadLetters) (replayedInTurn.take 5)).calls other = .idle :=
          (Function.update_of_ne first _ _).trans ((Function.update_of_ne first _ _).trans
            ((Function.update_of_ne first _ _).trans reserved))
        intro reading
        cases (congrArg Call.reading idle).symm.trans reading
  exact ⟨alone, replays_of_run deadLetters _ alone⟩

/-- Two replays with different keys both read the dead letter before either is
committed. -/
theorem concurrent_replays_enqueue_twice :
    ¬ SingleShot (exec step (.start deadLetters)
      [.reserve 0 "tenant-1" "key-1" "delivery-1" false, .reserve 1 "tenant-1" "key-2" "delivery-1" false,
        .select 0, .select 1, .enqueue 0, .enqueue 1, .commit 0 1, .commit 1 2]) := by
  intro once
  exact absurd (once "delivery-1") (by decide)

end RpaEnterprise.Pipeline.DeadLetterReplay
