import RpaEnterprise.Runtime.Transitions

/-!
# Checkouts of workitems

`pauseLinkedWorkitemCheckout` and `resumeLinkedWorkitemCheckout` stop and restart
the checkout timer of the workitem a run is linked to, and skip one that is not
`processing`.  The sweeper takes overdue workitems away from their runs.  Each of
them has one lemma that says everything it can do.
-/

namespace RpaEnterprise.Runtime

open Lib

/-! ## The checkout timer -/

def assertExactPendingKinds (pending kinds : List SideEffectCmd) : DbTx Unit :=
  if (∀ cmd ∈ pending, cmd ∈ kinds) ∧ (∀ kind ∈ kinds, kind ∈ pending) then pure ()
  else throw .unexpectedPending

/-- `runs.workitem_id`. -/
def Db.linkedWorkitem (db : Db) (runId : RunId) : Option WorkitemId :=
  (db.runs.get runId).bind RunRow.workitemId

/-- W9's write: pausing twice keeps the first instant. -/
def WorkitemRow.pauseCheckout (now : Time) (row : WorkitemRow) : WorkitemRow :=
  if row.status = .processing ∧ row.checkoutPausedAt = none then
    { row with checkoutPausedAt := some now }
  else row

/-- W11's write: the expiry moves by the time spent paused. -/
def WorkitemRow.resumeCheckout (now : Time) (row : WorkitemRow) : WorkitemRow :=
  match row.checkoutPausedAt with
  | some paused =>
    if row.status = .processing then
      { row with
        checkoutExpiresAt := row.checkoutExpiresAt.map fun expires => expires + (now - paused)
        checkoutPausedAt := none }
    else row
  | none => row

/-- A write to the workitem a run is linked to, if it is linked to one. -/
def Db.modifyLinked (db : Db) (runId : RunId) (change : WorkitemRow → WorkitemRow) : Db :=
  match db.linkedWorkitem runId with
  | none => db
  | some workitemId => { db with workitems := db.workitems.modify workitemId change }

/-- The common body of W9 and W11: a self-transition of a `processing`
workitem, then the write to its timer columns. -/
def applyTimerTransition (runId : RunId) (event : WorkitemEvent) (timer : SideEffectCmd)
    (change : Time → WorkitemRow → WorkitemRow) : DbTx Unit := do
  let db ← get
  match db.linkedWorkitem runId with
  | none => pure ()
  | some workitemId => do
    let outcome ← applyWorkitemTransition
      { workitemId, fromStatus := .processing, event, guard := {}, runId := some runId,
        workerId := none, anchor := .workitemTimer workitemId }
    match outcome with
    | .casConflict _ => pure ()
    | .applied _ pending => do
      assertExactPendingKinds pending [timer]
      modify fun db => { db with workitems := db.workitems.modify workitemId (change db.now) }

def pauseLinkedWorkitemCheckout (runId : RunId) : DbTx Unit :=
  applyTimerTransition runId .runSuspended .pauseCheckoutTimer WorkitemRow.pauseCheckout

def resumeLinkedWorkitemCheckout (runId : RunId) : DbTx Unit :=
  applyTimerTransition runId .runResumed .resumeCheckoutTimer WorkitemRow.resumeCheckout

/-- A self-transition of a `processing` workitem rewrites its row to itself. -/
theorem enterWorkitem_self {db : Db} {ctx : WorkitemTransitionContext} {timer : SideEffectCmd}
    (status : db.workitemStatus ctx.workitemId = some .processing)
    (fields : ∀ field, SideEffectCmd.setField field ≠ timer)
    (counted : ¬ (ctx.event = .systemException ∨ ctx.event = .checkoutExpired)) :
    db.enterWorkitem ctx ⟨.processing, [timer]⟩ = db := by
  have same : (db.workitems.modify ctx.workitemId fun row =>
      row.enter db.now ctx ⟨.processing, [timer]⟩) = db.workitems := by
    refine Table.modify_id fun row found => ?_
    have processing : row.status = .processing := by
      simpa [Db.workitemStatus, found] using status
    simp [WorkitemRow.enter, fields, counted, ← processing]
  simp [Db.enterWorkitem, same]

/-- A timer transition never throws: it writes the columns of a `processing`
workitem and leaves any other one alone. -/
theorem applyTimerTransition_ok {runId : RunId} {event : WorkitemEvent} {timer : SideEffectCmd}
    {change : Time → WorkitemRow → WorkitemRow} {db next : Db} {done : Unit}
    (isPending : rowPending [timer] = [timer]) (noEvents : emitEvents [timer] = [])
    (fields : ∀ field, SideEffectCmd.setField field ≠ timer)
    (counted : ¬ (event = .systemException ∨ event = .checkoutExpired))
    (selfLoop : transitionWorkitem .processing event {} = .ok ⟨.processing, [timer]⟩)
    (skips : ∀ now row, row.status ≠ .processing → change now row = row) :
    (applyTimerTransition runId event timer change).run db = .ok (done, next) ↔
      next = db.modifyLinked runId (change db.now) := by
  simp only [applyTimerTransition, Db.modifyLinked, Tx.bind_ok, Tx.get_ok]
  cases linked : db.linkedWorkitem runId with
  | none =>
    constructor
    · rintro ⟨_, _, ⟨rfl, rfl⟩, ran⟩
      simpa [linked] using ran
    · rintro rfl
      exact ⟨next, next, ⟨rfl, rfl⟩, by simp [linked]⟩
  | some workitemId =>
    have noRows (ctx : WorkitemTransitionContext) : ctx.rows ⟨.processing, [timer]⟩ = [] := by
      simp [WorkitemTransitionContext.rows, noEvents]
    have emitNone (store : Db) : store.emit [] = store := by simp [Db.emit]
    have noneFresh (outbox : List OutboxRow) : FreshKeys [] outbox := by simp [FreshKeys]
    have checked : assertExactPendingKinds [timer] [timer] = pure () := by
      simp [assertExactPendingKinds]
    by_cases status : db.workitemStatus workitemId = some .processing
    · have applied (outcome : TransitionOutcome WorkitemState) (store : Db) :
          (applyWorkitemTransition
            { workitemId, fromStatus := .processing, event, guard := {}, runId := some runId,
              workerId := none, anchor := .workitemTimer workitemId }).run db = .ok (outcome, store) ↔
            outcome = .applied .processing [timer] ∧ store = db := by
        rw [applyWorkitemTransition_ok]
        simp only [selfLoop, Except.ok.injEq, exists_eq_left', noRows, emitNone, noneFresh, isPending,
          status, List.mem_singleton, fields, false_and, not_false_eq_true, true_and, ne_eq,
          not_true_eq_false, or_false]
        rw [enterWorkitem_self status fields counted]
      constructor
      · rintro ⟨_, _, ⟨rfl, rfl⟩, ran⟩
        simp only [linked, Tx.bind_ok, applied] at ran
        obtain ⟨_, _, ⟨rfl, rfl⟩, ran⟩ := ran
        simpa [checked, Tx.bind_ok] using ran
      · rintro rfl
        refine ⟨db, db, ⟨rfl, rfl⟩, ?_⟩
        simp only [linked, Tx.bind_ok, applied]
        exact ⟨_, _, ⟨rfl, rfl⟩, by simp [checked]⟩
    · have conflict (outcome : TransitionOutcome WorkitemState) (store : Db) :
          (applyWorkitemTransition
            { workitemId, fromStatus := .processing, event, guard := {}, runId := some runId,
              workerId := none, anchor := .workitemTimer workitemId }).run db = .ok (outcome, store) ↔
            outcome = .casConflict (db.workitemStatus workitemId) ∧ store = db := by
        rw [applyWorkitemTransition_ok]
        simp [selfLoop, status, fields]
      have unchanged : db.workitems.modify workitemId (change db.now) = db.workitems := by
        refine Table.modify_id fun row found => skips _ _ fun processing => status ?_
        simp [Db.workitemStatus, found, processing]
      constructor
      · rintro ⟨_, _, ⟨rfl, rfl⟩, ran⟩
        simp only [linked, Tx.bind_ok, conflict] at ran
        obtain ⟨_, _, ⟨rfl, rfl⟩, ran⟩ := ran
        obtain ⟨_, rfl⟩ := Tx.pure_ok.mp ran
        simp [unchanged]
      · rintro rfl
        refine ⟨db, db, ⟨rfl, rfl⟩, ?_⟩
        simp only [linked, Tx.bind_ok, conflict]
        exact ⟨_, _, ⟨rfl, rfl⟩, by simp [unchanged]⟩

theorem pauseLinkedWorkitemCheckout_ok {runId : RunId} {db next : Db} {done : Unit} :
    (pauseLinkedWorkitemCheckout runId).run db = .ok (done, next) ↔
      next = db.modifyLinked runId (WorkitemRow.pauseCheckout db.now) :=
  applyTimerTransition_ok rfl rfl (by simp) (by simp) rfl fun _ row idle => by
    simp [WorkitemRow.pauseCheckout, idle]

theorem resumeLinkedWorkitemCheckout_ok {runId : RunId} {db next : Db} {done : Unit} :
    (resumeLinkedWorkitemCheckout runId).run db = .ok (done, next) ↔
      next = db.modifyLinked runId (WorkitemRow.resumeCheckout db.now) :=
  applyTimerTransition_ok rfl rfl (by simp) (by simp) rfl fun _ row idle => by
    cases paused : row.checkoutPausedAt <;> simp [WorkitemRow.resumeCheckout, idle, paused]

/-! ## The sweeper -/

/-- `WORKITEM_CHECKOUT_TIMEOUT_MS`. -/
def workitemCheckoutTimeoutMs : Nat := 10 * 60 * 1000

/-- `WORKITEM_MAX_ATTEMPTS`. -/
def workitemMaxAttempts : Nat := 3

def insertWorkitemDeadLetter (row : DeadLetterRow) : DbTx Unit :=
  modify fun db => { db with deadLetters := db.deadLetters ++ [row] }

/-- The sweeper's `WHERE`. -/
def WorkitemRow.checkoutExpired (row : WorkitemRow) (now : Time) : Bool :=
  row.status = .processing ∧ row.checkoutPausedAt = none ∧ row.checkoutExpiresAt.any (· < now)

/-- The run of a workitem, by the unique `runs.workitem_id`. -/
def Db.runOf (db : Db) (workitemId : WorkitemId) : Option RunId :=
  (db.runs.rows.find? fun entry => entry.2.workitemId = some workitemId).map Prod.fst

/-- The transition of an expired checkout. -/
def checkoutExpiredContext (workitemId : WorkitemId) (attempts : Nat) (runId : Option RunId) :
    WorkitemTransitionContext :=
  { workitemId, fromStatus := .processing, event := .checkoutExpired
    guard := { attemptsBelowMax := some (decide (attempts + 1 < workitemMaxAttempts)) }
    runId, workerId := none, anchor := .checkoutExpired workitemId attempts }

/-- W6 or W7 for one workitem of the sweep. -/
def expireCheckout (workitemId : WorkitemId) (attempts : Nat) (runId : Option RunId) : DbTx Unit := do
  let outcome ← applyWorkitemTransition (checkoutExpiredContext workitemId attempts runId)
  match outcome with
  | .applied .abandoned _ => insertWorkitemDeadLetter ⟨workitemId, runId, "DEAD_LETTER"⟩
  | _ => pure ()

def expireCheckouts : List (WorkitemId × Nat × Option RunId) → DbTx Unit
  | [] => pure ()
  | (workitemId, attempts, runId) :: rest => do
    expireCheckout workitemId attempts runId
    expireCheckouts rest

/-- The expired workitems that are not locked by another transaction. -/
def Db.expiredCheckouts (db : Db) (locked : List WorkitemId) :
    List (WorkitemId × Nat × Option RunId) :=
  (db.workitems.rows.filter fun entry => entry.2.checkoutExpired db.now ∧ entry.1 ∉ locked).map
    fun entry => (entry.1, entry.2.attempts, db.runOf entry.1)

/-- `handleWorkitemCheckoutSweeper`; `locked` are the rows `SKIP LOCKED` passes over. -/
def handleWorkitemCheckoutSweeper (locked : List WorkitemId) : DbTx Unit := do
  let db ← get
  expireCheckouts (db.expiredCheckouts locked)

/-! ## What a sweep does -/

/-- W6 or W7. -/
def Expired (old new : WorkitemRow) : Prop :=
  old.status = .processing ∧ (new.status = .retry ∨ new.status = .abandoned)

/-- The listed workitems may leave `processing`; nothing else changes. -/
structure Expires (ids : List WorkitemId) (db next : Db) : Prop where
  runs : next.runs = db.runs
  rows : ∀ workitemId, Option.Rel
    (fun old new => new = old ∨ workitemId ∈ ids ∧ Expired old new)
    (db.workitems.get workitemId) (next.workitems.get workitemId)
  outbox : ∃ rows, next.outbox = db.outbox ++ rows ∧
    ∀ row ∈ rows, ∃ workitemId attempts, row.key.anchor = .checkoutExpired workitemId attempts

theorem Expires.refl (ids : List WorkitemId) (db : Db) : Expires ids db db :=
  ⟨rfl, fun _ => rel_mono (rel_eq_iff.mpr rfl) fun _ _ same => .inl same.symm, [], by simp⟩

theorem Expires.trans {one two : List WorkitemId} {db middle next : Db}
    (first : Expires one db middle) (second : Expires two middle next) :
    Expires (one ++ two) db next where
  runs := second.runs.trans first.runs
  rows workitemId := by
    refine rel_trans (first.rows workitemId) (second.rows workitemId) fun old between new earlier later => ?_
    obtain rfl | ⟨listed, expired⟩ := later
    · exact earlier.imp_right fun ⟨listed, expired⟩ => ⟨List.mem_append_left _ listed, expired⟩
    · obtain rfl | ⟨-, -, left | left⟩ := earlier
      · exact .inr ⟨List.mem_append_right _ listed, expired⟩
      · exact absurd (left.symm.trans expired.1) (by decide)
      · exact absurd (left.symm.trans expired.1) (by decide)
  outbox := by
    obtain ⟨rows, same, anchors⟩ := first.outbox
    obtain ⟨more, sameMore, moreAnchors⟩ := second.outbox
    refine ⟨rows ++ more, by rw [sameMore, same, List.append_assoc], fun row member => ?_⟩
    obtain early | late := List.mem_append.mp member
    · exact anchors row early
    · exact moreAnchors row late

theorem expired_transition {ctx : WorkitemTransitionContext} {result : TransitionResult WorkitemState}
    (event : ctx.event = .checkoutExpired) (source : ctx.fromStatus = .processing)
    (defined : transitionWorkitem ctx.fromStatus ctx.event ctx.guard = .ok result) :
    result.next = .retry ∨ result.next = .abandoned := by
  rw [event, source] at defined
  simp only [transitionWorkitem] at defined
  split at defined <;> cases defined
  · exact .inl rfl
  · exact .inr rfl

theorem expireCheckout_expires (workitemId : WorkitemId) (attempts : Nat) (runId : Option RunId) :
    Tx.Relates (Expires [workitemId]) (expireCheckout workitemId attempts runId) := by
  intro db done next ran
  obtain ⟨outcome, middle, ranItem, ran⟩ := Tx.bind_ok.mp ran
  obtain ⟨result, defined, -, applied⟩ := applyWorkitemTransition_ok.mp ranItem
  have expired := expired_transition rfl rfl defined
  obtain ⟨current, -, rfl, rfl⟩ | ⟨-, rfl, rfl⟩ := applied
  · let ctx := checkoutExpiredContext workitemId attempts runId
    have final : next.runs = db.runs ∧
        next.workitems = (db.enterWorkitem ctx result).workitems ∧
        next.outbox = db.outbox ++ ctx.rows result := by
      split at ran
      · obtain rfl := Tx.modify_ok.mp ran
        exact ⟨rfl, rfl, rfl⟩
      · obtain ⟨-, rfl⟩ := Tx.pure_ok.mp ran
        exact ⟨rfl, rfl, rfl⟩
    obtain ⟨runs, items, outbox⟩ := final
    refine ⟨runs, fun other => ?_, _, outbox, fun row member => ?_⟩
    · rw [items, Db.enterWorkitem, Table.get_modify]
      split
      · rename_i same
        obtain ⟨old, stored, processing⟩ := Option.map_eq_some_iff.mp current
        rw [same, stored]
        exact .some (.inr ⟨List.mem_singleton.mpr rfl, processing, expired⟩)
      · exact rel_mono (rel_eq_iff.mpr rfl) fun _ _ kept => .inl kept.symm
    · simp only [WorkitemTransitionContext.rows, List.mem_map] at member
      obtain ⟨_, -, rfl⟩ := member
      exact ⟨workitemId, attempts, rfl⟩
  · obtain ⟨-, rfl⟩ := Tx.pure_ok.mp ran
    exact Expires.refl _ next

theorem expireCheckouts_expires (rows : List (WorkitemId × Nat × Option RunId)) :
    Tx.Relates (Expires (rows.map Prod.fst)) (expireCheckouts rows) := by
  induction rows with
  | nil => exact Tx.Relates.pure (Expires.refl []) ()
  | cons head rest ih =>
    intro db done next ran
    obtain ⟨_, middle, one, more⟩ := Tx.bind_ok.mp ran
    exact (expireCheckout_expires head.1 head.2.1 head.2.2 one).trans (ih more)

/-- A sweep expires checkouts that are overdue, not paused and not locked. -/
theorem handleWorkitemCheckoutSweeper_expires {locked : List WorkitemId} {db next : Db} {done : Unit}
    (ran : (handleWorkitemCheckoutSweeper locked).run db = .ok (done, next)) :
    Expires ((db.expiredCheckouts locked).map Prod.fst) db next :=
  expireCheckouts_expires _ (Tx.get_bind_ok.mp ran)

theorem Db.mem_expiredCheckouts {db : Db} {locked : List WorkitemId} {workitemId : WorkitemId} :
    workitemId ∈ (db.expiredCheckouts locked).map Prod.fst ↔
      workitemId ∉ locked ∧
        ∃ row, db.workitems.get workitemId = some row ∧ row.checkoutExpired db.now = true := by
  simp only [Db.expiredCheckouts, List.map_map, List.mem_map, List.mem_filter, decide_eq_true_eq,
    Function.comp_apply]
  constructor
  · rintro ⟨entry, ⟨stored, expired, free⟩, rfl⟩
    exact ⟨free, entry.2, Table.get_eq_some_iff.mpr stored, expired⟩
  · rintro ⟨free, row, stored, expired⟩
    exact ⟨(workitemId, row), ⟨Table.get_eq_some_iff.mp stored, expired, free⟩, rfl⟩

end RpaEnterprise.Runtime
