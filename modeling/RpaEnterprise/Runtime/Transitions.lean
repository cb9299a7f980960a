import RpaEnterprise.Runtime.Database

/-!
# Applying transitions to workitems

`applyWorkitemTransition`: the pure transition, a compare-and-set
`UPDATE … WHERE status = from`, and the emitted events in the same transaction.
Side effects that are not database writes come back as `pending`.
-/

namespace RpaEnterprise.Runtime

open Lib

/-- The events among the side effects. -/
def emitEvents (sideEffects : List SideEffectCmd) : List EventEnvelopeType :=
  sideEffects.filterMap fun
    | .emitEvent event => some event
    | _ => none

/-- Side effects a workitem transition leaves to its caller. -/
def rowPending (sideEffects : List SideEffectCmd) : List SideEffectCmd :=
  sideEffects.filter fun
    | .emitEvent _ | .setField _ => false
    | _ => true

/-- The answer of a compare-and-set transition. -/
inductive TransitionOutcome (State : Type) where
  | applied (next : State) (pending : List SideEffectCmd)
  | casConflict (observed : Option State)
deriving Repr, DecidableEq

/-- `UPDATE … WHERE status = expected` and the events of the transition; on no
row the state is read again and returned as the conflict. -/
def compareAndSet {State : Type} [DecidableEq State] (observed : Db → Option State)
    (expected : State) (write : Db → Db) (rows : List OutboxRow) (next : State)
    (pending : List SideEffectCmd) : DbTx (TransitionOutcome State) := do
  let db ← get
  if observed db = some expected then do
    set (write db)
    emitOutboxEvents rows
    pure (.applied next pending)
  else pure (.casConflict (observed db))

/-- The database with new outbox rows. -/
def Db.emit (db : Db) (rows : List OutboxRow) : Db :=
  { db with outbox := db.outbox ++ rows }

theorem compareAndSet_ok {State : Type} [DecidableEq State] {observed : Db → Option State}
    {expected : State} {write : Db → Db} {rows : List OutboxRow} {state : State}
    {pending : List SideEffectCmd} {db next : Db} {outcome : TransitionOutcome State} :
    (compareAndSet observed expected write rows state pending).run db = .ok (outcome, next) ↔
      (observed db = some expected ∧ FreshKeys rows (write db).outbox ∧
          outcome = .applied state pending ∧ next = (write db).emit rows) ∨
        (observed db ≠ some expected ∧ outcome = .casConflict (observed db) ∧ next = db) := by
  simp only [compareAndSet, Tx.bind_ok, Tx.get_ok]
  by_cases same : observed db = some expected
  · constructor
    · rintro ⟨_, _, ⟨rfl, rfl⟩, ran⟩
      rw [if_pos same] at ran
      simp only [Tx.bind_ok, Tx.set_ok, emitOutboxEvents_ok, Tx.pure_ok] at ran
      obtain ⟨_, _, rfl, _, _, ⟨fresh, rfl⟩, rfl, rfl⟩ := ran
      exact .inl ⟨same, fresh, rfl, rfl⟩
    · rintro (⟨_, fresh, rfl, rfl⟩ | ⟨different, _⟩)
      · refine ⟨db, db, ⟨rfl, rfl⟩, ?_⟩
        rw [if_pos same]
        simp only [Tx.bind_ok, Tx.set_ok, emitOutboxEvents_ok, Tx.pure_ok]
        exact ⟨(), _, rfl, (), _, ⟨fresh, rfl⟩, trivial, rfl⟩
      · exact absurd same different
  · constructor
    · rintro ⟨_, _, ⟨rfl, rfl⟩, ran⟩
      rw [if_neg same] at ran
      obtain ⟨rfl, rfl⟩ := Tx.pure_ok.mp ran
      exact .inr ⟨same, rfl, rfl⟩
    · rintro (⟨applies, _⟩ | ⟨_, rfl, rfl⟩)
      · exact absurd applies same
      · exact ⟨next, next, ⟨rfl, rfl⟩, by rw [if_neg same]; exact Tx.pure_ok.mpr ⟨rfl, rfl⟩⟩

/-! ## Workitems -/

structure WorkitemTransitionContext where
  workitemId : WorkitemId
  fromStatus : WorkitemState
  event : WorkitemEvent
  guard : WorkitemGuard
  runId : Option RunId
  workerId : Option WorkerId
  anchor : Anchor
deriving Repr, DecidableEq

/-- The columns an applied workitem transition writes. -/
def WorkitemRow.enter (row : WorkitemRow) (now : Time) (ctx : WorkitemTransitionContext)
    (result : TransitionResult WorkitemState) : WorkitemRow :=
  { row with
    status := result.next
    checkedOutBy :=
      if SideEffectCmd.setField .workitemCheckedOutBy ∈ result.sideEffects then ctx.workerId
      else row.checkedOutBy
    checkedOutAt :=
      if SideEffectCmd.setField .workitemCheckedOutAt ∈ result.sideEffects then some now
      else row.checkedOutAt
    attempts :=
      if SideEffectCmd.setField .workitemAttempts ∈ result.sideEffects then 0
      else if ctx.event = .systemException ∨ ctx.event = .checkoutExpired then row.attempts + 1
      else row.attempts }

def WorkitemTransitionContext.rows (ctx : WorkitemTransitionContext)
    (result : TransitionResult WorkitemState) : List OutboxRow :=
  (emitEvents result.sideEffects).map fun event =>
    ⟨⟨ctx.anchor, event⟩, ctx.runId, some ctx.workitemId⟩

def Db.enterWorkitem (db : Db) (ctx : WorkitemTransitionContext)
    (result : TransitionResult WorkitemState) : Db :=
  { db with workitems := db.workitems.modify ctx.workitemId fun row => row.enter db.now ctx result }

def Db.workitemStatus (db : Db) (workitemId : WorkitemId) : Option WorkitemState :=
  (db.workitems.get workitemId).map WorkitemRow.status

def applyWorkitemTransition (ctx : WorkitemTransitionContext) :
    DbTx (TransitionOutcome WorkitemState) :=
  match transitionWorkitem ctx.fromStatus ctx.event ctx.guard with
  | .error illegal => throw (.illegal illegal)
  | .ok result =>
    if SideEffectCmd.setField .workitemCheckedOutBy ∈ result.sideEffects ∧ ctx.workerId = none then
      throw .workerIdRequired
    else
      compareAndSet (fun db => db.workitemStatus ctx.workitemId) ctx.fromStatus
        (fun db => db.enterWorkitem ctx result) (ctx.rows result) result.next
        (rowPending result.sideEffects)

theorem applyWorkitemTransition_ok {ctx : WorkitemTransitionContext} {db next : Db}
    {outcome : TransitionOutcome WorkitemState} :
    (applyWorkitemTransition ctx).run db = .ok (outcome, next) ↔
      ∃ result, transitionWorkitem ctx.fromStatus ctx.event ctx.guard = .ok result ∧
        ¬ (SideEffectCmd.setField .workitemCheckedOutBy ∈ result.sideEffects ∧ ctx.workerId = none) ∧
        ((db.workitemStatus ctx.workitemId = some ctx.fromStatus ∧
            FreshKeys (ctx.rows result) db.outbox ∧
            outcome = .applied result.next (rowPending result.sideEffects) ∧
            next = (db.enterWorkitem ctx result).emit (ctx.rows result)) ∨
          (db.workitemStatus ctx.workitemId ≠ some ctx.fromStatus ∧
            outcome = .casConflict (db.workitemStatus ctx.workitemId) ∧ next = db)) := by
  unfold applyWorkitemTransition
  cases transitionWorkitem ctx.fromStatus ctx.event ctx.guard with
  | error illegal => simp
  | ok result =>
    simp only [Except.ok.injEq, exists_eq_left']
    by_cases worker :
        SideEffectCmd.setField .workitemCheckedOutBy ∈ result.sideEffects ∧ ctx.workerId = none
    · simp [worker]
    · rw [if_neg worker]
      simp only [worker, not_false_eq_true, true_and]
      exact compareAndSet_ok

end RpaEnterprise.Runtime
