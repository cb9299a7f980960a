import RpaEnterprise.Lib.Table
import RpaEnterprise.Lib.Transaction
import RpaEnterprise.Runtime.StateMachine

/-!
# Runs and workitems of one tenant

Rows of `runs`, `workitems`, `dead_letter` and `events_outbox`, with the columns
that the checkout of a workitem reads or writes.  `now` is the database clock in
milliseconds.  Row locks are held to commit, so a transaction body is a function
from one database state to the next.
-/

namespace RpaEnterprise.Runtime

open Lib

abbrev RunId := Nat
abbrev WorkitemId := Nat
abbrev WorkerId := Nat
abbrev Time := Nat

/-- The anchors that the transactions below pass as `eventIdempotencyKey`.
Identifiers are uuids, so two anchors render to one string only when they are equal. -/
inductive Anchor where
  | checkoutExpired (workitemId : WorkitemId) (attempts : Nat)
  | workitemTimer (workitemId : WorkitemId)
deriving Repr, DecidableEq

/-- `idempotency_key`: the anchor followed by the event type. -/
structure OutboxKey where
  anchor : Anchor
  event : EventEnvelopeType
deriving Repr, DecidableEq

structure OutboxRow where
  key : OutboxKey
  runId : Option RunId
  workitemId : Option WorkitemId
deriving Repr, DecidableEq

structure RunRow where
  status : RunState
  workitemId : Option WorkitemId
  endedAt : Option Time
deriving Repr, DecidableEq

structure WorkitemRow where
  status : WorkitemState
  attempts : Nat
  checkedOutBy : Option WorkerId
  checkedOutAt : Option Time
  checkoutExpiresAt : Option Time
  checkoutPausedAt : Option Time
deriving Repr, DecidableEq

structure DeadLetterRow where
  workitemId : WorkitemId
  runId : Option RunId
  reasonCode : String
deriving Repr, DecidableEq

structure Db where
  now : Time
  runs : Table RunId RunRow
  workitems : Table WorkitemId WorkitemRow
  deadLetters : List DeadLetterRow
  outbox : List OutboxRow
deriving Repr, DecidableEq

/-- Why a transaction body throws. -/
inductive TxError where
  | illegal (transition : IllegalTransition)
  | uniqueViolation (key : OutboxKey)
  | workerIdRequired
  | unexpectedPending
deriving Repr, DecidableEq

abbrev DbTx (Value : Type) := Tx Db TxError Value

/-! ## Outbox -/

/-- `emitOutboxEvent`: a plain `INSERT` under the unique idempotency key. -/
def emitOutboxEvent (row : OutboxRow) : DbTx Unit := do
  let db ← get
  if row.key ∈ db.outbox.map OutboxRow.key then throw (.uniqueViolation row.key)
  else set { db with outbox := db.outbox ++ [row] }

def emitOutboxEvents : List OutboxRow → DbTx Unit
  | [] => pure ()
  | row :: rest => do
    emitOutboxEvent row
    emitOutboxEvents rest

/-- The keys of `rows` are new and pairwise different. -/
def FreshKeys (rows : List OutboxRow) (outbox : List OutboxRow) : Prop :=
  (rows.map OutboxRow.key).Nodup ∧ ∀ row ∈ rows, row.key ∉ outbox.map OutboxRow.key

theorem emitOutboxEvent_ok {row : OutboxRow} {db next : Db} {done : Unit} :
    (emitOutboxEvent row).run db = .ok (done, next) ↔
      row.key ∉ db.outbox.map OutboxRow.key ∧
        next = { db with outbox := db.outbox ++ [row] } := by
  simp only [emitOutboxEvent, Tx.bind_ok, Tx.get_ok]
  constructor
  · rintro ⟨_, _, ⟨rfl, rfl⟩, ran⟩
    split at ran
    · simp at ran
    · rename_i fresh
      exact ⟨fresh, Tx.set_ok.mp ran⟩
  · rintro ⟨fresh, rfl⟩
    exact ⟨db, db, ⟨rfl, rfl⟩, by rw [if_neg fresh]; exact Tx.set_ok.mpr rfl⟩

theorem freshKeys_cons {row : OutboxRow} {rest outbox : List OutboxRow} :
    FreshKeys (row :: rest) outbox ↔
      row.key ∉ outbox.map OutboxRow.key ∧ FreshKeys rest (outbox ++ [row]) := by
  simp only [FreshKeys, List.map_cons, List.nodup_cons, List.mem_cons, List.map_append,
    List.map_nil, List.mem_append, List.not_mem_nil, or_false]
  constructor
  · rintro ⟨⟨apart, nodup⟩, fresh⟩
    refine ⟨fresh row (.inl rfl), nodup, fun other member hit => ?_⟩
    obtain old | same := hit
    · exact fresh other (.inr member) old
    · exact apart (same ▸ List.mem_map_of_mem member)
  · rintro ⟨head, nodup, fresh⟩
    refine ⟨⟨fun member => ?_, nodup⟩, fun other member => ?_⟩
    · obtain ⟨other, inside, same⟩ := List.mem_map.mp member
      exact fresh other inside (.inr same)
    · obtain rfl | inside := member
      · exact head
      · exact fun old => fresh other inside (.inl old)

theorem emitOutboxEvents_ok {rows : List OutboxRow} {db next : Db} {done : Unit} :
    (emitOutboxEvents rows).run db = .ok (done, next) ↔
      FreshKeys rows db.outbox ∧ next = { db with outbox := db.outbox ++ rows } := by
  induction rows generalizing db with
  | nil => simp [emitOutboxEvents, FreshKeys]
  | cons row rest ih =>
    simp only [emitOutboxEvents, Tx.bind_ok, emitOutboxEvent_ok, ih, freshKeys_cons]
    constructor
    · rintro ⟨_, _, ⟨fresh, rfl⟩, later, rfl⟩
      exact ⟨⟨fresh, later⟩, by simp⟩
    · rintro ⟨⟨fresh, later⟩, rfl⟩
      exact ⟨(), _, ⟨fresh, rfl⟩, later, by simp⟩

end RpaEnterprise.Runtime
