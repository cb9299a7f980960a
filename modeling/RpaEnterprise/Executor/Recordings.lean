import Mathlib.Logic.Relation
import RpaEnterprise.Executor.Actions
import RpaEnterprise.Lib.Table

/-!
# What an execution of an act leaves behind

The rows that `executeAct`, the step recorder, the call store and the plan cache write for one
tenant: `run_steps`, `stagehand_calls` and `action_plan_cache`.  Every transaction of every run is
one step, in any order.  A row of `run_steps` also carries what its executor knows and no column
says: the key of the call it made, the answer it got and the plan it performed on the page.  A call
carries whether it has failed.
-/

namespace RpaEnterprise.Executor.Recordings

open Lib

/-- A step of a run, whose `step_id` is `nodeId.index`. -/
structure StepKey where
  runId : String
  nodeId : String
  index : Nat
deriving DecidableEq

/-- `UNIQUE (run_id, step_id, attempt)`. -/
abbrev AttemptKey := StepKey × Nat

/-- The other final statuses count as failed. -/
inductive StepStatus where
  | started
  | success
  | failed
deriving DecidableEq

structure RunStep where
  action : String
  status : StepStatus
  createdAt : Nat
  actionPlanCacheId : Option Nat
  asked : Option String
  answer : Option Json
  performed : Option ActionPlan

inductive StreamStatus where
  | opened
  | done
  | error
deriving DecidableEq

/-- A call, under its idempotency key, with the attempt that made it first. -/
structure StagehandCall where
  id : AttemptKey
  streamStatus : StreamStatus
  parsedJson : Option Json
  failed : Bool

inductive CacheStatus where
  | active
  | suspect
  | stale
  | quarantined
deriving DecidableEq

structure CacheRow where
  planRef : Option String
  status : CacheStatus
  lastSuccessAt : Option Nat

structure Database where
  runSteps : Table AttemptKey RunStep
  stagehandCalls : Table String StagehandCall
  actionPlanCache : Table Nat CacheRow

/-- Where an act declares that its value comes from. -/
inductive ValueSource where
  | planned
  | secretRef (ref : String)
  | value (text : String)

/-- The plan with its value replaced by the declared one; only a fill takes one. -/
def ValueSource.pin : ValueSource → ActionPlan → Option ActionPlan
  | .planned, plan => some plan
  | .secretRef ref, .fill selector _ _ => some (.fill selector none (some ref))
  | .value text, .fill selector _ _ => some (.fill selector (some text) none)
  | _, _ => none

/-- What a declared value leaves of a plan. -/
def aim : ActionPlan → ActionPlan
  | .fill selector _ _ => .fill selector none none
  | plan => plan

theorem aim_of_pin {source : ValueSource} {plan pinned : ActionPlan} (pins : source.pin plan = some pinned) :
    aim pinned = aim plan := by
  cases source <;> cases plan <;> cases pins <;> rfl

/-! ## The transactions -/

section Transactions

variable (parse : String → Option Json)

/-- The plan serialised in a row of the cache. -/
def CacheRow.plan (row : CacheRow) : Option ActionPlan := (row.planRef.bind parse).bind parseActionPlan

/-- `PgActionPlanCache.get`: only an active row is replayed. -/
def Database.cached (db : Database) (cacheId : Nat) : Option ActionPlan :=
  ((db.actionPlanCache.get cacheId).filter fun row => row.status = .active).bind (CacheRow.plan parse)

/-- `PgActionPlanCache.put`, with the start of its transaction as `now()`. -/
def Database.put (db : Database) (cacheId : Nat) (planRef : String) (startedAt : Nat) : Database :=
  { db with actionPlanCache := db.actionPlanCache.put cacheId ⟨some planRef, .active, some startedAt⟩ }

def CacheStatus.demoted : CacheStatus → CacheStatus
  | .active => .suspect
  | .suspect => .stale
  | status => status

/-- `markSuspect` on the row of the cache, if there is one. -/
def demote : Option CacheRow → CacheRow
  | some row => { row with status := row.status.demoted }
  | none => ⟨none, .suspect, none⟩

def Database.markSuspect (db : Database) (cacheId : Nat) : Database :=
  { db with actionPlanCache := db.actionPlanCache.put cacheId (demote (db.actionPlanCache.get cacheId)) }

/-- `COALESCE(MAX(attempt), -1) + 1`. -/
def Database.nextAttempt (db : Database) (step : StepKey) : Nat :=
  ((db.runSteps.rows.filter fun entry => entry.1.1 = step).map fun entry => entry.1.2 + 1).foldr max ⊥

def Database.writeStep (db : Database) (id : AttemptKey) (row : RunStep) : Database :=
  { db with runSteps := db.runSteps.put id row }

def Database.writeCall (db : Database) (key : String) (call : StagehandCall) : Database :=
  { db with stagehandCalls := db.stagehandCalls.put key call }

/-- An attempt that has performed nothing yet. -/
structure Running (db : Database) (id : AttemptKey) (row : RunStep) : Prop where
  stored : db.runSteps.get id = some row
  started : row.status = .started
  idle : row.performed = none

/-- One transaction; `insert`, `reopen` and `replay` are what `reserve` comes to.  Its `SELECT` and its
`UPDATE` are two statements, so a call that is reopened has failed, but may since have been reopened
and answered by others.  A call that fails ends its attempt.  A `put` of a plan that an attempt has
already found in the cache began after the row of that attempt was created. -/
inductive Step (db : Database) : Database → Prop
  | begin (step : StepKey) (action : String) (createdAt : Nat) :
      Step db (db.writeStep (step, db.nextAttempt step) ⟨action, .started, createdAt, none, none, none, none⟩)
  | hit {id row cacheId plan source pinned} (running : Running db id row) (silent : row.asked = none)
      (found : db.cached parse cacheId = some plan) (pins : ValueSource.pin source plan = some pinned) :
      Step db (db.writeStep id { row with actionPlanCacheId := some cacheId, performed := some pinned })
  | insert {id row key} (running : Running db id row) (silent : row.asked = none)
      (absent : db.stagehandCalls.get key = none) :
      Step db ((db.writeCall key ⟨id, .opened, none, false⟩).writeStep id { row with asked := some key })
  | reopen {id row key call} (running : Running db id row) (silent : row.asked = none)
      (stored : db.stagehandCalls.get key = some call) (failed : call.failed = true) :
      Step db ((db.writeCall key { call with streamStatus := .opened, parsedJson := none }).writeStep id
        { row with asked := some key })
  | replay {id row key call json} (running : Running db id row) (silent : row.asked = none)
      (stored : db.stagehandCalls.get key = some call) (done : call.streamStatus = .done)
      (said : call.parsedJson = some json) :
      Step db (db.writeStep id { row with asked := some key, answer := some json })
  | complete {id row key call} (parsedJson : Option Json) (running : Running db id row) (asked : row.asked = some key)
      (waiting : row.answer = none) (stored : db.stagehandCalls.get key = some call) :
      Step db ((db.writeCall key { call with streamStatus := .done, parsedJson := parsedJson }).writeStep id
        { row with answer := parsedJson })
  | fail {id row key call} (running : Running db id row) (asked : row.asked = some key) (waiting : row.answer = none)
      (stored : db.stagehandCalls.get key = some call) :
      Step db ((db.writeCall key { call with streamStatus := .error, failed := true }).writeStep id
        { row with status := .failed })
  | perform {id row json plan source pinned} (running : Running db id row) (answered : row.answer = some json)
      (parsed : parseActionPlan json = some plan) (pins : ValueSource.pin source plan = some pinned) :
      Step db (db.writeStep id { row with performed := some pinned })
  | declared {id row} (plan : ActionPlan) (running : Running db id row) (silent : row.asked = none) :
      Step db (db.writeStep id { row with performed := some plan })
  | record {id row} (status : StepStatus) (stored : db.runSteps.get id = some row) (started : row.status = .started)
      (applied : status = .success → row.action = "act" → row.asked ≠ none → row.performed ≠ none) :
      Step db (db.writeStep id { row with status := status })
  | put {cacheId} (planRef : String) {startedAt} (apart : ∀ id row, db.runSteps.get id = some row →
      row.actionPlanCacheId = some cacheId → row.createdAt < startedAt) : Step db (db.put cacheId planRef startedAt)
  | markSuspect (cacheId : Nat) : Step db (db.markSuspect cacheId)

/-- The tables that some transactions lead to. -/
def Recorded : Database → Prop := Relation.ReflTransGen (Step parse) ⟨.empty, .empty, .empty⟩

end Transactions

/-! ## What the tables say of a row is what its executor performed -/

/-- The row of the cache that the query for promotion joins to an attempt. -/
def CacheRow.joins (entry : CacheRow) (row : RunStep) : Bool :=
  entry.status = .active && entry.lastSuccessAt.any (· ≤ row.createdAt)

/-- A call still says what it said to the attempt that made it; once it has failed, that attempt is over. -/
structure Owns (row : RunStep) (key : String) (call : StagehandCall) : Prop where
  asked : row.asked = some key
  ended : call.failed = true → row.status ≠ .started ∧ row.answer = none
  said : ∀ json, row.answer = some json → call.parsedJson = some json

/-- An attempt that waits for its call made it, or reopened it after a failure. -/
def Holds (calls : Table String StagehandCall) (id : AttemptKey) (row : RunStep) : Prop :=
  ∀ key, row.status = .started → row.asked = some key → row.answer = none →
    ∃ call, calls.get key = some call ∧ (call.failed = true ∨ call.id = id)

section Attribution

variable (parse : String → Option Json)

/-- What a row performed came from its answer, or from the cache as it still is. -/
structure Traced (cache : Table Nat CacheRow) (row : RunStep) : Prop where
  silent : row.asked = none → row.answer = none
  answered : ∀ plan, row.asked ≠ none → row.performed = some plan → ∃ json found, row.answer = some json ∧
    parseActionPlan json = some found ∧ aim plan = aim found
  cached : ∀ cacheId, row.actionPlanCacheId = some cacheId → row.asked = none ∧ ∃ plan, row.performed = some plan ∧
    ∀ entry found, cache.get cacheId = some entry → entry.joins row = true → entry.plan parse = some found →
      aim plan = aim found
  succeeded : row.status = .success → row.action = "act" → row.asked ≠ none → row.performed ≠ none

structure Attributed (db : Database) : Prop where
  owned : ∀ key call, db.stagehandCalls.get key = some call →
    ∃ row, db.runSteps.get call.id = some row ∧ Owns row key call
  held : ∀ id row, db.runSteps.get id = some row → Holds db.stagehandCalls id row
  traced : ∀ id row, db.runSteps.get id = some row → Traced parse db.actionPlanCache row

variable {parse} {db : Database} {id : AttemptKey} {row : RunStep}

theorem get_nextAttempt (db : Database) (step : StepKey) : db.runSteps.get (step, db.nextAttempt step) = none := by
  refine Table.get_eq_none_iff.mpr fun taken => ?_
  obtain ⟨entry, stored, same⟩ := List.mem_map.mp taken
  have counted : entry.1.2 + 1 ∈
      (db.runSteps.rows.filter fun entry => entry.1.1 = step).map fun entry => entry.1.2 + 1 :=
    List.mem_map.mpr ⟨entry, List.mem_filter.mpr ⟨stored, by simp [same]⟩, rfl⟩
  have below : entry.1.2 + 1 ≤ db.nextAttempt step := List.le_max_of_le counted le_rfl
  rw [same] at below
  exact absurd below (Nat.not_succ_le_self _)

theorem Attributed.writeStep (attributed : Attributed parse db)
    (owned : ∀ key call, db.stagehandCalls.get key = some call → call.id = id → Owns row key call)
    (held : Holds db.stagehandCalls id row) (traced : Traced parse db.actionPlanCache row) :
    Attributed parse (db.writeStep id row) := by
  refine ⟨fun key call stored => ?_, fun other row' stored => ?_, fun other row' stored => ?_⟩
  · obtain ⟨row', stored', owns⟩ := attributed.owned key call stored
    by_cases here : call.id = id
    · exact ⟨row, by simp [Database.writeStep, Table.get_put, here], owned key call stored here⟩
    · exact ⟨row', by simpa [Database.writeStep, Table.get_put, here] using stored', owns⟩
  all_goals
    simp only [Database.writeStep, Table.get_put] at stored
    split at stored
  · next same =>
    cases stored
    exact same ▸ held
  · exact attributed.held other row' stored
  · cases stored
    exact traced
  · exact attributed.traced other row' stored

/-- A write of the cache that no attempt of its row is joined to. -/
theorem Attributed.writeCache (attributed : Attributed parse db) {cacheId : Nat} {entry : CacheRow}
    (apart : ∀ id row, db.runSteps.get id = some row → row.actionPlanCacheId = some cacheId →
      entry.joins row = false) :
    Attributed parse { db with actionPlanCache := db.actionPlanCache.put cacheId entry } := by
  refine ⟨attributed.owned, attributed.held, fun id row stored => ?_⟩
  obtain ⟨silent, answered, cached, succeeded⟩ := attributed.traced id row stored
  refine ⟨silent, answered, fun other hit => ?_, succeeded⟩
  obtain ⟨quiet, plan, performed, same⟩ := cached other hit
  refine ⟨quiet, plan, performed, fun entry' found stored' joins parsed => ?_⟩
  rw [Table.get_put] at stored'
  split at stored'
  next here =>
    cases stored'
    exact absurd joins (by simp [apart id row stored (here ▸ hit)])
  next => exact same entry' found stored' joins parsed

/-- The calls of an attempt are its own. -/
theorem Attributed.owns (attributed : Attributed parse db) (stored : db.runSteps.get id = some row)
    {key : String} {call : StagehandCall} (found : db.stagehandCalls.get key = some call) (here : call.id = id) :
    Owns row key call := by
  obtain ⟨row', stored', owns⟩ := attributed.owned key call found
  rw [here] at stored'
  exact Option.some.inj (stored.symm.trans stored') ▸ owns

/-- An attempt that made no call has none. -/
theorem Attributed.unowned (attributed : Attributed parse db) (stored : db.runSteps.get id = some row)
    (silent : row.asked = none) {key : String} {call : StagehandCall} (found : db.stagehandCalls.get key = some call) :
    call.id ≠ id := by
  intro here
  rw [(attributed.owns stored found here).asked] at silent
  cases silent

/-- The call of an attempt that is over can be written at will. -/
theorem Attributed.survives (attributed : Attributed parse db) {key : String} {call call' : StagehandCall}
    (stored : db.stagehandCalls.get key = some call) (failed : call.failed = true) (same : call'.id = call.id) :
    ∃ owner, db.runSteps.get call'.id = some owner ∧ Owns owner key call' := by
  obtain ⟨owner, stored', owns⟩ := attributed.owned key call stored
  exact ⟨owner, same ▸ stored', owns.asked, fun _ => owns.ended failed, by simp [(owns.ended failed).2]⟩

theorem Attributed.holder (attributed : Attributed parse db) (running : Running db id row) {key : String}
    {call : StagehandCall} (asked : row.asked = some key) (waiting : row.answer = none)
    (stored : db.stagehandCalls.get key = some call) : call.failed = true ∨ call.id = id := by
  obtain ⟨call', found, holder⟩ := attributed.held id row running.stored key running.started asked waiting
  exact Option.some.inj (found.symm.trans stored) ▸ holder

theorem Attributed.uncached (attributed : Attributed parse db) (running : Running db id row) (cacheId : Nat) :
    row.actionPlanCacheId ≠ some cacheId := by
  intro hit
  obtain ⟨-, plan, performed, -⟩ := (attributed.traced id row running.stored).cached cacheId hit
  rw [running.idle] at performed
  cases performed

/-- An attempt writes its call: a new one, or one that it holds. -/
theorem Attributed.writeCall (attributed : Attributed parse db) {before : RunStep} {key : String}
    {call : StagehandCall} (stored : db.runSteps.get id = some before)
    (asks : before.asked = none ∨ before.asked = some key) (asked : row.asked = some key)
    (was : db.stagehandCalls.get key = none ∧ call.id = id ∨ ∃ old, db.stagehandCalls.get key = some old ∧
      call.id = old.id ∧ (old.failed = true → call.failed = true) ∧ (old.failed = true ∨ old.id = id))
    (mine : call.id = id → Owns row key call) (traced : Traced parse db.actionPlanCache row) :
    Attributed parse ((db.writeCall key call).writeStep id row) := by
  have calls (other : String) : (db.stagehandCalls.put key call).get other =
      if other = key then some call else db.stagehandCalls.get other := Table.get_put ..
  refine ⟨fun other call' found => ?_, fun other row' found => ?_, fun other row' found => ?_⟩
  · simp only [Database.writeStep, Database.writeCall, Table.get_put] at found ⊢
    split at found
    next same =>
      cases found
      by_cases here : call.id = id
      · exact ⟨row, if_pos here, same ▸ mine here⟩
      · obtain ⟨-, here'⟩ | ⟨old, found, owner, -, holder⟩ := was
        · exact absurd here' here
        · rw [if_neg here, same]
          exact attributed.survives found (holder.resolve_right fun mine => here (owner.trans mine)) owner
    next apart =>
      have elsewhere : call'.id ≠ id := by
        intro here
        have asks' := (attributed.owns stored found here).asked
        rcases asks with silent | same
        · rw [silent] at asks'
          cases asks'
        · exact apart (Option.some.inj (asks'.symm.trans same))
      rw [if_neg elsewhere]
      exact attributed.owned other call' found
  all_goals
    simp only [Database.writeStep, Database.writeCall, Table.get_put] at found
    split at found
  · next same =>
    cases found
    intro other _ asks' _
    cases asked.symm.trans asks'
    refine ⟨call, (calls key).trans (if_pos rfl), ?_⟩
    rcases was with ⟨-, here⟩ | ⟨old, -, owner, fails, holder⟩
    · exact .inr (here.trans same.symm)
    · exact holder.imp fails fun here => owner.trans (here.trans same.symm)
  · intro asked' started asks' waits
    obtain ⟨call', found', holder⟩ := attributed.held other row' found asked' started asks' waits
    simp only [Database.writeStep, Database.writeCall, calls]
    split
    next same =>
      rcases was with ⟨absent, -⟩ | ⟨old, found, owner, fails, -⟩
      · rw [same, absent] at found'
        cases found'
      · rw [same, found] at found'
        cases found'
        exact ⟨call, rfl, holder.imp fails owner.trans⟩
    next => exact ⟨call', found', holder⟩
  · cases found
    exact traced
  · exact attributed.traced other row' found

/-- A row that has performed nothing is traced, whatever it asks and hears. -/
theorem Attributed.traces (attributed : Attributed parse db) (running : Running db id row) {asked : Option String}
    {answer : Option Json} (silent : asked = none → answer = none) {status : StepStatus} (open_ : status ≠ .success) :
    Traced parse db.actionPlanCache { row with asked := asked, answer := answer, status := status } :=
  ⟨silent, by simp [running.idle], fun cacheId hit => absurd hit (attributed.uncached running cacheId),
    fun success => absurd success open_⟩

theorem Attributed.step (attributed : Attributed parse db) {after : Database} (step : Step parse db after) :
    Attributed parse after := by
  cases step with
  | begin step action createdAt =>
    refine attributed.writeStep (fun key call found here => ?_) (by simp [Holds]) ⟨by simp, by simp, by simp, by simp⟩
    obtain ⟨row, stored, -⟩ := attributed.owned key call found
    rw [here, get_nextAttempt] at stored
    cases stored
  | @hit id row cacheId plan source pinned running silent found pins =>
    obtain ⟨quiet, -, -, -⟩ := attributed.traced id row running.stored
    refine attributed.writeStep (fun key call stored here => absurd here (attributed.unowned running.stored silent stored))
      (by simp [Holds, silent]) ⟨quiet, by simp [silent], fun other same => ?_, by simp [silent]⟩
    cases same
    refine ⟨silent, pinned, rfl, fun entry plan' stored joins parsed => ?_⟩
    obtain ⟨entry', active, parsed'⟩ := Option.bind_eq_some_iff.mp found
    rw [stored, Option.filter_eq_some_iff] at active
    rw [← Option.some.inj active.1] at parsed'
    rw [aim_of_pin pins, Option.some.inj (parsed'.symm.trans parsed)]
  | @insert id row key running silent absent =>
    have quiet := (attributed.traced id row running.stored).silent silent
    exact attributed.writeCall running.stored (.inl silent) rfl (.inl ⟨absent, rfl⟩)
      (fun _ => ⟨rfl, by simp, by simp [quiet]⟩) (attributed.traces running (by simp) (by simp [running.started]))
  | @reopen id row key call running silent stored failed =>
    have elsewhere := attributed.unowned running.stored silent stored
    exact attributed.writeCall running.stored (.inl silent) rfl
      (.inr ⟨call, stored, rfl, fun fails => fails, .inl failed⟩) (fun here => absurd here elsewhere)
      (attributed.traces running (by simp) (by simp [running.started]))
  | @replay id row key call json running silent stored done said =>
    exact attributed.writeStep
      (fun other call' found here => absurd here (attributed.unowned running.stored silent found)) (by simp [Holds])
      (attributed.traces running (by simp) (by simp [running.started]))
  | @complete id row key call parsedJson running asked waiting stored =>
    refine attributed.writeCall running.stored (.inr asked) asked
      (.inr ⟨call, stored, rfl, fun fails => fails, attributed.holder running asked waiting stored⟩) (fun here => ?_)
      (attributed.traces running (by simp [asked]) (by simp [running.started]))
    have ended := (attributed.owns running.stored stored here).ended
    exact ⟨asked, fun fails => absurd running.started (ended fails).1, fun json said => said⟩
  | @fail id row key call running asked waiting stored =>
    exact attributed.writeCall running.stored (.inr asked) asked
      (.inr ⟨call, stored, rfl, fun _ => rfl, attributed.holder running asked waiting stored⟩)
      (fun _ => ⟨asked, fun _ => ⟨by simp, waiting⟩, by simp [waiting]⟩)
      (attributed.traces running (by simp [asked]) (by simp))
  | @perform id row json plan source pinned running answered parsed pins =>
    refine attributed.writeStep (fun key call found here => ?_) (by simp [Holds, answered])
      ⟨(attributed.traced id row running.stored).silent, fun plan' _ performs => ?_,
        fun cacheId hit => absurd hit (attributed.uncached running cacheId), by simp⟩
    · obtain ⟨asked, ended, said⟩ := attributed.owns running.stored found here
      exact ⟨asked, ended, said⟩
    · cases performs
      exact ⟨json, plan, answered, parsed, aim_of_pin pins⟩
  | @declared id row plan running silent =>
    obtain ⟨quiet, -, -, -⟩ := attributed.traced id row running.stored
    exact attributed.writeStep (fun key call stored here => absurd here (attributed.unowned running.stored silent stored))
      (by simp [Holds, silent])
      ⟨quiet, by simp [silent], fun cacheId hit => absurd hit (attributed.uncached running cacheId), by simp [silent]⟩
  | @record id row status stored started applied =>
    obtain ⟨silent, answered, cached, -⟩ := attributed.traced id row stored
    refine attributed.writeStep (fun key call found here => ?_)
      (fun key _ asks waits => attributed.held id row stored key started asks waits) ⟨silent, answered, cached, applied⟩
    obtain ⟨asked, ended, said⟩ := attributed.owns stored found here
    exact ⟨asked, fun fails => absurd started (ended fails).1, said⟩
  | put planRef apart =>
    refine attributed.writeCache fun id row stored hit => ?_
    simp [CacheRow.joins, apart id row stored hit]
  | markSuspect cacheId =>
    refine attributed.writeCache fun id row stored hit => ?_
    have inactive : (demote (db.actionPlanCache.get cacheId)).status ≠ .active := by
      cases db.actionPlanCache.get cacheId with
      | none => exact CacheStatus.noConfusion
      | some entry => cases status : entry.status <;> simp [demote, status, CacheStatus.demoted]
    simp [CacheRow.joins, inactive]

theorem attributed_of_recorded (recorded : Recorded parse db) : Attributed parse db := by
  induction recorded with
  | refl => exact ⟨by simp, by simp, by simp⟩
  | tail _ step ih => exact ih.step step

end Attribution

end RpaEnterprise.Executor.Recordings
