import RpaEnterprise.Api.WebhookSigning
import RpaEnterprise.Lib.Execution
import RpaEnterprise.Runtime.StateMachine

/-!
# Deliveries to a webhook trigger

A delivery reads the trigger, has its signature checked with the secret of the
reference it read, and fires in a transaction of its own that holds the row of
the trigger and reads the reference once more.  Rotations, pauses, other
deliveries and the ends of runs come in between at any point; only edits of the
row and other fires wait for the transaction.
-/

namespace RpaEnterprise.Api.WebhookFires

open Lib RpaEnterprise.Runtime
open WebhookSigning (Platform Hmac Message verifyWebhookSignature)

inductive TriggerStatus where
  | enabled | paused | archived
deriving Repr, DecidableEq

inductive FireStatus where
  | queued | skipped | failed
deriving Repr, DecidableEq

/-- A row of `run_triggers` of type `webhook`. -/
structure Trigger where
  scenarioVersionId : String
  status : TriggerStatus
  params : Json
  maxConcurrentRuns : Nat
  webhookSecretRef : String

/-- A row of `run_trigger_fires`. -/
structure Fire where
  id : Nat
  fireKey : List Char
  status : FireStatus
  runId : Option Nat
  failureReason : Option Json
  createdAt : Int

/-- A run as `createRunInTx` inserts it. -/
structure Run where
  scenarioVersionId : String
  params : Json
  asOf : String
  status : RunState

structure Receipt where
  fireId : Nat
  fireKey : List Char
  status : FireStatus
  runId : Option Nat
  duplicate : Bool
  failureReason : Option Json
  receivedAt : Int

def mapWebhookFire (row : Fire) (duplicate : Bool) : Receipt :=
  { fireId := row.id, fireKey := row.fireKey, status := row.status, runId := row.runId, duplicate
    failureReason := row.failureReason, receivedAt := row.createdAt }

inductive Refusal where
  | resourceNotFound | webhookTriggerNotEnabled | secretUnavailable | invalidWebhookSignature
  | tenantOffboardingLocked | webhookSecretRefRotated | internal
deriving Repr, DecidableEq

/-- A request whose headers and body were parsed. -/
structure Delivery where
  message : Message
  signature : List Char
  /-- The time the handler began, in ISO 8601. -/
  receivedAt : String

def Delivery.fireKey (delivery : Delivery) : List Char := "webhook:".toList ++ delivery.message.eventId

theorem Delivery.fireKey_congr {delivery other : Delivery}
    (same : delivery.message.eventId = other.message.eventId) : delivery.fireKey = other.fireKey := by
  unfold Delivery.fireKey
  rw [same]

/-- How far the handler has come. -/
inductive Stage where
  /-- The trigger was read for authentication. -/
  | selected (secretRef : String)
  /-- The signature was verified with the secret of the reference. -/
  | verified (secretRef secret : String)
  /-- The tenant is not locked by an offboarding. -/
  | cleared (secretRef secret : String)
  | answered (answer : Except Refusal Receipt)

/-- What a transaction will have done when it commits. -/
inductive Outcome where
  | refused (refusal : Refusal)
  | duplicate (row : Fire)
  | made (status : FireStatus) (failureReason : Option Json) (run : Option Run) (createdAt : Int)

structure System where
  /-- The row of the trigger; none if it is not there. -/
  trigger : Option Trigger
  fires : List Fire
  /-- The runs of the trigger, each named by its place. -/
  runs : List Run
  secrets : String → Option String
  offboarding : Bool
  deliveries : Nat → Option (Delivery × Stage)
  /-- The delivery whose transaction holds the row of the trigger. -/
  lock : Option (Nat × Outcome)
  /-- The secrets that references were resolved to so far. -/
  resolved : List (String × String)

def System.runActive (system : System) (runId : Nat) : Bool :=
  (system.runs[runId]?).any fun run => !run.status.terminal

def System.countActiveRuns (system : System) : Nat :=
  (system.fires.filterMap Fire.runId).countP system.runActive

def recordOrEmpty : Json → Json
  | .obj fields => .obj fields
  | _ => .obj []

def webhookRunParams (triggerParams : Json) (delivery : Delivery) : Json :=
  .obj (Json.assign "webhook"
    (.obj [("event_id", .str (String.ofList delivery.message.eventId)),
      ("received_at", .str delivery.receivedAt), ("payload", delivery.message.body)])
    (recordOrEmpty triggerParams).fields)

/-- The run that a delivery asks `createRunInTx` for. -/
def Trigger.run (trigger : Trigger) (delivery : Delivery) : Run :=
  ⟨trigger.scenarioVersionId, webhookRunParams trigger.params delivery, delivery.receivedAt, .queued⟩

/-- `acceptWebhookTriggerFire` up to its commit; `created` says what
`createRunInTx` came to, and `now` is the time of the transaction. -/
def System.acceptWebhookTriggerFire (system : System) (delivery : Delivery) (verifiedSecretRef : String)
    (created : Except Json Unit) (now : Int) : Outcome :=
  match system.trigger with
  | none => .refused .resourceNotFound
  | some trigger =>
    if trigger.webhookSecretRef ≠ verifiedSecretRef then .refused .webhookSecretRefRotated
    else if trigger.status ≠ .enabled then .refused .webhookTriggerNotEnabled
    else
      match system.fires.find? (·.fireKey = delivery.fireKey) with
      | some existing => .duplicate existing
      | none =>
        if trigger.maxConcurrentRuns ≤ system.countActiveRuns then
          .made .skipped (some (.obj [("code", .str "MAX_CONCURRENCY_REACHED")])) none now
        else
          match created with
          | .error reason => .made .failed (some reason) none now
          | .ok () => .made .queued none (some (trigger.run delivery)) now

inductive Action where
  /-- A request comes in and the trigger is read for it. -/
  | arrive (id : Nat) (delivery : Delivery)
  /-- The secret is resolved and the signature checked. -/
  | verify (id : Nat)
  | checkOffboarding (id : Nat)
  /-- `SELECT … FOR UPDATE` and what follows it. -/
  | begin (id : Nat) (created : Except Json Unit) (now : Int)
  | commit
  | rollback
  /-- Any edit of the row: pause, resume, archive, a rotated reference, a new limit. -/
  | edit (trigger : Option Trigger)
  | setSecret (secretRef : String) (secret : Option String)
  | setOffboarding (locked : Bool)
  /-- A run takes a transition of its own. -/
  | transition (runId : Nat) (event : RunEvent) (guard : RunGuard)

def System.put (system : System) (id : Nat) (delivery : Delivery) (stage : Stage) : System :=
  { system with deliveries := Function.update system.deliveries id (some (delivery, stage)) }

theorem System.put_self (system : System) (id : Nat) (delivery : Delivery) (stage : Stage) :
    (system.put id delivery stage).deliveries id = some (delivery, stage) := by simp [System.put]

theorem System.put_of_ne (system : System) {id other : Nat} (delivery : Delivery) (stage : Stage)
    (apart : other ≠ id) : (system.put id delivery stage).deliveries other = system.deliveries other := by
  simp [System.put, apart]

def System.answer (system : System) (id : Nat) (delivery : Delivery) (answer : Except Refusal Receipt) :
    System :=
  system.put id delivery (.answered answer)

/-- The writes of a transaction, and its answer. -/
def System.write (system : System) (id : Nat) (delivery : Delivery) : Outcome → System
  | .refused refusal => system.answer id delivery (.error refusal)
  | .duplicate row => system.answer id delivery (.ok (mapWebhookFire row true))
  | .made status failureReason run createdAt =>
    let row : Fire := ⟨system.fires.length, delivery.fireKey, status,
      run.map fun _ => system.runs.length, failureReason, createdAt⟩
    ({ system with fires := system.fires ++ [row], runs := system.runs ++ run.toList } : System).answer
      id delivery (.ok (mapWebhookFire row false))

def System.transition (system : System) (runId : Nat) (event : RunEvent) (guard : RunGuard) : System :=
  match system.runs[runId]? with
  | some run =>
    match transitionRun run.status event guard with
    | .ok result => { system with runs := system.runs.set runId { run with status := result.next } }
    | .error _ => system
  | none => system

def step (platform : Platform) (hmac : Hmac) (system : System) : Action → System
  | .arrive id delivery =>
    match system.deliveries id, system.trigger with
    | some _, _ => system
    | none, none => system.answer id delivery (.error .resourceNotFound)
    | none, some trigger =>
      if trigger.status = .enabled then system.put id delivery (.selected trigger.webhookSecretRef)
      else system.answer id delivery (.error .webhookTriggerNotEnabled)
  | .verify id =>
    match system.deliveries id with
    | some (delivery, .selected secretRef) =>
      match system.secrets secretRef with
      | none => system.answer id delivery (.error .secretUnavailable)
      | some secret =>
        let resolved := { system with resolved := (secretRef, secret) :: system.resolved }
        if verifyWebhookSignature hmac secret delivery.signature (delivery.message.payload platform) then
          resolved.put id delivery (.verified secretRef secret)
        else resolved.answer id delivery (.error .invalidWebhookSignature)
    | _ => system
  | .checkOffboarding id =>
    match system.deliveries id with
    | some (delivery, .verified secretRef secret) =>
      if system.offboarding then system.answer id delivery (.error .tenantOffboardingLocked)
      else system.put id delivery (.cleared secretRef secret)
    | _ => system
  | .begin id created now =>
    match system.lock, system.deliveries id with
    | none, some (delivery, .cleared secretRef _) =>
      { system with
        lock := some (id, system.acceptWebhookTriggerFire delivery secretRef created now) }
    | _, _ => system
  | .commit =>
    match system.lock with
    | some (id, outcome) =>
      match system.deliveries id with
      | some (delivery, _) => ({ system with lock := none } : System).write id delivery outcome
      | none => system
    | none => system
  | .rollback =>
    match system.lock with
    | some (id, _) =>
      match system.deliveries id with
      | some (delivery, _) => ({ system with lock := none } : System).answer id delivery (.error .internal)
      | none => system
    | none => system
  | .edit trigger => if system.lock.isNone then { system with trigger } else system
  | .setSecret secretRef secret => { system with secrets := Function.update system.secrets secretRef secret }
  | .setOffboarding locked => { system with offboarding := locked }
  | .transition runId event guard => system.transition runId event guard

/-- Before the first delivery. -/
def initial (trigger : Option Trigger) (secrets : String → Option String) (offboarding : Bool) : System :=
  ⟨trigger, [], [], secrets, offboarding, fun _ => none, none, []⟩

/-! ## Runs, duplicates and receipts -/

/-- The event a run was made for. -/
def Run.eventId (run : Run) : Option Json := (run.params.field "webhook").bind (·.field "event_id")

/-- A run is made by a commit only, for the delivery whose transaction commits; the
signature of that delivery was verified under the reference that the row now has,
and the active runs are then within the limit of the row. -/
def CreatesProperly (platform : Platform) (hmac : Hmac) (system : System) (action : Action) : Prop :=
  let next := step platform hmac system action
  next.runs.length = system.runs.length ∨
    action = .commit ∧ ∃ id outcome delivery secret trigger,
      system.lock = some (id, outcome) ∧
      system.deliveries id = some (delivery, .cleared trigger.webhookSecretRef secret) ∧
      next.trigger = some trigger ∧ next.runs = system.runs ++ [trigger.run delivery] ∧
      next.countActiveRuns ≤ trigger.maxConcurrentRuns ∧
      (trigger.webhookSecretRef, secret) ∈ system.resolved ∧
      verifyWebhookSignature hmac secret delivery.signature (delivery.message.payload platform) = true

/-- A transaction of a delivery whose event has fired answers with the receipt of
that fire, unless the trigger is not enabled or its reference was rotated. -/
def AnswersDuplicates (platform : Platform) (hmac : Hmac) (system : System) (action : Action) : Prop :=
  action = .commit → ∀ id outcome delivery secretRef secret trigger,
    system.lock = some (id, outcome) → system.deliveries id = some (delivery, .cleared secretRef secret) →
    system.trigger = some trigger → trigger.status = .enabled → trigger.webhookSecretRef = secretRef →
    ∀ row ∈ system.fires, row.fireKey = delivery.fireKey →
      (step platform hmac system action).deliveries id =
        some (delivery, .answered (.ok (mapWebhookFire row true)))

/-- Deliveries of one event have one receipt, but for the mark on duplicates. -/
def System.ReceiptsAgree (system : System) : Prop :=
  ∀ id id' delivery delivery' receipt receipt',
    system.deliveries id = some (delivery, .answered (.ok receipt)) →
    system.deliveries id' = some (delivery', .answered (.ok receipt')) →
    delivery.message.eventId = delivery'.message.eventId →
    { receipt with duplicate := true } = { receipt' with duplicate := true }

/-! ## What is kept -/

variable {platform : Platform} {hmac : Hmac}

variable (platform hmac) in
/-- What a delivery knows at a stage. -/
def Stage.Fine (system : System) (delivery : Delivery) : Stage → Prop
  | .selected _ => True
  | .verified secretRef secret | .cleared secretRef secret =>
    (secretRef, secret) ∈ system.resolved ∧
      verifyWebhookSignature hmac secret delivery.signature (delivery.message.payload platform) = true
  | .answered (.error _) => True
  | .answered (.ok receipt) =>
    ∃ row ∈ system.fires, row.fireKey = delivery.fireKey ∧ ∃ flag, receipt = mapWebhookFire row flag

/-- What a transaction that holds the row relies on. -/
def Outcome.Stands (system : System) (delivery : Delivery) (secretRef : String) : Outcome → Prop
  | .refused _ =>
    ∀ trigger, system.trigger = some trigger → trigger.status = .enabled →
      trigger.webhookSecretRef ≠ secretRef
  | .duplicate row => row ∈ system.fires ∧ row.fireKey = delivery.fireKey
  | .made _ _ run _ =>
    (∀ fire ∈ system.fires, fire.fireKey ≠ delivery.fireKey) ∧
      ∀ made, run = some made → ∃ trigger, made = trigger.run delivery ∧
        system.trigger = some trigger ∧ trigger.webhookSecretRef = secretRef ∧
          system.countActiveRuns < trigger.maxConcurrentRuns

variable (platform hmac) in
structure System.Sound (system : System) : Prop where
  once : (system.fires.map Fire.fireKey).Nodup
  runs : system.fires.filterMap Fire.runId = List.range system.runs.length
  events : ∀ fire ∈ system.fires, ∀ runId, fire.runId = some runId → ∃ run eventId,
    system.runs[runId]? = some run ∧ fire.fireKey = "webhook:".toList ++ eventId ∧
      run.eventId = some (.str (String.ofList eventId))
  stages : ∀ id delivery stage, system.deliveries id = some (delivery, stage) →
    stage.Fine platform hmac system delivery
  locked : ∀ id outcome, system.lock = some (id, outcome) → ∃ delivery secretRef secret,
    system.deliveries id = some (delivery, .cleared secretRef secret) ∧
      outcome.Stands system delivery secretRef

variable {system : System} {delivery : Delivery}

theorem Stage.Fine.mono {old new : System} {stage : Stage}
    (fine : stage.Fine platform hmac old delivery) (resolved : old.resolved ⊆ new.resolved)
    (fires : old.fires ⊆ new.fires) : stage.Fine platform hmac new delivery := by
  match stage with
  | .selected _ => trivial
  | .verified _ _ => exact ⟨resolved fine.1, fine.2⟩
  | .cleared _ _ => exact ⟨resolved fine.1, fine.2⟩
  | .answered (.error _) => trivial
  | .answered (.ok _) =>
    obtain ⟨row, member, rest⟩ := fine
    exact ⟨row, fires member, rest⟩

theorem Outcome.Stands.kept {old new : System} {secretRef : String} {outcome : Outcome}
    (stands : outcome.Stands old delivery secretRef) (trigger : new.trigger = old.trigger)
    (fires : new.fires = old.fires) (active : new.countActiveRuns ≤ old.countActiveRuns) :
    outcome.Stands new delivery secretRef := by
  match outcome with
  | .refused _ =>
    simpa only [Outcome.Stands, trigger] using stands
  | .duplicate _ =>
    simpa only [Outcome.Stands, fires] using stands
  | .made _ _ _ _ =>
    obtain ⟨fresh, room⟩ := stands
    refine ⟨fires ▸ fresh, fun made is => ?_⟩
    obtain ⟨row, run, stored, reference, free⟩ := room made is
    exact ⟨row, run, trigger.trans stored, reference, Nat.lt_of_le_of_lt active free⟩

theorem eventId_run (trigger : Trigger) (delivery : Delivery) :
    (trigger.run delivery).eventId = some (.str (String.ofList delivery.message.eventId)) := by
  simp [Run.eventId, Trigger.run, webhookRunParams, Json.field, Json.fields, Json.record?, Json.lookup_assign,
    Json.lookup]

theorem accept_stands (system : System) (delivery : Delivery) (secretRef : String)
    (created : Except Json Unit) (now : Int) :
    (system.acceptWebhookTriggerFire delivery secretRef created now).Stands system delivery secretRef := by
  unfold System.acceptWebhookTriggerFire
  cases stored : system.trigger with
  | none =>
    intro trigger found
    rw [stored] at found
    cases found
  | some trigger =>
    have only : ∀ other, system.trigger = some other → other = trigger := fun other found =>
      Option.some.inj (found.symm.trans stored)
    dsimp only
    split
    · rename_i rotated
      exact fun other found _ => only other found ▸ rotated
    · rename_i current
      split
      · rename_i paused
        exact fun other found enabled => absurd (only other found ▸ enabled) paused
      · split
        · rename_i row found
          have key := List.find?_some found
          exact ⟨List.mem_of_find?_eq_some found, of_decide_eq_true key⟩
        · rename_i absent
          have fresh : ∀ fire ∈ system.fires, fire.fireKey ≠ delivery.fireKey := fun fire member =>
            of_decide_eq_false (by simpa using List.find?_eq_none.mp absent fire member)
          split
          · exact ⟨fresh, fun _ made => nomatch made⟩
          · rename_i free
            cases created with
            | error reason => exact ⟨fresh, fun _ made => nomatch made⟩
            | ok =>
              refine ⟨fresh, fun made is => ?_⟩
              obtain rfl := Option.some.inj is
              exact ⟨trigger, rfl, stored, Decidable.not_not.mp current, Nat.lt_of_not_le free⟩

/-- A delivery whose transaction does not hold the row moves on. -/
theorem System.Sound.put (sound : system.Sound platform hmac) {id : Nat}
    {stage : Stage} (free : ∀ outcome, system.lock ≠ some (id, outcome))
    (fine : stage.Fine platform hmac system delivery) :
    (system.put id delivery stage).Sound platform hmac := by
  refine { sound with stages := ?_, locked := ?_ }
  · intro other known reached found
    by_cases same : other = id
    · subst same
      rw [System.put_self] at found
      obtain ⟨rfl, rfl⟩ := Prod.mk.inj (Option.some.inj found)
      exact fine.mono (List.Subset.refl _) (List.Subset.refl _)
    · rw [System.put_of_ne _ _ _ same] at found
      exact (sound.stages other known reached found).mono (List.Subset.refl _) (List.Subset.refl _)
  · intro holder outcome held
    obtain ⟨known, secretRef, secret, found, stands⟩ := sound.locked holder outcome held
    have apart : holder ≠ id := fun same => free outcome (same ▸ held)
    exact ⟨known, secretRef, secret, (System.put_of_ne _ _ _ apart).trans found,
      stands.kept rfl rfl (Nat.le_refl _)⟩

/-- Only a delivery that was cleared may hold the row. -/
theorem System.Sound.not_held (sound : system.Sound platform hmac) {id : Nat}
    (other : ∀ delivery secretRef secret, system.deliveries id ≠ some (delivery, .cleared secretRef secret))
    (outcome : Outcome) : system.lock ≠ some (id, outcome) := by
  intro held
  obtain ⟨delivery, secretRef, secret, found, -⟩ := sound.locked id outcome held
  exact other delivery secretRef secret found

/-- Nobody holds the row after a transaction has ended. -/
theorem System.Sound.unlock (sound : system.Sound platform hmac) :
    ({ system with lock := none } : System).Sound platform hmac :=
  { sound with
    stages := fun id delivery stage found => (sound.stages id delivery stage found).mono
      (List.Subset.refl _) (List.Subset.refl _)
    locked := fun _ _ held => nomatch held }

theorem System.Sound.runId_lt (sound : system.Sound platform hmac) {runId : Nat}
    (listed : runId ∈ system.fires.filterMap Fire.runId) : runId < system.runs.length := by
  rw [sound.runs] at listed
  exact List.mem_range.mp listed

/-- A new row is recorded with its run. -/
theorem System.Sound.record (sound : system.Sound platform hmac)
    (unlocked : system.lock = none) {secretRef : String} {status : FireStatus}
    {reason : Option Json} {run : Option Run} {createdAt : Int}
    (stands : (Outcome.made status reason run createdAt).Stands system delivery secretRef) {row : Fire}
    (key : row.fireKey = delivery.fireKey) (names : row.runId = run.map fun _ => system.runs.length) :
    ({ system with fires := system.fires ++ [row], runs := system.runs ++ run.toList } : System).Sound
      platform hmac where
  once := by
    rw [List.map_append, List.map_singleton, List.nodup_append]
    refine ⟨sound.once, List.nodup_singleton _, fun old member new is => ?_⟩
    obtain ⟨fire, stored, rfl⟩ := List.mem_map.mp member
    rw [List.mem_singleton.mp is, key]
    exact stands.1 fire stored
  runs := by
    rw [List.filterMap_append, sound.runs, List.length_append]
    cases run with
    | none => simp [names]
    | some made => simp [names, List.range_succ]
  events := by
    intro fire member runId named
    rcases List.mem_append.mp member with old | new
    · obtain ⟨known, eventId, found, rest⟩ := sound.events fire old runId named
      exact ⟨known, eventId, (List.getElem?_append_left (List.getElem?_eq_some_iff.mp found).1).trans found, rest⟩
    · obtain rfl := List.mem_singleton.mp new
      cases run with
      | none => simp [names] at named
      | some made =>
        obtain rfl : system.runs.length = runId := by simpa [names] using named
        obtain ⟨trigger, rfl, -⟩ := stands.2 made rfl
        exact ⟨_, delivery.message.eventId, by simp, key, eventId_run trigger delivery⟩
  stages id known stage found := (sound.stages id known stage found).mono (List.Subset.refl _)
    (List.subset_append_left _ _)
  locked id outcome held := by
    have held' : system.lock = some (id, outcome) := held
    rw [unlocked] at held'
    cases held'

theorem System.Sound.write (sound : system.Sound platform hmac)
    (unlocked : system.lock = none) {id : Nat} {secretRef : String} {outcome : Outcome}
    (stands : outcome.Stands system delivery secretRef) :
    (system.write id delivery outcome).Sound platform hmac := by
  have free : ∀ (other : System), other.lock = none → ∀ outcome, other.lock ≠ some (id, outcome) := by
    intro other none outcome held
    rw [none] at held
    cases held
  match outcome with
  | .refused _ => exact sound.put (free _ unlocked) trivial
  | .duplicate row => exact sound.put (free _ unlocked) ⟨row, stands.1, stands.2, true, rfl⟩
  | .made status reason run createdAt =>
    refine System.Sound.put (sound.record unlocked stands rfl rfl) (free _ unlocked) ?_
    exact ⟨_, List.mem_append_right _ (List.mem_singleton_self _), rfl, false, rfl⟩

theorem System.transition_cases (system : System) (runId : Nat) (event : RunEvent) (guard : RunGuard) :
    system.transition runId event guard = system ∨ ∃ run status, system.runs[runId]? = some run ∧
      run.status.terminal = false ∧
      system.transition runId event guard =
        { system with runs := system.runs.set runId { run with status } } := by
  unfold System.transition
  cases found : system.runs[runId]? with
  | none => exact .inl rfl
  | some run =>
    dsimp only
    cases moved : transitionRun run.status event guard with
    | error _ => exact .inl rfl
    | ok result =>
      refine .inr ⟨run, result.next, rfl, ?_, rfl⟩
      by_contra ended
      obtain ⟨error, refused⟩ :=
        transitionRun_terminal (by simpa using ended) event guard
      rw [refused] at moved
      cases moved

/-- Runs only end. -/
theorem countActiveRuns_set {runId : Nat} {run : Run} (status : RunState)
    (found : system.runs[runId]? = some run) (active : run.status.terminal = false) :
    ({ system with runs := system.runs.set runId { run with status } } : System).countActiveRuns ≤
      system.countActiveRuns := by
  refine List.countP_mono_left fun other _ => ?_
  unfold System.runActive
  rw [List.getElem?_set]
  split
  · rename_i same
    subst same
    intro _
    simp [found, active]
  · exact id

theorem System.Sound.transition (sound : system.Sound platform hmac) (runId : Nat)
    (event : RunEvent) (guard : RunGuard) : (system.transition runId event guard).Sound platform hmac := by
  obtain same | ⟨run, status, found, active, moved⟩ := system.transition_cases runId event guard
  · rwa [same]
  · rw [moved]
    refine { once := sound.once, runs := ?_, events := ?_, stages := ?_, locked := ?_ }
    · rw [sound.runs, List.length_set]
    · intro fire member other named
      obtain ⟨known, eventId, stored, key, event⟩ := sound.events fire member other named
      by_cases same : runId = other
      · subst same
        obtain rfl := Option.some.inj (found.symm.trans stored)
        refine ⟨{ run with status }, eventId, ?_, key, event⟩
        rw [List.getElem?_set_self (List.getElem?_eq_some_iff.mp found).1]
      · exact ⟨known, eventId, (List.getElem?_set_ne same).trans stored, key, event⟩
    · exact fun id known stage at_ => (sound.stages id known stage at_).mono (List.Subset.refl _)
        (List.Subset.refl _)
    · intro id outcome held
      obtain ⟨known, secretRef, secret, at_, stands⟩ := sound.locked id outcome held
      exact ⟨known, secretRef, secret, at_,
        stands.kept rfl rfl (countActiveRuns_set status found active)⟩

/-- Secrets, the offboarding and more resolved references change nothing else. -/
theorem System.Sound.surroundings (sound : system.Sound platform hmac)
    (secrets : String → Option String) (offboarding : Bool) {resolved : List (String × String)}
    (more : system.resolved ⊆ resolved) :
    ({ system with secrets, offboarding, resolved } : System).Sound platform hmac where
  once := sound.once
  runs := sound.runs
  events := sound.events
  stages id known stage found := (sound.stages id known stage found).mono more (List.Subset.refl _)
  locked id outcome held := by
    obtain ⟨known, secretRef, secret, found, stands⟩ := sound.locked id outcome held
    exact ⟨known, secretRef, secret, found, stands.kept rfl rfl (Nat.le_refl _)⟩

/-- A transaction that ends finds its delivery, and the outcome it relied on. -/
theorem System.Sound.held (sound : system.Sound platform hmac) {id : Nat} {outcome : Outcome}
    (held : system.lock = some (id, outcome)) : ∃ delivery secretRef secret,
      system.deliveries id = some (delivery, .cleared secretRef secret) ∧
      outcome.Stands { system with lock := none } delivery secretRef ∧
      step platform hmac system .commit = ({ system with lock := none } : System).write id delivery outcome ∧
      step platform hmac system .rollback =
        ({ system with lock := none } : System).answer id delivery (.error .internal) := by
  obtain ⟨delivery, secretRef, secret, found, stands⟩ := sound.locked id outcome held
  exact ⟨delivery, secretRef, secret, found, stands.kept rfl rfl (Nat.le_refl _),
    by simp only [step, held, found], by simp only [step, held, found]⟩

theorem step_sound (system : System) (action : Action) (sound : system.Sound platform hmac) :
    (step platform hmac system action).Sound platform hmac := by
  cases action with
  | arrive id delivery =>
    cases found : system.deliveries id with
    | some known => simpa only [step, found] using sound
    | none =>
      have free := @System.Sound.not_held platform hmac _ sound id (by simp [found])
      cases stored : system.trigger with
      | none =>
        simp only [step, found, stored]
        exact sound.put free trivial
      | some trigger =>
        simp only [step, found, stored]
        split
        · exact sound.put free trivial
        · exact sound.put free trivial
  | verify id =>
    cases found : system.deliveries id with
    | none => simpa only [step, found] using sound
    | some known =>
      obtain ⟨delivery, stage⟩ := known
      cases stage with
      | selected secretRef =>
        have free := @System.Sound.not_held platform hmac _ sound id (by simp [found])
        cases stored : system.secrets secretRef with
        | none =>
          simp only [step, found, stored]
          exact sound.put free trivial
        | some secret =>
          have wider := sound.surroundings system.secrets system.offboarding
            (List.subset_cons_self (secretRef, secret) system.resolved)
          simp only [step, found, stored]
          split
          · rename_i verified
            exact wider.put free ⟨List.mem_cons_self, verified⟩
          · exact wider.put free trivial
      | _ => simpa only [step, found] using sound
  | checkOffboarding id =>
    cases found : system.deliveries id with
    | none => simpa only [step, found] using sound
    | some known =>
      obtain ⟨delivery, stage⟩ := known
      cases stage with
      | verified secretRef secret =>
        have free := @System.Sound.not_held platform hmac _ sound id (by simp [found])
        simp only [step, found]
        split
        · exact sound.put free trivial
        · have known := sound.stages id delivery _ found
          exact sound.put free ⟨known.1, known.2⟩
      | _ => simpa only [step, found] using sound
  | begin id created now =>
    cases held : system.lock with
    | some holder => simpa only [step, held] using sound
    | none =>
      cases found : system.deliveries id with
      | none => simpa only [step, held, found] using sound
      | some known =>
        obtain ⟨delivery, stage⟩ := known
        cases stage with
        | cleared secretRef secret =>
          simp only [step, held, found]
          refine { sound with stages := ?_, locked := ?_ }
          · exact fun other known stage at_ => (sound.stages other known stage at_).mono
              (List.Subset.refl _) (List.Subset.refl _)
          · intro other outcome taken
            obtain ⟨rfl, rfl⟩ := Prod.mk.inj (Option.some.inj taken)
            exact ⟨delivery, secretRef, secret, found,
              (accept_stands system delivery secretRef created now).kept rfl rfl (Nat.le_refl _)⟩
        | _ => simpa only [step, held, found] using sound
  | commit =>
    cases held : system.lock with
    | none => simpa only [step, held] using sound
    | some holder =>
      obtain ⟨delivery, secretRef, secret, -, stands, committed, -⟩ := sound.held held
      rw [committed]
      exact sound.unlock.write rfl stands
  | rollback =>
    cases held : system.lock with
    | none => simpa only [step, held] using sound
    | some holder =>
      obtain ⟨delivery, secretRef, secret, -, -, -, undone⟩ := sound.held held
      rw [undone]
      exact sound.unlock.put (fun _ taken => nomatch taken) trivial
  | edit trigger =>
    simp only [step]
    split
    · rename_i free
      refine { sound with stages := ?_, locked := ?_ }
      · exact fun id known stage at_ => (sound.stages id known stage at_).mono (List.Subset.refl _)
          (List.Subset.refl _)
      · intro id outcome taken
        rw [Option.isNone_iff_eq_none.mp free] at taken
        cases taken
    · exact sound
  | setSecret secretRef secret => exact sound.surroundings _ system.offboarding (List.Subset.refl _)
  | setOffboarding locked => exact sound.surroundings system.secrets locked (List.Subset.refl _)
  | transition runId event guard => exact sound.transition runId event guard

theorem initial_sound (trigger : Option Trigger) (secrets : String → Option String) (offboarding : Bool) :
    (initial trigger secrets offboarding).Sound platform hmac where
  once := List.nodup_nil
  runs := rfl
  events _ member := nomatch member
  stages _ _ _ found := nomatch found
  locked _ _ held := nomatch held

/-! ## What follows -/

/-- Runs of one event are one run. -/
theorem System.Sound.events_nodup (sound : system.Sound platform hmac) :
    (system.runs.map Run.eventId).Nodup := by
  have row : ∀ runId run, system.runs[runId]? = some run → ∃ fire ∈ system.fires, fire.runId = some runId ∧
      ∃ eventId, fire.fireKey = "webhook:".toList ++ eventId ∧
        run.eventId = some (.str (String.ofList eventId)) := by
    intro runId run found
    have listed : runId ∈ system.fires.filterMap Fire.runId := by
      rw [sound.runs]
      exact List.mem_range.mpr (List.getElem?_eq_some_iff.mp found).1
    obtain ⟨fire, member, named⟩ := List.mem_filterMap.mp listed
    obtain ⟨known, eventId, stored, key, event⟩ := sound.events fire member runId named
    obtain rfl := Option.some.inj (found.symm.trans stored)
    exact ⟨fire, member, named, eventId, key, event⟩
  rw [List.nodup_iff_getElem?_ne_getElem?]
  intro one two before bound same
  simp only [List.length_map] at bound
  obtain ⟨fire, member, named, eventId, key, event⟩ :=
    row one _ (List.getElem?_eq_getElem (Nat.lt_trans before bound))
  obtain ⟨fire', member', named', eventId', key', event'⟩ := row two _ (List.getElem?_eq_getElem bound)
  simp only [List.getElem?_map, List.getElem?_eq_getElem bound,
    List.getElem?_eq_getElem (Nat.lt_trans before bound), Option.map_some, event, event'] at same
  have ids : eventId = eventId' := String.ofList_injective (by simpa using same)
  obtain rfl := List.inj_on_of_nodup_map sound.once member member' (by rw [key, key', ids])
  have places := Option.some.inj (named.symm.trans named')
  omega

theorem System.Sound.receiptsAgree (sound : system.Sound platform hmac) :
    system.ReceiptsAgree := by
  intro id id' delivery delivery' receipt receipt' found found' same
  obtain ⟨row, member, key, flag, rfl⟩ := sound.stages id delivery _ found
  obtain ⟨row', member', key', flag', rfl⟩ := sound.stages id' delivery' _ found'
  obtain rfl := List.inj_on_of_nodup_map sound.once member member' 
    (key.trans ((Delivery.fireKey_congr same).trans key'.symm))
  rfl

/-- One more run is one more active run. -/
theorem countActiveRuns_record (sound : system.Sound platform hmac) (made : Run) {row : Fire}
    (names : row.runId = some system.runs.length) :
    ({ system with fires := system.fires ++ [row], runs := system.runs ++ [made] } : System).countActiveRuns ≤
      system.countActiveRuns + 1 := by
  unfold System.countActiveRuns
  rw [List.filterMap_append, List.countP_append]
  refine Nat.add_le_add (Nat.le_of_eq (List.countP_congr fun runId listed => ?_)) ?_
  · simp only [System.runActive, List.getElem?_append_left (sound.runId_lt listed)]
  · exact List.countP_le_length.trans (by simp [names])

theorem commit_creates (sound : system.Sound platform hmac) :
    CreatesProperly platform hmac system .commit := by
  cases held : system.lock with
  | none =>
    refine .inl ?_
    simp only [step, held]
  | some holder =>
    obtain ⟨id, outcome⟩ := holder
    obtain ⟨delivery, secretRef, secret, found, stands, committed, -⟩ := sound.held held
    unfold CreatesProperly
    rw [committed]
    match outcome with
    | .refused _ | .duplicate _ | .made _ _ none _ => exact .inl (by simp [System.write, System.answer, System.put])
    | .made status reason (some made) createdAt =>
      obtain ⟨trigger, rfl, stored, rfl, free⟩ := stands.2 made rfl
      obtain ⟨resolved, verified⟩ := sound.stages id delivery _ found
      refine .inr ⟨rfl, id, _, delivery, secret, trigger, held, found, stored, rfl, ?_, resolved, verified⟩
      exact (countActiveRuns_record sound.unlock (trigger.run delivery) rfl).trans free

theorem step_creates (system : System) (action : Action) (sound : system.Sound platform hmac) :
    CreatesProperly platform hmac system action := by
  cases action with
  | commit => exact commit_creates sound
  | transition runId event guard =>
    refine .inl ?_
    obtain same | ⟨run, status, -, -, moved⟩ := system.transition_cases runId event guard
    · rw [step, same]
    · rw [step, moved, List.length_set]
  | _ =>
    refine .inl ?_
    simp only [step]
    repeat' split
    all_goals rfl

theorem step_answers (system : System) (action : Action) (sound : system.Sound platform hmac) :
    AnswersDuplicates platform hmac system action := by
  rintro rfl id outcome delivery secretRef secret trigger held found stored enabled current row member key
  obtain ⟨known, reference, secret', found', stands, committed, -⟩ := sound.held held
  obtain ⟨rfl, same⟩ := Prod.mk.inj (Option.some.inj (found.symm.trans found'))
  obtain ⟨rfl, rfl⟩ := Stage.cleared.inj same
  rw [committed]
  match outcome with
  | .refused _ => exact absurd current (stands trigger stored enabled)
  | .duplicate other =>
    obtain rfl := List.inj_on_of_nodup_map sound.once member stands.1 (key.trans stands.2.symm)
    exact System.put_self _ _ _ _
  | .made _ _ _ _ => exact absurd key (stands.1 row member)

/-- Whatever deliveries, edits, rotations and ends of runs come in whatever order,
no two runs are made for one event, every run is made within the limit and under
the current reference, and duplicates are answered with the receipt of the first. -/
theorem webhook_firing (platform : Platform) (hmac : Hmac) (trigger : Option Trigger)
    (secrets : String → Option String) (offboarding : Bool) (schedule : List Action) :
    Throughout (step platform hmac)
        (fun system => (system.runs.map Run.eventId).Nodup ∧ system.ReceiptsAgree)
        (initial trigger secrets offboarding) schedule ∧
      Along (step platform hmac)
        (fun system action =>
          CreatesProperly platform hmac system action ∧ AnswersDuplicates platform hmac system action)
        (initial trigger secrets offboarding) schedule := by
  have start := @initial_sound platform hmac trigger secrets offboarding
  constructor
  · exact throughout_invariant _ (fun system action => step_sound system action)
      (fun system sound => ⟨sound.events_nodup, sound.receiptsAgree⟩) start schedule
  · have every : Along (step platform hmac) (fun _ _ => True) (initial trigger secrets offboarding) schedule :=
      along_of_mem _ (fun _ _ _ => trivial) _
    refine along_keeps (fun system action _ => step_sound system action) ?_ every start
    exact fun system action _ sound => ⟨step_creates system action sound, step_answers system action sound⟩

end RpaEnterprise.Api.WebhookFires
