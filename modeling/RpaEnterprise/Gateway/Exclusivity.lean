import RpaEnterprise.Gateway.LlmGateway
import RpaEnterprise.Lib.Execution

/-!
# Who holds a reservation

`reserve` is a transaction of up to three statements under `READ COMMITTED`,
and other callers run between them.  The `INSERT` is the last statement when it
inserts, and the reopening `UPDATE` when there is one, so each is one step with
its commit; `complete` and `fail` are one statement each.  A caller that was
answered `reserved` holds its call id until it completes or fails it.

The `UPDATE` names the row by its id alone.  What the `SELECT` read may be gone
by then, and a run keeps one holder for a key exactly when no reopening finds
its row open.
-/

namespace RpaEnterprise.Gateway

open Lib

inductive Caller where
  | idle
  /-- The `INSERT` met the row of the key; the `SELECT` is next. -/
  | conflicted (request : LLMRequest) (callId : CallId)
  /-- The `SELECT` read a row that failed; its `UPDATE` is next. -/
  | reopening (request : LLMRequest) (callId : CallId)
  /-- Answered `reserved`, and neither completed nor failed since. -/
  | holding (request : LLMRequest) (callId : CallId)
  /-- Any other answer. -/
  | answered (reservation : Reservation)

/-- The caller is in no transaction and holds nothing. -/
def Caller.free : Caller → Bool
  | .idle | .answered _ => true
  | _ => false

structure Sessions where
  store : Store
  callers : Nat → Caller

def Sessions.start (store : Store) : Sessions := ⟨store, fun _ => .idle⟩

/-- A statement that commits: the store it leaves and where its caller goes. -/
def Sessions.move (sessions : Sessions) (store : Store) (caller : Nat) (place : Caller) : Sessions :=
  ⟨store, Function.update sessions.callers caller place⟩

/-- What `reserve` makes of the row that its `SELECT` returned. -/
def readRow (request : LLMRequest) (id : CallId) (row : StagehandCall) : Caller :=
  if row.requestHash ≠ request.requestHash then .answered (.blocked "request_hash_mismatch")
  else
    match row.streamStatus, row.outputRef with
    | .done, some outputRef => .answered (.replay (responseFromRow id row outputRef))
    | .error, _ | .aborted, _ => .reopening request id
    | _, _ => .answered (.inFlight id)

def readExisting (request : LLMRequest) (callId : CallId) : Option (CallId × StagehandCall) → Caller
  | none => .answered (.inFlight callId)
  | some (id, row) => readRow request id row

inductive Statement where
  | insert (caller : Nat) (request : LLMRequest) (callId : CallId)
  | select (caller : Nat)
  | update (caller : Nat)
  | complete (caller : Nat) (response : LLMResponse)
  | fail (caller : Nat)
  /-- A `reserve` that is still between its statements is rolled back. -/
  | rollback (caller : Nat)

/-- `INSERT … ON CONFLICT (tenant_id, idempotency_key) DO NOTHING`. -/
def insertCall (sessions : Sessions) (caller : Nat) (request : LLMRequest) (callId : CallId) :
    Sessions :=
  match sessions.store.find? fun _ row => row.isFor request with
  | some _ => sessions.move sessions.store caller (.conflicted request callId)
  | none =>
    match sessions.store.insert? callId (.reserved request) with
    | some store => sessions.move store caller (.holding request callId)
    | none => sessions

/-- The end of a call: the row it holds is written and the caller lets go. -/
def settle (sessions : Sessions) (caller : Nat) (write : CallId → Option Store) : Sessions :=
  match sessions.callers caller with
  | .holding _ callId =>
    match write callId with
    | some store => sessions.move store caller .idle
    | none => sessions
  | _ => sessions

def statement (sessions : Sessions) : Statement → Sessions
  | .insert caller request callId =>
    if (sessions.callers caller).free then insertCall sessions caller request callId
    else sessions
  | .select caller =>
    match sessions.callers caller with
    | .conflicted request callId =>
      sessions.move sessions.store caller
        (readExisting request callId (sessions.store.find? fun _ row => row.isFor request))
    | _ => sessions
  | .update caller =>
    match sessions.callers caller with
    | .reopening request callId =>
      sessions.move (sessions.store.modify callId fun row => row.reopened request) caller
        (.holding request callId)
    | _ => sessions
  | .complete caller response => settle sessions caller (complete sessions.store · response)
  | .fail caller => settle sessions caller (fail sessions.store ·)
  | .rollback caller =>
    match sessions.callers caller with
    | .conflicted _ _ | .reopening _ _ => sessions.move sessions.store caller .idle
    | _ => sessions

/-- Two callers that hold a reservation of one tenant and key are one. -/
def Exclusive (sessions : Sessions) : Prop :=
  ∀ first second one two firstId secondId,
    sessions.callers first = .holding one firstId →
    sessions.callers second = .holding two secondId →
    one.metadata.tenantId = two.metadata.tenantId → one.idempotencyKey = two.idempotencyKey →
    first = second

/-- The row that a reopening `UPDATE` is about to write. -/
def reopenedRow (sessions : Sessions) : Statement → Option StagehandCall
  | .update caller =>
    match sessions.callers caller with
    | .reopening _ callId => sessions.store.get callId
    | _ => none
  | _ => none

/-- A reopening `UPDATE` runs when its row is not open. -/
def FindsSettled (sessions : Sessions) (next : Statement) : Prop :=
  (reopenedRow sessions next).map StagehandCall.streamStatus ≠ some .opened

instance (sessions : Sessions) (next : Statement) : Decidable (FindsSettled sessions next) :=
  inferInstanceAs (Decidable (_ ≠ _))

/-! ## What a statement moves -/

/-- A row holds the key of a request. -/
def Store.Holds (store : Store) (callId : CallId) (request : LLMRequest) : Prop :=
  ∃ row, store.get callId = some row ∧ row.isFor request = true

/-- Every row is still there, under the same tenant and key. -/
def Store.Keeps (old new : Store) : Prop :=
  ∀ callId request, old.Holds callId request → new.Holds callId request

theorem Store.Keeps.refl (store : Store) : store.Keeps store :=
  fun _ _ holds => holds

theorem modify_keeps (store : Store) (callId : CallId) (change : StagehandCall → StagehandCall)
    (same : ∀ row request, (change row).isFor request = row.isFor request) :
    Store.Keeps store (store.modify callId change) := by
  rintro other request ⟨row, stored, isFor⟩
  by_cases here : other = callId
  · subst here
    exact ⟨change row, by simp [stored], (same row request).trans isFor⟩
  · exact ⟨row, by rw [Table.get_modify_of_ne store change here]; exact stored, isFor⟩

@[simp]
theorem Sessions.move_store (sessions : Sessions) (store : Store) (caller : Nat) (place : Caller) :
    (sessions.move store caller place).store = store := rfl

@[simp]
theorem Sessions.move_self (sessions : Sessions) (store : Store) (caller : Nat) (place : Caller) :
    (sessions.move store caller place).callers caller = place := by
  simp [Sessions.move]

theorem Sessions.move_other (sessions : Sessions) (store : Store) {caller other : Nat}
    (place : Caller) (different : other ≠ caller) :
    (sessions.move store caller place).callers other = sessions.callers other := by
  simp [Sessions.move, different]

/-! ## One holder -/

/-- `UNIQUE (tenant_id, idempotency_key)`. -/
def Store.Unique (store : Store) : Prop :=
  ∀ first second request, store.Holds first request → store.Holds second request → first = second

variable {sessions : Sessions} {request : LLMRequest} {store : Store}

theorem StagehandCall.isFor_iff {row : StagehandCall} :
    row.isFor request = true ↔
      row.tenantId = request.metadata.tenantId ∧ row.idempotencyKey = request.idempotencyKey := by
  simp [StagehandCall.isFor]

theorem holds_modify_iff {callId other : CallId} {change : StagehandCall → StagehandCall}
    (same : ∀ row request, (change row).isFor request = row.isFor request) :
    Store.Holds (store.modify callId change) other request ↔ store.Holds other request := by
  constructor
  · rintro ⟨row, stored, isFor⟩
    by_cases here : other = callId
    · subst here
      rw [Table.get_modify_self, Option.map_eq_some_iff] at stored
      obtain ⟨old, before, rfl⟩ := stored
      exact ⟨old, before, (same old request).symm.trans isFor⟩
    · exact ⟨row, (Table.get_modify_of_ne store change here).symm.trans stored, isFor⟩
  · exact modify_keeps store callId change same other request

theorem Store.Unique.modify {callId : CallId} {change : StagehandCall → StagehandCall}
    (same : ∀ row request, (change row).isFor request = row.isFor request)
    (unique : store.Unique) : Store.Unique (store.modify callId change) := by
  intro first second request one two
  exact unique first second request ((holds_modify_iff same).mp one) ((holds_modify_iff same).mp two)

/-- A row that holds a key is the row of an open call. -/
def Store.Open (store : Store) (callId : CallId) (request : LLMRequest) : Prop :=
  ∃ row, store.get callId = some row ∧ row.isFor request = true ∧ row.streamStatus = .opened

/-- What a place of a caller says about the store, nobody else holding the row
of a holder. -/
def Placed (sessions : Sessions) (store : Store) (caller : Nat) : Caller → Prop
  | .reopening request callId => store.Holds callId request
  | .holding request callId =>
    store.Open callId request ∧
      ∀ other other', other ≠ caller → sessions.callers other ≠ .holding other' callId
  | _ => True

structure Sound (sessions : Sessions) : Prop where
  unique : sessions.store.Unique
  placed : ∀ caller, Placed sessions sessions.store caller (sessions.callers caller)

/-- Every open row has its holder. -/
def Claimed (sessions : Sessions) : Prop :=
  ∀ callId row, sessions.store.get callId = some row → row.streamStatus = .opened →
    ∃ caller request, sessions.callers caller = .holding request callId

theorem Sound.held (sound : Sound sessions) {caller : Nat}
    {callId : CallId} (holds : sessions.callers caller = .holding request callId) :
    sessions.store.Open callId request := by
  have placed := sound.placed caller
  rw [holds] at placed
  exact placed.1

theorem Sound.sole (sound : Sound sessions) {first second : Nat}
    {one two : LLMRequest} {callId : CallId} (holds : sessions.callers first = .holding one callId)
    (also : sessions.callers second = .holding two callId) : first = second := by
  have placed := sound.placed second
  rw [also] at placed
  by_contra different
  exact placed.2 first one different holds

theorem Sound.exclusive (sound : Sound sessions) : Exclusive sessions := by
  intro first second one two firstId secondId holdsOne holdsTwo sameTenant sameKey
  obtain ⟨row, stored, isFor, -⟩ := sound.held holdsOne
  obtain ⟨row', stored', isFor', -⟩ := sound.held holdsTwo
  rw [StagehandCall.isFor_iff, sameTenant, sameKey, ← StagehandCall.isFor_iff] at isFor
  obtain rfl := sound.unique firstId secondId two ⟨row, stored, isFor⟩ ⟨row', stored', isFor'⟩
  exact sound.sole holdsOne holdsTwo

/-- A commit keeps the invariant when it keeps the rows, leaves the rows of the
other holders alone and puts its own caller in a place that fits. -/
theorem Sound.move {caller : Nat} {place : Caller}
    (sound : Sound sessions) (unique : store.Unique) (keeps : Store.Keeps sessions.store store)
    (others : ∀ other request callId, other ≠ caller →
      sessions.callers other = .holding request callId →
      store.get callId = sessions.store.get callId)
    (fits : Placed sessions store caller place) : Sound (sessions.move store caller place) := by
  refine ⟨unique, fun other => ?_⟩
  by_cases self : other = caller
  · subst self
    rw [Sessions.move_self]
    cases place with
    | holding request callId =>
      refine ⟨fits.1, fun third request' different => ?_⟩
      rw [Sessions.move_other _ _ _ different]
      exact fits.2 third request' different
    | reopening request callId => exact fits
    | idle => trivial
    | conflicted request callId => trivial
    | answered reservation => trivial
  · have before := sound.placed other
    rw [Sessions.move_other _ _ _ self]
    cases at_ : sessions.callers other with
    | holding request callId =>
      rw [at_] at before
      refine ⟨?_, fun third request' different => ?_⟩
      · obtain ⟨row, stored, rest⟩ := before.1
        exact ⟨row, (others other request callId self at_).trans stored, rest⟩
      · by_cases mover : third = caller
        · subst mover
          rw [Sessions.move_self]
          rintro rfl
          exact fits.2 other request self at_
        · rw [Sessions.move_other _ _ _ mover]
          exact before.2 third request' different
    | reopening request callId =>
      rw [at_] at before
      exact keeps _ _ before
    | idle => trivial
    | conflicted request callId => trivial
    | answered reservation => trivial

/-- A commit leaves no open row without a holder when the rows that are open
after it are its caller's or were open before, and not its caller's. -/
theorem Claimed.move {caller : Nat} {place : Caller} (claimed : Claimed sessions)
    (rows : ∀ callId row, store.get callId = some row → row.streamStatus = .opened →
      (∃ request, place = .holding request callId) ∨
        sessions.store.get callId = some row ∧
          ∀ request, sessions.callers caller ≠ .holding request callId) :
    Claimed (sessions.move store caller place) := by
  intro callId row stored opened
  rcases rows callId row stored opened with ⟨request, rfl⟩ | ⟨before, other⟩
  · exact ⟨caller, request, Sessions.move_self _ _ _ _⟩
  · obtain ⟨holder, request, holds⟩ := claimed callId row before opened
    refine ⟨holder, request, ?_⟩
    rw [Sessions.move_other]
    · exact holds
    · rintro rfl
      exact other request holds

/-! ## What a statement does -/

/-- What a statement can do to the sessions. -/
inductive Effect (sessions : Sessions) : Statement → Sessions → Prop where
  | refused (next : Statement) : Effect sessions next sessions
  /-- Nothing is written, and the caller holds nothing before or after. -/
  | reads (next : Statement) (caller : Nat) (place : Caller)
      (before : ∀ request callId, sessions.callers caller ≠ .holding request callId)
      (after : ∀ request callId, place ≠ .holding request callId)
      (fits : Placed sessions sessions.store caller place) :
      Effect sessions next (sessions.move sessions.store caller place)
  | inserts (caller : Nat) (request : LLMRequest) (callId : CallId) (store : Store)
      (before : ∀ request callId, sessions.callers caller ≠ .holding request callId)
      (absent : ∀ id, ¬ sessions.store.Holds id request)
      (inserted : sessions.store.insert? callId (.reserved request) = some store) :
      Effect sessions (.insert caller request callId)
        (sessions.move store caller (.holding request callId))
  | reopens (caller : Nat) (request : LLMRequest) (callId : CallId)
      (before : sessions.callers caller = .reopening request callId) :
      Effect sessions (.update caller)
        (sessions.move (sessions.store.modify callId fun row => row.reopened request) caller
          (.holding request callId))
  | settles (next : Statement) (caller : Nat) (request : LLMRequest) (callId : CallId)
      (change : StagehandCall → StagehandCall)
      (before : sessions.callers caller = .holding request callId)
      (same : ∀ row request, (change row).isFor request = row.isFor request)
      (closed : ∀ row, (change row).streamStatus ≠ .opened) :
      Effect sessions next (sessions.move (sessions.store.modify callId change) caller .idle)

theorem not_holding_of_free {place : Caller} (free : place.free = true) (request : LLMRequest)
    (callId : CallId) : place ≠ .holding request callId := by
  rintro rfl
  cases free

theorem insertCall_effect (sessions : Sessions) {caller : Nat} (request : LLMRequest)
    (callId : CallId) (free : (sessions.callers caller).free = true) :
    Effect sessions (.insert caller request callId) (insertCall sessions caller request callId) := by
  unfold insertCall
  split
  · exact .reads _ _ _ (not_holding_of_free free) (fun _ _ => Caller.noConfusion) trivial
  · rename_i unmatched
    rw [Table.find?_eq_none_iff] at unmatched
    split
    · rename_i store inserted
      refine .inserts _ _ _ _ (not_holding_of_free free) ?_ inserted
      rintro id ⟨row, stored, isFor⟩
      rw [unmatched id row stored] at isFor
      cases isFor
    · exact .refused _

theorem readRow_place (sessions : Sessions) (caller : Nat) {id : CallId}
    {row : StagehandCall} (holds : sessions.store.Holds id request) :
    (∀ request' callId, readRow request id row ≠ .holding request' callId) ∧
      Placed sessions sessions.store caller (readRow request id row) := by
  unfold readRow
  split
  · exact ⟨fun _ _ => Caller.noConfusion, trivial⟩
  · split
    · exact ⟨fun _ _ => Caller.noConfusion, trivial⟩
    · exact ⟨fun _ _ => Caller.noConfusion, holds⟩
    · exact ⟨fun _ _ => Caller.noConfusion, holds⟩
    · exact ⟨fun _ _ => Caller.noConfusion, trivial⟩

theorem readExisting_place (sessions : Sessions) (caller : Nat) (request : LLMRequest)
    (callId : CallId) :
    let place := readExisting request callId (sessions.store.find? fun _ row => row.isFor request)
    (∀ request' callId, place ≠ .holding request' callId) ∧
      Placed sessions sessions.store caller place := by
  cases found : sessions.store.find? fun _ row => row.isFor request with
  | none => exact ⟨fun _ _ => Caller.noConfusion, trivial⟩
  | some entry => exact readRow_place sessions caller ⟨entry.2, Table.find?_some found⟩

theorem settle_effect (sessions : Sessions) (next : Statement) (caller : Nat)
    {change : StagehandCall → StagehandCall}
    (same : ∀ row request, (change row).isFor request = row.isFor request)
    (closed : ∀ row, (change row).streamStatus ≠ .opened) :
    Effect sessions next (settle sessions caller (updateOne sessions.store · change)) := by
  unfold settle
  split
  · rename_i request callId holds
    cases stored : sessions.store.get callId with
    | none =>
      simp only [updateOne, stored, Option.map_none]
      exact .refused _
    | some row =>
      simp only [updateOne, stored, Option.map_some]
      exact .settles _ _ _ _ _ holds same closed
  · exact .refused _

theorem statement_effect (sessions : Sessions) (next : Statement) :
    Effect sessions next (statement sessions next) := by
  cases next with
  | insert caller request callId =>
    by_cases free : (sessions.callers caller).free = true
    · rw [statement, if_pos free]
      exact insertCall_effect sessions request callId free
    · rw [statement, if_neg free]
      exact .refused _
  | select caller =>
    simp only [statement]
    split
    · rename_i request callId conflicted
      obtain ⟨after, fits⟩ := readExisting_place sessions caller request callId
      refine .reads _ _ _ ?_ after fits
      simp [conflicted]
    · exact .refused _
  | update caller =>
    simp only [statement]
    split
    · rename_i request callId reopening
      exact .reopens _ _ _ reopening
    · exact .refused _
  | complete caller response | fail caller =>
    exact settle_effect sessions _ caller (fun _ _ => rfl) fun _ => StreamStatus.noConfusion
  | rollback caller =>
    simp only [statement]
    split
    · rename_i between
      exact .reads _ _ _ (by simp [between]) (fun _ _ => Caller.noConfusion) trivial
    · rename_i between
      exact .reads _ _ _ (by simp [between]) (fun _ _ => Caller.noConfusion) trivial
    · exact .refused _

/-! ## Every run -/

theorem insert?_unique {store next : Store} {callId : CallId}
    (unique : store.Unique) (absent : ∀ id, ¬ store.Holds id request)
    (inserted : store.insert? callId (.reserved request) = some next) : Store.Unique next := by
  have holds : ∀ id other, Store.Holds next id other →
      id = callId ∧ (StagehandCall.reserved request).isFor other = true ∨ store.Holds id other := by
    rintro id other ⟨row, stored, isFor⟩
    rw [Table.get_insert? inserted] at stored
    split at stored
    · rename_i here
      cases stored
      exact .inl ⟨here, isFor⟩
    · exact .inr ⟨row, stored, isFor⟩
  -- a request for the key of the new row is for the key of `request`
  have apart : ∀ id other, (StagehandCall.reserved request).isFor other = true →
      ¬ store.Holds id other := by
    rintro id other new ⟨row, stored, isFor⟩
    refine absent id ⟨row, stored, ?_⟩
    rw [StagehandCall.isFor_iff] at new isFor ⊢
    exact ⟨isFor.1.trans new.1.symm, isFor.2.trans new.2.symm⟩
  intro first second other one two
  rcases holds first other one with ⟨rfl, new⟩ | old
  · rcases holds second other two with ⟨rfl, -⟩ | old
    · rfl
    · exact absurd old (apart second other new)
  · rcases holds second other two with ⟨rfl, new⟩ | older
    · exact absurd old (apart first other new)
    · exact unique first second other old older

theorem keeps_insert? {store next : Store} {callId : CallId} {row : StagehandCall}
    (inserted : store.insert? callId row = some next) : Store.Keeps store next := by
  rintro id request ⟨old, stored, isFor⟩
  refine ⟨old, ?_, isFor⟩
  rw [Table.get_insert? inserted, if_neg]
  · exact stored
  · rintro rfl
    rw [Table.get_of_insert? inserted] at stored
    cases stored

theorem Effect.sound {sessions after : Sessions} {next : Statement}
    (effect : Effect sessions next after) (settled : FindsSettled sessions next)
    (sound : Sound sessions) : Sound after := by
  cases effect with
  | refused => exact sound
  | reads _ caller place before after fits =>
    exact sound.move sound.unique (.refl _) (fun _ _ _ _ _ => rfl) fits
  | inserts caller request callId store before absent inserted =>
    have free := Table.get_of_insert? inserted
    have unheld : ∀ other request', sessions.callers other ≠ .holding request' callId := by
      intro other request' holds
      obtain ⟨row, stored, -⟩ := sound.held holds
      rw [free] at stored
      cases stored
    refine sound.move (insert?_unique sound.unique absent inserted) (keeps_insert? inserted) ?_
      ⟨⟨.reserved request, ?_, ?_, rfl⟩, fun other request' _ => unheld other request'⟩
    · intro other request' id _ holds
      rw [Table.get_insert? inserted, if_neg]
      rintro rfl
      exact unheld other request' holds
    · rw [Table.get_insert? inserted, if_pos rfl]
    · simp [StagehandCall.isFor, StagehandCall.reserved]
  | reopens caller request callId before =>
    have unheld : ∀ other request', sessions.callers other ≠ .holding request' callId := by
      intro other request' holds
      obtain ⟨row, stored, -, opened⟩ := sound.held holds
      apply settled
      simp [reopenedRow, before, stored, opened]
    have known := sound.placed caller
    rw [before] at known
    obtain ⟨row, stored, isFor⟩ := known
    refine sound.move (sound.unique.modify fun _ _ => rfl) (modify_keeps _ _ _ fun _ _ => rfl) ?_
      ⟨⟨row.reopened request, by simp [stored], isFor, rfl⟩, fun other request' _ => unheld other request'⟩
    intro other request' id _ holds
    refine Table.get_modify_of_ne _ _ ?_
    rintro rfl
    exact unheld other request' holds
  | settles _ caller request callId change before same closed =>
    refine sound.move (sound.unique.modify same) (modify_keeps _ _ _ same) ?_ trivial
    intro other request' id different holds
    refine Table.get_modify_of_ne _ _ ?_
    rintro rfl
    exact different (sound.sole holds before)

theorem Effect.claimed {sessions after : Sessions} {next : Statement}
    (effect : Effect sessions next after) (claimed : Claimed sessions) : Claimed after := by
  cases effect with
  | refused => exact claimed
  | reads _ caller place before after fits =>
    exact claimed.move fun callId row stored _ => .inr ⟨stored, fun request => before request callId⟩
  | inserts caller request callId store before absent inserted =>
    refine claimed.move fun id row stored _ => ?_
    rw [Table.get_insert? inserted] at stored
    split at stored
    · rename_i here
      exact .inl ⟨request, by rw [here]⟩
    · exact .inr ⟨stored, fun request => before request id⟩
  | reopens caller request callId before =>
    refine claimed.move fun id row stored _ => ?_
    by_cases here : id = callId
    · exact .inl ⟨request, by rw [here]⟩
    · rw [Table.get_modify_of_ne _ _ here] at stored
      refine .inr ⟨stored, ?_⟩
      simp [before]
  | settles _ caller request callId change before same closed =>
    refine claimed.move fun id row stored opened => ?_
    by_cases here : id = callId
    · subst here
      rw [Table.get_modify_self, Option.map_eq_some_iff] at stored
      obtain ⟨old, -, rfl⟩ := stored
      exact absurd opened (closed old)
    · rw [Table.get_modify_of_ne _ _ here] at stored
      refine .inr ⟨stored, ?_⟩
      rw [before]
      rintro other ⟨⟩
      exact here rfl

theorem reopenedRow_eq_some {next : Statement} {row : StagehandCall}
    (found : reopenedRow sessions next = some row) :
    ∃ caller request callId, next = .update caller ∧
      sessions.callers caller = .reopening request callId ∧
      sessions.store.get callId = some row := by
  unfold reopenedRow at found
  split at found
  · split at found
    · rename_i caller _ request callId before
      exact ⟨caller, request, callId, rfl, before, found⟩
    · cases found
  · cases found

/-- Where every open row has its holder, reopening one makes a second. -/
theorem not_exclusive_of_open {next : Statement} (sound : Sound sessions)
    (claimed : Claimed sessions) (unsettled : ¬ FindsSettled sessions next) :
    ¬ Exclusive (statement sessions next) := by
  obtain ⟨row, found, opened⟩ := Option.map_eq_some_iff.mp (not_not.mp unsettled)
  obtain ⟨caller, request, callId, rfl, before, stored⟩ := reopenedRow_eq_some found
  obtain ⟨holder, request', holds⟩ := claimed callId row stored opened
  have known := sound.placed caller
  rw [before] at known
  obtain ⟨_, known, isFor⟩ := known
  obtain ⟨_, held, isFor', -⟩ := sound.held holds
  cases stored.symm.trans known
  cases stored.symm.trans held
  rw [StagehandCall.isFor_iff] at isFor isFor'
  have different : holder ≠ caller := by
    rintro rfl
    rw [before] at holds
    cases holds
  simp only [statement, before]
  intro exclusive
  refine different (exclusive holder caller request' request callId callId ?_ ?_ ?_ ?_)
  · rw [Sessions.move_other _ _ _ different]
    exact holds
  · exact Sessions.move_self _ _ _ _
  · exact isFor'.1.symm.trans isFor.1
  · exact isFor'.2.symm.trans isFor.2

theorem Sound.start (unique : store.Unique) : Sound (.start store) :=
  ⟨unique, fun _ => trivial⟩

theorem settled_of_exclusive (sound : Sound sessions)
    (claimed : Claimed sessions) {schedule : List Statement}
    (exclusive : Throughout statement Exclusive sessions schedule) :
    Along statement FindsSettled sessions schedule := by
  induction schedule generalizing sessions with
  | nil => trivial
  | cons next rest ih =>
    have effect := statement_effect sessions next
    rw [throughout_cons] at exclusive
    have settled : FindsSettled sessions next := by
      by_contra unsettled
      exact not_exclusive_of_open sound claimed unsettled (exclusive.2 [] List.nil_prefix)
    exact ⟨settled, ih (effect.sound settled sound) (effect.claimed claimed) exclusive.2⟩

/-- A run from any store keeps one holder for each key while no reopening
finds its row open; from a store without an open row it does so only then. -/
theorem exclusive_iff {store : Store} (unique : store.Unique) (schedule : List Statement) :
    (Along statement FindsSettled (.start store) schedule →
      Throughout statement Exclusive (.start store) schedule) ∧
    ((∀ callId row, store.get callId = some row → row.streamStatus ≠ .opened) →
      Throughout statement Exclusive (.start store) schedule →
      Along statement FindsSettled (.start store) schedule) := by
  constructor
  · intro settled
    have sound := throughout_keeps (fun sessions next => (statement_effect sessions next).sound)
      settled (Sound.start unique)
    exact fun first begins => (sound first begins).exclusive
  · intro closed
    apply settled_of_exclusive (Sound.start unique)
    exact fun callId row stored opened => absurd opened (closed callId row stored)

/-- Two calls of one key. -/
def extractionRequest : LLMRequest where
  model := "gpt-4.1"
  promptTemplateVersion := "v1"
  messages := []
  promptInspection := none
  responseFormat := none
  metadata := ⟨"tenant-1", "run-1", "step-1", 0, .extract, "corr-1"⟩
  budget := ⟨1000, 1000, 1⟩
  idempotencyKey := "run-1:step-1:0"
  requestHash := "hash-1"

/-- A call fails; two others then reserve the key one after the other. -/
def reopenedInTurn : List Statement :=
  [.insert 0 extractionRequest "call-0", .fail 0,
    .insert 1 extractionRequest "call-1", .select 1, .update 1,
    .insert 2 extractionRequest "call-2", .select 2]

/-- A call fails; two others read that before either reopens the row. -/
def reopenedTwice : List Statement :=
  [.insert 0 extractionRequest "call-0", .fail 0,
    .insert 1 extractionRequest "call-1", .select 1,
    .insert 2 extractionRequest "call-2", .select 2, .update 1, .update 2]

theorem exclusive_iff_inTurn :
    Throughout statement Exclusive (.start .empty) reopenedInTurn :=
  (@exclusive_iff .empty (by rintro _ _ _ ⟨_, absent, _⟩; cases absent) reopenedInTurn).1
    (by decide +kernel)

/-- Both callers hold `call-0`, and both go on to call the provider. -/
theorem reserved_twice :
    (exec statement (.start .empty) reopenedTwice).callers 1 = .holding extractionRequest "call-0" ∧
      (exec statement (.start .empty) reopenedTwice).callers 2 =
        .holding extractionRequest "call-0" ∧
      ¬ Throughout statement Exclusive (.start .empty) reopenedTwice := by
  have first : (exec statement (.start .empty) reopenedTwice).callers 1 =
      .holding extractionRequest "call-0" := by rfl
  have second : (exec statement (.start .empty) reopenedTwice).callers 2 =
      .holding extractionRequest "call-0" := by rfl
  refine ⟨first, second, fun exclusive => ?_⟩
  have same := exclusive _ (List.prefix_refl _) 1 2 _ _ _ _ first second rfl rfl
  cases same

end RpaEnterprise.Gateway
