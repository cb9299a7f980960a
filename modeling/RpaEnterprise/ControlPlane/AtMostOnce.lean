import RpaEnterprise.ControlPlane.IdempotentCommands

/-!
# A command runs at most once

The row of the key is `processing` until one result is saved in it, and a
result is saved only over a `processing` row, so at most one work transaction
commits and its row never changes again.  Two behaviours fall short of what the
store promises.  A response whose body is `null` is saved but cannot be
replayed.  And a request that releases a row which another request has
reclaimed lets a different request reserve the key while that other one is
still at work.
-/

namespace RpaEnterprise.ControlPlane

open Lib

/-- The row a request holds. -/
def Phase.held : Phase → Option RowId
  | .reserved rowId | .working rowId | .thrown rowId _ => some rowId
  | _ => none

/-! ## One step -/

/-- What an action of a request does. -/
inductive Advance (store : Store) (request : RequestId) (call : Call) (action : Action) : Store → Prop
  | moved (phase : Phase) (kept : ∀ rowId, phase.held = some rowId → call.phase.held = some rowId) :
      Advance store request call action (store.goto request phase)
  | inserted (expiresAt : Time) (free : store.row = none) :
      Advance store request call action
        ({ store with
          row := some ⟨store.nextRow, call.hash, .processing, none, expiresAt⟩
          nextRow := store.nextRow + 1 }.goto request (.reserved store.nextRow))
  | reclaimed (row : KeyRow) (expiresAt : Time) (stored : store.row = some row)
      (processing : row.status = .processing) (same : row.requestHash = call.hash) :
      Advance store request call action
        ({ store with row := some { row with expiresAt } }.goto request (.reserved row.id))
  | committed (row : KeyRow) (response : CommandResponse) (stored : store.row = some row)
      (processing : row.status = .processing) (held : call.phase.held = some row.id)
      (isReturn : action = .workReturns request response) :
      Advance store request call action
        ({ store with
          row := some { row with status := .succeeded, response := some response.stored }
          commits := store.commits ++ [(request, response)] }.goto request
            (.answered (.done response)))
  | saved (row : KeyRow) (response : StoredResponse) (error : WorkError)
      (stored : store.row = some row) (processing : row.status = .processing) :
      Advance store request call action
        ({ store with row := some { row with status := .failed, response := some response } }.goto
          request (.answered (.failed error)))
  | released (row : KeyRow) (failure : ApiFailure) (stored : store.row = some row)
      (processing : row.status = .processing) (isRecover : action = .recover request)
      (thrown : call.phase = .thrown row.id (.api failure))
      (conflict : isReleasableVersionConflict failure.code = true) :
      Advance store request call action
        ({ store with row := none }.goto request (.answered (.failed (.api failure))))

section Advancing

variable {store next : Store} {request : RequestId} {call : Call} {action : Action}

/-- A phase that holds no row. -/
theorem Advance.idle (phase : Phase) (idle : phase.held = none) :
    Advance store request call action (store.goto request phase) :=
  .moved phase fun rowId held => by simp [idle] at held

theorem finish_eq_some {rowId : RowId} {status : KeyStatus} {response : StoredResponse}
    (saved : store.finish rowId status response = some next) :
    ∃ row, store.row = some row ∧ row.id = rowId ∧ row.status = .processing ∧
      next = { store with row := some { row with status, response := some response } } := by
  unfold Store.finish at saved
  split at saved
  · cases saved
  · rename_i row stored
    split at saved
    · rename_i meets
      cases saved
      exact ⟨row, stored, meets.1, meets.2.1, rfl⟩
    · cases saved

theorem reserveInsert_advance (expiresAt : Time) :
    Advance store request call action (reserveInsert store request call.hash expiresAt) := by
  unfold reserveInsert
  split
  · exact .inserted expiresAt ‹_›
  · exact .idle _ rfl

theorem reserveSelect_advance (expiresAt : Time) :
    Advance store request call action (reserveSelect store request call.hash expiresAt) := by
  unfold reserveSelect
  split
  · exact .idle _ rfl
  · split
    · split
      · exact .idle _ rfl
      · split <;> exact .idle _ rfl
      · exact .idle _ rfl
    · exact .idle _ rfl

theorem reserveReclaim_advance (rowId : RowId) (expiresAt : Time) :
    Advance store request call action (reserveReclaim store request call.hash rowId expiresAt) := by
  unfold reserveReclaim
  split
  · exact .idle _ rfl
  · rename_i row stored
    split
    · rename_i meets
      exact meets.1 ▸ .reclaimed row expiresAt stored meets.2.1 meets.2.2.1
    · exact .idle _ rfl

theorem workReturned_advance {rowId : RowId} {response : CommandResponse}
    (held : call.phase.held = some rowId) (isReturn : action = .workReturns request response) :
    Advance store request call action (workReturned store request rowId response) := by
  unfold workReturned
  split
  · rename_i saved done
    obtain ⟨row, stored, rfl, processing, rfl⟩ := finish_eq_some done
    exact .committed row response stored processing held isReturn
  · exact .idle _ rfl

theorem recover_advance {rowId : RowId} {error : WorkError} (isRecover : action = .recover request)
    (thrown : call.phase = .thrown rowId error) :
    Advance store request call action (ControlPlane.recover store request rowId error) := by
  unfold ControlPlane.recover
  split
  · exact .idle _ rfl
  · rename_i failure
    split
    · rename_i conflict
      unfold release
      split
      · exact .idle _ rfl
      · rename_i row stored
        split
        · rename_i meets
          exact .released row failure stored meets.2 isRecover (meets.1 ▸ thrown) conflict
        · exact .idle _ rfl
    · split
      · exact .idle _ rfl
      · split
        · rename_i saved done
          obtain ⟨row, stored, -, processing, rfl⟩ := finish_eq_some done
          exact .saved row _ _ stored processing
        · exact .idle _ rfl

/-- An action of a request is one of the advances, or does nothing. -/
theorem advance_cases (own : action.request = some request) :
    advance store request call action = store ∨
      Advance store request call action (advance store request call action) := by
  unfold advance
  split
  · exact .inr (reserveInsert_advance _)
  · exact .inr (reserveSelect_advance _)
  · exact .inr (reserveReclaim_advance _ _)
  · rename_i rowId phase
    exact .inr (.moved _ fun _ held => by rw [phase]; exact held)
  · rename_i response rowId phase
    cases own
    exact .inr (workReturned_advance (by rw [phase]; rfl) rfl)
  · rename_i error rowId phase
    exact .inr (.moved _ fun _ held => by rw [phase]; exact held)
  · rename_i rowId error phase
    cases own
    exact .inr (recover_advance rfl phase)
  · exact .inl rfl

end Advancing

/-- A step lets time pass, lets a request arrive, advances a request, or does nothing. -/
theorem step_cases (store : Store) (action : Action) :
    step store action = store ∨ (∃ ms, step store action = { store with now := store.now + ms }) ∨
      (∃ request hash calls, store.calls.insert? request ⟨hash, .arrived⟩ = some calls ∧
        step store action = { store with calls }) ∨
      ∃ request call, action.request = some request ∧ store.calls.get request = some call ∧
        step store action = advance store request call action ∧
        Advance store request call action (step store action) := by
  unfold step
  split
  · exact .inr (.inl ⟨_, rfl⟩)
  · split
    · exact .inr (.inr (.inl ⟨_, _, _, ‹_›, rfl⟩))
    · exact .inl rfl
  · split
    · rename_i request call found
      obtain ⟨_, own, known⟩ := Option.bind_eq_some_iff.mp found
      obtain ⟨_, stored, same⟩ := Option.map_eq_some_iff.mp known
      cases same
      exact (advance_cases own).imp_right fun advances =>
        .inr (.inr ⟨request, call, own, stored, rfl, advances⟩)
    · exact .inl rfl

/-! ## At most one commit -/

theorem Store.goto_get {store : Store} {request other : RequestId} {phase : Phase} {call : Call}
    (found : (store.goto request phase).calls.get other = some call) :
    (∃ old, other = request ∧ store.calls.get request = some old ∧ call = { old with phase }) ∨
      store.calls.get other = some call := by
  rw [Store.goto, Table.get_modify] at found
  split at found
  · rename_i same
    obtain ⟨old, stored, rfl⟩ := Option.map_eq_some_iff.mp found
    exact .inl ⟨old, same, same ▸ stored, rfl⟩
  · exact .inr found

theorem Store.goto_keeps {store : Store} {request other : RequestId} {phase : Phase} {call : Call}
    (stored : store.calls.get other = some call) :
    ∃ kept, (store.goto request phase).calls.get other = some kept ∧ kept.hash = call.hash := by
  rw [Store.goto, Table.get_modify]
  split
  · refine ⟨{ call with phase }, ?_, rfl⟩
    rw [stored, Option.map_some]
  · exact ⟨call, stored, rfl⟩

/-- The only commit, and the row that records it. -/
def Store.Recorded (store : Store) (first : RequestId) (response : CommandResponse) : Prop :=
  store.commits = [(first, response)] ∧ ∃ made row, store.calls.get first = some made ∧
    store.row = some row ∧ row.status = .succeeded ∧ row.response = some response.stored ∧
    row.requestHash = made.hash

/-- What holds in every state. -/
structure Ordered (store : Store) : Prop where
  commits : store.commits = [] ∨ ∃ first response, store.Recorded first response
  ids : ∀ row, store.row = some row → row.id < store.nextRow
  held : ∀ request call rowId, store.calls.get request = some call →
    call.phase.held = some rowId → rowId < store.nextRow ∧
      ∀ row, store.row = some row → row.id = rowId → row.requestHash = call.hash

/-- While the row is `processing`, nothing has been committed. -/
theorem Ordered.uncommitted {store : Store} {row : KeyRow} (ordered : Ordered store)
    (stored : store.row = some row) (processing : row.status = .processing) : store.commits = [] := by
  obtain none | ⟨first, response, -, made, other, -, found, succeeded, -⟩ := ordered.commits
  · exact none
  · rw [stored, Option.some.injEq] at found
    subst found
    cases processing.symm.trans succeeded

theorem Store.Recorded.goto {store : Store} {first : RequestId} {response : CommandResponse}
    (recorded : store.Recorded first response) (request : RequestId) (phase : Phase) :
    (store.goto request phase).Recorded first response := by
  obtain ⟨only, made, row, stored, kept⟩ := recorded
  obtain ⟨after, found, hash⟩ := Store.goto_keeps stored
  exact ⟨only, after, row, found, by rwa [hash]⟩

/-- Moving a request to a phase that holds a row of its own hash, or none. -/
theorem Ordered.goto {store : Store} {request : RequestId} {call : Call} {phase : Phase}
    (ordered : Ordered store) (stored : store.calls.get request = some call)
    (holds : ∀ rowId, phase.held = some rowId → rowId < store.nextRow ∧
      ∀ row, store.row = some row → row.id = rowId → row.requestHash = call.hash) :
    Ordered (store.goto request phase) where
  commits := ordered.commits.imp_right fun ⟨first, response, recorded⟩ =>
    ⟨first, response, recorded.goto request phase⟩
  ids := ordered.ids
  held other later rowId found held := by
    obtain ⟨old, rfl, before, rfl⟩ | before := Store.goto_get found
    · rw [stored, Option.some.injEq] at before
      subst before
      exact holds rowId held
    · exact ordered.held other later rowId before held

/-- A write to a `processing` row that keeps its identity and hash. -/
theorem Ordered.rewrite {store : Store} {row after : KeyRow} (ordered : Ordered store)
    (stored : store.row = some row) (processing : row.status = .processing) (id : after.id = row.id)
    (hash : after.requestHash = row.requestHash) : Ordered { store with row := some after } where
  commits := .inl (ordered.uncommitted stored processing)
  ids other found := by
    cases found
    exact id ▸ ordered.ids row stored
  held request call rowId found held := by
    obtain ⟨below, same⟩ := ordered.held request call rowId found held
    refine ⟨below, fun other known named => ?_⟩
    cases known
    rw [hash]
    exact same row stored (id ▸ named)

theorem Ordered.advance {store next : Store} {request : RequestId} {call : Call} {action : Action}
    (ordered : Ordered store) (stored : store.calls.get request = some call)
    (advances : Advance store request call action next) : Ordered next := by
  cases advances with
  | moved phase kept =>
    exact ordered.goto stored fun rowId held => ordered.held request call rowId stored (kept rowId held)
  | inserted expiresAt free =>
    have created : Ordered { store with
        row := some ⟨store.nextRow, call.hash, .processing, none, expiresAt⟩
        nextRow := store.nextRow + 1 } := by
      refine ⟨?_, fun row found => ?_, fun other later rowId found held => ?_⟩
      · refine ordered.commits.imp_right fun ⟨_, _, _, _, _, _, found, _⟩ => ?_
        rw [free] at found
        cases found
      · cases found
        exact Nat.lt_succ_self _
      · have below := (ordered.held other later rowId found held).1
        refine ⟨below.trans (Nat.lt_succ_self _), fun row known named => ?_⟩
        cases known
        exact absurd named (Nat.ne_of_gt below)
    refine created.goto stored fun rowId held => ?_
    cases held
    exact ⟨Nat.lt_succ_self _, fun row known _ => by cases known; rfl⟩
  | reclaimed row expiresAt found processing same =>
    have kept : Ordered { store with row := some { row with expiresAt } } :=
      ordered.rewrite found processing rfl rfl
    refine kept.goto stored fun rowId held => ?_
    cases held
    exact ⟨ordered.ids row found, fun other known _ => by cases known; exact same⟩
  | committed row response found processing held =>
    have kept := ordered.rewrite found processing
      (rfl : ({ row with status := .succeeded, response := some response.stored } : KeyRow).id = row.id)
      rfl
    have hash := (ordered.held request call row.id stored held).2 row found rfl
    have only : store.commits ++ [(request, response)] = [(request, response)] := by
      rw [ordered.uncommitted found processing, List.nil_append]
    have recorded : Ordered { store with
        row := some { row with status := .succeeded, response := some response.stored }
        commits := store.commits ++ [(request, response)] } :=
      { kept with
        commits := .inr ⟨request, response, only, call, _, stored, rfl, rfl, rfl, hash⟩ }
    exact recorded.goto stored fun _ impossible => by cases impossible
  | saved row response error found processing =>
    have kept := ordered.rewrite found processing
      (rfl : ({ row with status := .failed, response := some response } : KeyRow).id = row.id) rfl
    exact kept.goto stored fun _ impossible => by cases impossible
  | released row failure found processing =>
    have emptied : Ordered { store with row := none } := by
      refine ⟨.inl (ordered.uncommitted found processing), fun _ impossible => ?_,
        fun other later rowId known held =>
          ⟨(ordered.held other later rowId known held).1, fun _ impossible => ?_⟩⟩
      · cases impossible
      · cases impossible
    exact emptied.goto stored fun _ impossible => by cases impossible

theorem Ordered.step {store : Store} (ordered : Ordered store) (action : Action) :
    Ordered (step store action) := by
  obtain same | ⟨ms, same⟩ | ⟨request, hash, calls, arrived, same⟩ |
      ⟨request, call, -, stored, -, advances⟩ := step_cases store action
  · rwa [same]
  · rw [same]
    exact ⟨ordered.commits, ordered.ids, ordered.held⟩
  · rw [same]
    refine ⟨ordered.commits.imp_right ?_, ordered.ids, fun other call rowId found held => ?_⟩
    · rintro ⟨first, response, only, made, row, stored, kept⟩
      refine ⟨first, response, only, made, row, ?_, kept⟩
      rw [Table.get_insert? arrived, if_neg]
      · exact stored
      · rintro rfl
        cases (Table.get_of_insert? arrived).symm.trans stored
    · rw [Table.get_insert? arrived] at found
      split at found
      · cases found
        cases held
      · exact ordered.held other call rowId found held
  · exact ordered.advance stored advances

theorem Ordered.empty : Ordered Store.empty where
  commits := .inl rfl
  ids _ impossible := by cases impossible
  held _ _ _ impossible := by cases impossible

/-- No schedule commits the work of two requests. -/
theorem one_work_commits (schedule : List Action) :
    Ordered (exec step Store.empty schedule) ∧
      (exec step Store.empty schedule).commits.length ≤ 1 := by
  have ordered : Ordered (exec step Store.empty schedule) :=
    exec_invariant (fun _ action ordered => ordered.step action) Ordered.empty schedule
  refine ⟨ordered, ?_⟩
  obtain none | ⟨_, _, only, -⟩ := ordered.commits
  · simp [none]
  · simp [only]

/-! ## Different requests -/

/-- A version conflict releases a row that no other request holds. -/
def Action.releasesAlone (store : Store) : Action → Bool
  | .recover request =>
    match (store.calls.get request).map Call.phase with
    | some (.thrown rowId (.api failure)) =>
      !isReleasableVersionConflict failure.code ||
        store.calls.rows.all fun entry => entry.1 = request || entry.2.phase.held ≠ some rowId
    | _ => true
  | _ => true

/-- The row of every request that holds one is there, with the request's hash. -/
def RowsHeld (store : Store) : Prop :=
  ∀ request call rowId, store.calls.get request = some call → call.phase.held = some rowId →
    ∃ row, store.row = some row ∧ row.id = rowId ∧ row.requestHash = call.hash

section RowsHeld

variable {store next : Store} {request : RequestId} {call : Call} {action : Action}

/-- The other requests keep their rows, and the moved one gets its own. -/
theorem RowsHeld.goto {phase : Phase} (stored : store.calls.get request = some call)
    (others : ∀ other later rowId, other ≠ request → store.calls.get other = some later →
      later.phase.held = some rowId →
        ∃ row, store.row = some row ∧ row.id = rowId ∧ row.requestHash = later.hash)
    (own : ∀ rowId, phase.held = some rowId →
      ∃ row, store.row = some row ∧ row.id = rowId ∧ row.requestHash = call.hash) :
    RowsHeld (store.goto request phase) := by
  intro other later rowId found held
  rw [Store.goto, Table.get_modify] at found
  split at found
  · rename_i same
    rw [same, stored] at found
    cases found
    exact own rowId held
  · rename_i different
    exact others other later rowId different found held

theorem RowsHeld.rewrite {row : KeyRow} (rows : RowsHeld store) (stored : store.row = some row)
    (after : KeyRow) (id : after.id = row.id) (hash : after.requestHash = row.requestHash) (other : RequestId)
    (later : Call) (rowId : RowId) (found : store.calls.get other = some later)
    (held : later.phase.held = some rowId) :
    ∃ row, some after = some row ∧ row.id = rowId ∧ row.requestHash = later.hash := by
  obtain ⟨known, here, named, same⟩ := rows other later rowId found held
  rw [stored, Option.some.injEq] at here
  subst here
  exact ⟨after, rfl, id.trans named, hash.trans same⟩

theorem RowsHeld.advance (rows : RowsHeld store) (stored : store.calls.get request = some call)
    (advances : Advance store request call action next)
    (alone : action.releasesAlone store = true) : RowsHeld next := by
  cases advances with
  | moved phase kept =>
    exact .goto stored (fun other later rowId _ => rows other later rowId)
      fun rowId held => rows request call rowId stored (kept rowId held)
  | inserted expiresAt free =>
    refine .goto stored (fun other later rowId _ found held => ?_) fun rowId held => ?_
    · obtain ⟨_, here, -⟩ := rows other later rowId found held
      rw [free] at here
      cases here
    · cases held
      exact ⟨_, rfl, rfl, rfl⟩
  | reclaimed row expiresAt found processing same =>
    refine .goto stored (fun other later rowId _ =>
      rows.rewrite found { row with expiresAt } rfl rfl other later rowId) fun rowId held => ?_
    cases held
    exact ⟨_, rfl, rfl, same⟩
  | committed row response found processing held =>
    exact .goto stored (fun other later rowId _ => rows.rewrite found
      { row with status := .succeeded, response := some response.stored } rfl rfl other later rowId)
      fun _ impossible => by cases impossible
  | saved row response error found processing =>
    exact .goto stored (fun other later rowId _ => rows.rewrite found
      { row with status := .failed, response := some response } rfl rfl other later rowId)
      fun _ impossible => by cases impossible
  | released row failure found processing isRecover thrown conflict =>
    refine .goto stored (fun other later rowId different known held => ?_)
      fun _ impossible => by cases impossible
    -- another holder would hold the released row
    obtain ⟨_, here, rfl, -⟩ := rows other later rowId known held
    rw [found, Option.some.injEq] at here
    subst here
    subst isRecover
    simp only [Action.releasesAlone, stored, Option.map_some, thrown, conflict, Bool.not_true,
      Bool.false_or, List.all_eq_true, Bool.or_eq_true, decide_eq_true_eq] at alone
    obtain same | free := alone (other, later) (Table.get_eq_some_iff.mp known)
    · exact absurd same different
    · exact absurd held free

theorem RowsHeld.step (rows : RowsHeld store) (alone : action.releasesAlone store = true) :
    RowsHeld (step store action) := by
  obtain same | ⟨ms, same⟩ | ⟨request, hash, calls, arrived, same⟩ |
      ⟨request, call, -, stored, -, advances⟩ := step_cases store action
  · rwa [same]
  · rw [same]
    exact rows
  · rw [same]
    intro other call rowId found held
    rw [Table.get_insert? arrived] at found
    split at found
    · cases found
      cases held
    · exact rows other call rowId found held
  · exact rows.advance stored advances alone

end RowsHeld

/-! ## Later requests -/

/-- A row with a saved result never changes. -/
theorem row_kept {store : Store} {row : KeyRow} (stored : store.row = some row)
    (saved : row.status ≠ .processing) (action : Action) : (step store action).row = some row := by
  obtain same | ⟨ms, same⟩ | ⟨_, _, _, -, same⟩ | ⟨request, call, -, -, -, advances⟩ :=
    step_cases store action
  · rw [same, stored]
  · rw [same, ← stored]
  · rw [same, ← stored]
  · generalize step store action = next at advances ⊢
    have open_ (other : KeyRow) (found : store.row = some other)
        (processing : other.status = .processing) : False := by
      rw [stored, Option.some.injEq] at found
      exact saved (found ▸ processing)
    cases advances with
    | moved phase => exact stored
    | inserted _ free => cases stored.symm.trans free
    | reclaimed other _ found processing => exact (open_ other found processing).elim
    | committed other _ found processing => exact (open_ other found processing).elim
    | saved other _ _ found processing => exact (open_ other found processing).elim
    | released other _ found processing => exact (open_ other found processing).elim

/-- The phases of a request that can only be answered by the saved response. -/
def Phase.Awaits (response : StoredResponse) : Phase → Prop
  | .arrived | .conflicted _ => True
  | .answered (.replay answer) => answer = response
  | _ => False

/-- An advance of one request moves no other. -/
theorem Advance.others {store next : Store} {request other : RequestId} {call : Call} {action : Action}
    (advances : Advance store request call action next) (different : other ≠ request) :
    next.calls.get other = store.calls.get other := by
  cases advances <;> exact Table.get_modify_of_ne _ _ different

/-- The row of the key holds a response to the body of a request. -/
structure Replays (store : Store) (request : RequestId) (call : Call) (row : KeyRow)
    (response : StoredResponse) : Prop where
  stored : store.calls.get request = some call
  found : store.row = some row
  succeeded : row.status = .succeeded
  saved : row.response = some response
  readable : response.isNull = false
  hash : row.requestHash = call.hash

section Replays

variable {store : Store} {request : RequestId} {call : Call} {row : KeyRow} {response : StoredResponse}

theorem advance_awaits (action : Action) (replays : Replays store request call row response)
    (awaits : call.phase.Awaits response) :
    ∃ after, (advance store request call action).calls.get request = some after ∧
      after.hash = call.hash ∧ after.phase.Awaits response := by
  obtain ⟨stored, found, succeeded, saved, readable, hash⟩ := replays
  have moved (phase : Phase) (still : phase.Awaits response) :
      ∃ after, (store.goto request phase).calls.get request = some after ∧
        after.hash = call.hash ∧ after.phase.Awaits response := by
    refine ⟨{ call with phase }, ?_, rfl, still⟩
    rw [Store.goto, Table.get_modify_self, stored, Option.map_some]
  unfold advance
  split
  · rw [reserveInsert, found]
    exact moved _ trivial
  · simp only [reserveSelect, found, hash, if_true, succeeded, saved, readable, Bool.false_eq_true,
      if_false]
    exact moved _ rfl
  · simp_all [Phase.Awaits]
  · simp_all [Phase.Awaits]
  · simp_all [Phase.Awaits]
  · simp_all [Phase.Awaits]
  · simp_all [Phase.Awaits]
  · exact ⟨call, stored, rfl, awaits⟩

theorem step_awaits (action : Action) (replays : Replays store request call row response)
    (awaits : call.phase.Awaits response) :
    ∃ after, (step store action).calls.get request = some after ∧ after.hash = call.hash ∧
      after.phase.Awaits response := by
  have kept (same : (step store action).calls.get request = store.calls.get request) :
      ∃ after, (step store action).calls.get request = some after ∧ after.hash = call.hash ∧
        after.phase.Awaits response := ⟨call, same.trans replays.stored, rfl, awaits⟩
  obtain same | ⟨ms, same⟩ | ⟨other, _, calls, arrived, same⟩ |
      ⟨other, known, -, there, same, advances⟩ := step_cases store action
  · exact kept (by rw [same])
  · exact kept (by rw [same])
  · refine kept ?_
    rw [same, Table.get_insert? arrived, if_neg]
    rintro rfl
    cases (Table.get_of_insert? arrived).symm.trans replays.stored
  · by_cases own : request = other
    · subst own
      rw [replays.stored, Option.some.injEq] at there
      subst there
      rw [same]
      exact advance_awaits action replays awaits
    · exact kept (advances.others own)

/-- A later request is answered by the saved response or not at all. -/
theorem exec_awaits (replays : Replays store request call row response)
    (awaits : call.phase.Awaits response) (more : List Action) :
    ∃ after, (exec step store more).calls.get request = some after ∧
      after.phase.Awaits response := by
  induction more generalizing store call with
  | nil => exact ⟨call, replays.stored, awaits⟩
  | cons action rest ih =>
    obtain ⟨after, there, same, still⟩ := step_awaits action replays awaits
    obtain ⟨-, found, succeeded, saved, readable, hash⟩ := replays
    have kept := row_kept found (by simp [succeeded]) action
    exact ih ⟨there, kept, succeeded, saved, readable, hash.trans same.symm⟩ still

/-- An arrived request that finds the saved response is answered by it. -/
theorem insert_select_replays (replays : Replays store request call row response)
    (arrived : call.phase = .arrived) (serverNow : Time) :
    ((exec step store [.insert request serverNow, .select request]).calls.get request).map Call.phase =
      some (.answered (.replay response)) := by
  obtain ⟨stored, found, succeeded, saved, readable, hash⟩ := replays
  have inserted : step store (.insert request serverNow) =
      store.goto request (.conflicted (serverNow + idempotencyTtlMs)) := by
    simp [step, Action.request, stored, advance, arrived, reserveInsert, found]
  rw [exec_cons, inserted, exec_cons, exec_nil]
  generalize conflicted : store.goto request (.conflicted (serverNow + idempotencyTtlMs)) = middle
  have there : middle.calls.get request =
      some { call with phase := .conflicted (serverNow + idempotencyTtlMs) } := by
    rw [← conflicted, Store.goto, Table.get_modify_self, stored, Option.map_some]
  have same : middle.row = some row := by
    rw [← conflicted]
    exact found
  have selected : step middle (.select request) =
      middle.goto request (.answered (.replay response)) := by
    simp [step, Action.request, there, advance, reserveSelect, same, hash, succeeded, saved, readable]
  rw [selected, Store.goto, Table.get_modify_self, there, Option.map_some, Option.map_some]

end Replays

/-! ## Whole schedules -/

/-- A work that returns a response returns one with a body. -/
def Action.hasBody : Action → Bool
  | .workReturns _ response => !response.stored.isNull
  | _ => true

/-- Every committed response has a body. -/
def BodiesPresent (store : Store) : Prop :=
  ∀ commit ∈ store.commits, commit.2.stored.isNull = false

theorem BodiesPresent.step {store : Store} {action : Action} (present : BodiesPresent store)
    (body : action.hasBody = true) : BodiesPresent (step store action) := by
  obtain same | ⟨ms, same⟩ | ⟨_, _, _, -, same⟩ | ⟨request, call, -, -, -, advances⟩ :=
    step_cases store action
  · rwa [same]
  · rw [same]
    exact present
  · rw [same]
    exact present
  · generalize ControlPlane.step store action = next at advances ⊢
    cases advances with
    | committed row response _ _ _ isReturn =>
      subst isReturn
      intro commit member
      obtain old | new := List.mem_append.mp member
      · exact present commit old
      · rw [List.mem_singleton.mp new]
        simpa [Action.hasBody] using body
    | _ => exact present

theorem CommandResponse.body_stored {response : CommandResponse}
    (present : response.stored.isNull = false) : response.body = some response.stored.body := by
  obtain ⟨status, body⟩ := response
  cases body with
  | none => simp [CommandResponse.stored, StoredResponse.isNull] at present
  | some body => rfl

/-- At most one work commits; a request at work has the hash of the row, if there
is one; and a request that arrives after the commit with the same hash gets the
committed status and body, and no other answer whatever else happens. -/
structure Store.AtMostOnce (store : Store) : Prop where
  once : store.commits.length ≤ 1
  sameHash : ∀ request call rowId row, store.calls.get request = some call →
    call.phase = .working rowId → store.row = some row → row.requestHash = call.hash
  replays : ∀ first response made request later, (first, response) ∈ store.commits →
    store.calls.get first = some made → store.calls.get request = some later →
    later.phase = .arrived → later.hash = made.hash →
      ∃ body, response.body = some body ∧
        (∀ more, ∃ after, (exec step store more).calls.get request = some after ∧
          after.phase.Awaits ⟨response.status, body⟩) ∧
        ∀ serverNow, ((exec step store [.insert request serverNow, .select request]).calls.get
          request).map Call.phase = some (.answered (.replay ⟨response.status, body⟩))

/-- In every schedule in which each work returns a response with a body and no
version conflict releases a row that another request holds. -/
theorem commands_run_at_most_once {schedule : List Action}
    (meets : Along step (fun store action =>
      action.hasBody = true ∧ action.releasesAlone store = true) Store.empty schedule) :
    (exec step Store.empty schedule).AtMostOnce := by
  obtain ⟨ordered, once⟩ := one_work_commits schedule
  have rows : RowsHeld (exec step Store.empty schedule) :=
    exec_keeps (fun _ _ ok rows => rows.step ok.2) meets fun _ _ _ impossible => by cases impossible
  have present : BodiesPresent (exec step Store.empty schedule) :=
    exec_keeps (fun _ _ ok present => present.step ok.1) meets fun _ impossible => by cases impossible
  generalize exec step Store.empty schedule = store at *
  refine ⟨once, fun request call rowId row stored working found => ?_,
    fun first response made request later committed author stored arrived hash => ?_⟩
  · obtain ⟨own, here, -, same⟩ := rows request call rowId stored (by rw [working]; rfl)
    rw [found, Option.some.injEq] at here
    exact here ▸ same
  · obtain none | ⟨_, _, only, known, row, there, found, succeeded, saved, owner⟩ := ordered.commits
    · simp [none] at committed
    rw [only, List.mem_singleton] at committed
    cases committed
    rw [author, Option.some.injEq] at there
    subst there
    have readable := present (first, response) (by simp [only])
    have body := CommandResponse.body_stored readable
    have replays : Replays store request later row response.stored :=
      ⟨stored, found, succeeded, saved, readable, owner.trans hash.symm⟩
    refine ⟨response.stored.body, body, exec_awaits replays ?_, insert_select_replays replays arrived⟩
    rw [arrived]
    trivial

/-- A request commits an answer, and the next one with its key arrives. -/
def committedThen (response : CommandResponse) : List Action :=
  [.arrive 1 "abort", .insert 1 0, .beginWork 1, .workReturns 1 response, .arrive 2 "abort"]

/-- The second request is answered with the body of the first. -/
theorem commands_run_at_most_once_replayed :
    (exec step Store.empty (committedThen ⟨202, some (.str "aborting")⟩)).AtMostOnce :=
  commands_run_at_most_once (by decide)

/-- A committed response without a body is not replayed: the next request with
the key and the hash gets an unclassified error. -/
theorem null_response_is_not_replayed :
    ¬ (exec step Store.empty (committedThen ⟨204, some .null⟩)).AtMostOnce ∧
      ((exec step Store.empty (committedThen ⟨204, some .null⟩ ++ [.insert 2 5, .select 2])).calls.get
        2).map Call.phase = some (.answered .internal) := by
  refine ⟨fun property => ?_, rfl⟩
  obtain ⟨body, -, -, replays⟩ := property.replays 1 ⟨204, some .null⟩ _ 2 _
    (List.mem_singleton.mpr rfl) rfl rfl rfl rfl
  have answer : some (Phase.answered .internal) = some (.answered (.replay ⟨204, body⟩)) := replays 5
  cases answer

end RpaEnterprise.ControlPlane
