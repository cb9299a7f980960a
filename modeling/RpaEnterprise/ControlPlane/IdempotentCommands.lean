import RpaEnterprise.Lib.Execution
import RpaEnterprise.Lib.Json
import RpaEnterprise.Lib.Table

/-!
# Idempotent commands

`PgControlPlaneIdempotencyStore` and `runIdempotentCommand` for the requests
that carry one `(tenant, endpoint, Idempotency-Key)`.  The unique index leaves
at most one row of `control_plane_idempotency_keys` for the key.  `reserve`
runs statement by statement under READ COMMITTED; the work, the row's update
and the commit of the work transaction are one step, since the update holds the
row's lock until the commit.  `commits` records the work transactions that
committed.
-/

namespace RpaEnterprise.ControlPlane

open Lib

abbrev RequestId := Nat
abbrev RowId := Nat
abbrev Time := Nat

inductive KeyStatus where
  | processing | succeeded | failed
deriving Repr, DecidableEq

/-- `response_status` and `response_body`. -/
structure StoredResponse where
  status : Nat
  body : Json

structure KeyRow where
  id : RowId
  requestHash : String
  status : KeyStatus
  response : Option StoredResponse
  expiresAt : Time

/-- `CommandResponse`; the body may be `undefined`. -/
structure CommandResponse where
  status : Nat
  body : Option Json

/-- `JSON.stringify(response.body ?? null)` as `jsonb`. -/
def CommandResponse.stored (response : CommandResponse) : StoredResponse :=
  ⟨response.status, response.body.getD .null⟩

/-- An `ApiResponseError` with its catalogue entry and its error body. -/
structure ApiFailure where
  code : String
  retryable : Bool
  httpStatus : Nat
  body : Json

inductive WorkError where
  | api (failure : ApiFailure)
  | other

/-- What a request is answered. -/
inductive Answer where
  /-- Its own work committed. -/
  | done (response : CommandResponse)
  | replay (response : StoredResponse)
  | inFlight
  | blocked
  | failed (error : WorkError)
  /-- An unclassified `Error` of the store. -/
  | internal

/-- Where a request stands in `runIdempotentCommand`. -/
inductive Phase where
  | arrived
  /-- The `INSERT` of `reserve` found a row. -/
  | conflicted (expiresAt : Time)
  /-- Its `SELECT` read the row as `processing`. -/
  | stale (rowId : RowId) (expiresAt : Time)
  | reserved (rowId : RowId)
  | working (rowId : RowId)
  | thrown (rowId : RowId) (error : WorkError)
  | answered (answer : Answer)

structure Call where
  hash : String
  phase : Phase

structure Store where
  now : Time
  row : Option KeyRow
  /-- The next `randomUUID()`. -/
  nextRow : RowId
  calls : Table RequestId Call
  commits : List (RequestId × CommandResponse)

def Store.empty : Store := ⟨0, none, 0, Table.empty, []⟩

def Store.goto (store : Store) (request : RequestId) (phase : Phase) : Store :=
  { store with calls := store.calls.modify request fun call => { call with phase } }

/-! ## `reserve` -/

/-- `INSERT … ON CONFLICT DO NOTHING`. -/
def reserveInsert (store : Store) (request : RequestId) (hash : String) (expiresAt : Time) : Store :=
  match store.row with
  | none =>
    { store with
      row := some ⟨store.nextRow, hash, .processing, none, expiresAt⟩
      nextRow := store.nextRow + 1 }.goto request (.reserved store.nextRow)
  | some _ => store.goto request (.conflicted expiresAt)

/-- Whether node-postgres reads the body as JavaScript's `null`. -/
def StoredResponse.isNull (response : StoredResponse) : Bool :=
  match response.body with
  | .null => true
  | _ => false

/-- The `SELECT` after a conflict, and the branches on its row. -/
def reserveSelect (store : Store) (request : RequestId) (hash : String) (expiresAt : Time) : Store :=
  match store.row with
  | none => store.goto request (.answered .inFlight)
  | some row =>
    if row.requestHash = hash then
      match row.status, row.response with
      | .processing, _ => store.goto request (.stale row.id expiresAt)
      | _, some response =>
        if response.isNull then store.goto request (.answered .internal)
        else store.goto request (.answered (.replay response))
      | _, none => store.goto request (.answered .internal)
    else store.goto request (.answered .blocked)

/-- The `UPDATE` that reclaims an expired row. -/
def reserveReclaim (store : Store) (request : RequestId) (hash : String) (rowId : RowId)
    (expiresAt : Time) : Store :=
  match store.row with
  | none => store.goto request (.answered .inFlight)
  | some row =>
    if row.id = rowId ∧ row.status = .processing ∧ row.requestHash = hash ∧
        row.expiresAt ≤ store.now then
      { store with row := some { row with expiresAt } }.goto request (.reserved rowId)
    else store.goto request (.answered .inFlight)

/-! ## Results -/

/-- The `UPDATE … WHERE id AND status = 'processing'` that both results share,
with the column's check; `none` where it throws. -/
def Store.finish (store : Store) (rowId : RowId) (status : KeyStatus) (response : StoredResponse) :
    Option Store :=
  match store.row with
  | none => none
  | some row =>
    if row.id = rowId ∧ row.status = .processing ∧ 100 ≤ response.status ∧ response.status ≤ 599 then
      some { store with row := some { row with status, response := some response } }
    else none

def completeIdempotencyInTx (store : Store) (rowId : RowId) (response : CommandResponse) :
    Option Store :=
  store.finish rowId .succeeded response.stored

def saveFailure (store : Store) (rowId : RowId) (failure : ApiFailure) : Option Store :=
  store.finish rowId .failed ⟨failure.httpStatus, failure.body⟩

/-- `DELETE … WHERE id AND status = 'processing'`. -/
def release (store : Store) (rowId : RowId) : Store :=
  match store.row with
  | none => store
  | some row =>
    if row.id = rowId ∧ row.status = .processing then { store with row := none } else store

def isReleasableVersionConflict (code : String) : Bool :=
  code = "SCENARIO_VERSION_CONFLICT" || code = "POLICY_VERSION_CONFLICT"

/-! ## `runIdempotentCommand` -/

/-- `IDEMPOTENCY_TTL_MS`. -/
def idempotencyTtlMs : Nat := 24 * 60 * 60 * 1000

/-- The work returned: its transaction commits if the row is still `processing`. -/
def workReturned (store : Store) (request : RequestId) (rowId : RowId) (response : CommandResponse) :
    Store :=
  match completeIdempotencyInTx store rowId response with
  | some saved =>
    { saved with commits := saved.commits ++ [(request, response)] }.goto request
      (.answered (.done response))
  | none => store.goto request (.answered .internal)

/-- The `catch` block. -/
def recover (store : Store) (request : RequestId) (rowId : RowId) (error : WorkError) : Store :=
  match error with
  | .other => store.goto request (.answered (.failed error))
  | .api failure =>
    if isReleasableVersionConflict failure.code then
      (release store rowId).goto request (.answered (.failed error))
    else if failure.retryable then store.goto request (.answered (.failed error))
    else
      match saveFailure store rowId failure with
      | some saved => saved.goto request (.answered (.failed error))
      | none => store.goto request (.answered .internal)

/-- One statement or transaction of a request, or the passing of time.
`serverNow` is the clock of the server that handles the request. -/
inductive Action where
  | tick (ms : Nat)
  | arrive (request : RequestId) (hash : String)
  | insert (request : RequestId) (serverNow : Time)
  | select (request : RequestId)
  | reclaim (request : RequestId)
  | beginWork (request : RequestId)
  | workReturns (request : RequestId) (response : CommandResponse)
  | workThrows (request : RequestId) (error : WorkError)
  | recover (request : RequestId)

/-- The request of an action, if it is one of a request that has arrived. -/
def Action.request : Action → Option RequestId
  | .tick _ | .arrive _ _ => none
  | .insert request _ | .select request | .reclaim request | .beginWork request
  | .workReturns request _ | .workThrows request _ | .recover request => some request

/-- An action of a request where it stands; an action that is not next for it does nothing. -/
def advance (store : Store) (request : RequestId) (call : Call) (action : Action) : Store :=
  match action, call.phase with
  | .insert _ serverNow, .arrived =>
    reserveInsert store request call.hash (serverNow + idempotencyTtlMs)
  | .select _, .conflicted expiresAt => reserveSelect store request call.hash expiresAt
  | .reclaim _, .stale rowId expiresAt => reserveReclaim store request call.hash rowId expiresAt
  | .beginWork _, .reserved rowId => store.goto request (.working rowId)
  | .workReturns _ response, .working rowId => workReturned store request rowId response
  | .workThrows _ error, .working rowId => store.goto request (.thrown rowId error)
  | .recover _, .thrown rowId error => ControlPlane.recover store request rowId error
  | _, _ => store

def step (store : Store) (action : Action) : Store :=
  match action with
  | .tick ms => { store with now := store.now + ms }
  | .arrive request hash =>
    match store.calls.insert? request ⟨hash, .arrived⟩ with
    | some calls => { store with calls }
    | none => store
  | action =>
    match action.request.bind fun request => (store.calls.get request).map (Prod.mk request) with
    | some (request, call) => advance store request call action
    | none => store

end RpaEnterprise.ControlPlane
