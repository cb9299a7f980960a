import RpaEnterprise.Governance.Store
import RpaEnterprise.Lib.Execution
import RpaEnterprise.Lib.Session

/-!
# Decisions on one promotion request

A decision reads the pending request, an approval also the version it is about, and then
writes: the version is promoted, and the request is decided where it is still pending.
The read takes no lock and nobody looks at how many rows the last update changed.  The
writes of a call hold row locks until its commit, so they are one step; between its reads
and its writes other calls commit.
-/

namespace RpaEnterprise.Governance

open Lib

/-! ## Calls -/

abbrev SessionId := Nat

inductive Verdict where
  | approve (versionId : VersionId) (compiledAst : String)
  | reject

def Verdict.status : Verdict → PromotionRequestStatus
  | .approve .. => .approved
  | .reject => .rejected

/-- What a decision writes. -/
structure DecisionWrite where
  actor : Subject
  reason : Option String
  verdict : Verdict

/-- The body of a successful response, as far as it depends on the decision. -/
structure DecisionResponse where
  status : PromotionRequestStatus
  decidedBy : Subject
  decisionReason : Option String

variable (platform : Platform)

/-- `decideScenarioPromotionRequest`, up to its writes. -/
def decideScript (request : DecidePromotion) : Script Db ApiResponseError DecisionWrite := do
  let pending ← Script.query (pendingRequest request)
  match request.approve with
  | true =>
    let version ← Script.query fun db => orElse (db.version? request.scenarioId pending.version) notFound
    let compiled ← Script.lift (compileOrThrow platform version.2.ir ⟨true, request.signedCommandRefs⟩)
    return ⟨request.actor, request.reason, .approve version.1 compiled.compiledAst⟩
  | false => return ⟨request.actor, request.reason, .reject⟩

/-- The writes of a call on a request of a scenario. -/
def DecisionWrite.apply (scenarioId : ScenarioId) (requestId : RequestId) (write : DecisionWrite) (db : Db) : Db :=
  match write.verdict with
  | .approve versionId compiledAst =>
    recordDecision ⟨write.actor, scenarioId, requestId, true, write.reason, none⟩
      (db.promote scenarioId versionId compiledAst)
  | .reject => recordDecision ⟨write.actor, scenarioId, requestId, false, write.reason, none⟩ db

/-! ## Interleavings -/

/-- The tables, the calls under way, and what the calls that committed have answered and
promoted. -/
structure Desk where
  db : Db
  calls : SessionId → Option (Script Db ApiResponseError DecisionWrite) := fun _ => none
  responses : List DecisionResponse := []
  promotions : List VersionId := []

inductive DeskAction where
  /-- A call by an approver arrives. -/
  | begin (session : SessionId) (actor : Subject) (approve : Bool) (reason : Option String)
      (signedCommandRefs : Option (List String))
  /-- The next read of a call, or its writes and its commit. -/
  | statement (session : SessionId)
  /-- The connection is lost or the database ends a deadlock. -/
  | abort (session : SessionId)

section Interleavings

variable (scenarioId : ScenarioId) (requestId : RequestId)

namespace Desk

def setCall (desk : Desk) (session : SessionId)
    (call : Option (Script Db ApiResponseError DecisionWrite)) : Desk :=
  { desk with calls := Function.update desk.calls session call }

def commit (desk : Desk) (session : SessionId) (write : DecisionWrite) : Desk :=
  { desk.setCall session none with
    db := write.apply scenarioId requestId desk.db
    responses := desk.responses ++ [⟨write.verdict.status, write.actor, write.reason⟩]
    promotions := match write.verdict with
      | .approve versionId _ => desk.promotions ++ [versionId]
      | .reject => desk.promotions }

/-- A step of the calls on one request. -/
def step (desk : Desk) : DeskAction → Desk
  | .begin session actor approve reason signedCommandRefs =>
    match desk.calls session with
    | none => desk.setCall session
        (some (decideScript platform ⟨actor, scenarioId, requestId, approve, reason, signedCommandRefs⟩))
    | some _ => desk
  | .statement session =>
    match desk.calls session with
    | none => desk
    | some (.done write) => desk.commit scenarioId requestId session write
    | some (.fail _) => desk.setCall session none
    | some (.read next) => desk.setCall session (some (next desk.db))
  | .abort session => desk.setCall session none

/-- The status of the request row. -/
def status (desk : Desk) : Option PromotionRequestStatus :=
  (desk.db.promotionRequests.get requestId).map (·.status)

/-- The version was promoted just if the request is approved, and every answer is the
status of the row. -/
structure Consistent (desk : Desk) : Prop where
  promoted : desk.promotions ≠ [] ↔ desk.status requestId = some .approved
  answers : ∀ response ∈ desk.responses, desk.status requestId = some response.status

/-- A call that commits finds the request pending, or decided as it decides itself. -/
def Undisputed (desk : Desk) : DeskAction → Prop
  | .statement session => ∀ write, desk.calls session = some (.done write) →
      desk.status requestId = some .pending ∨ desk.status requestId = some write.verdict.status
  | _ => True

end Desk

/-! ## What a commit does -/

variable {scenarioId requestId} {desk : Desk}

/-- The first commit decides; later ones leave the row as it is. -/
theorem status_commit (session : SessionId) (write : DecisionWrite) :
    (desk.commit scenarioId requestId session write).status requestId =
      if desk.status requestId = some .pending then some write.verdict.status else desk.status requestId := by
  have requests : (write.apply scenarioId requestId desk.db).promotionRequests =
      desk.db.promotionRequests.modify requestId fun row =>
        if row.status = .pending then
          { row with
            status := write.verdict.status
            decidedBy := some write.actor
            decisionReason := write.reason }
        else row := by
    obtain ⟨actor, reason, verdict⟩ := write
    cases verdict <;> rfl
  unfold Desk.status
  change (((write.apply scenarioId requestId desk.db).promotionRequests.get requestId).map (·.status)) = _
  rw [requests, Table.get_modify_self]
  cases desk.db.promotionRequests.get requestId with
  | none => rfl
  | some row => by_cases pending : row.status = .pending <;> simp [pending]

theorem promotions_commit (session : SessionId) (write : DecisionWrite) :
    (desk.commit scenarioId requestId session write).promotions ≠ [] ↔
      desk.promotions ≠ [] ∨ write.verdict.status = .approved := by
  obtain ⟨actor, reason, verdict⟩ := write
  cases verdict <;> simp [Desk.commit, Verdict.status]

/-- A step commits a call, or writes nothing. -/
theorem Desk.step_cases (desk : Desk) (action : DeskAction) :
    (∃ session write, action = .statement session ∧ desk.calls session = some (.done write) ∧
      desk.step platform scenarioId requestId action = desk.commit scenarioId requestId session write) ∨
    (desk.Undisputed requestId action ∧
      ∃ calls, desk.step platform scenarioId requestId action = { desk with calls }) := by
  cases action with
  | begin session actor approve reason signedCommandRefs =>
    simp only [Desk.step]
    split
    · exact .inr ⟨trivial, _, rfl⟩
    · exact .inr ⟨trivial, desk.calls, rfl⟩
  | statement session =>
    simp only [Desk.step, Desk.Undisputed]
    split
    · exact .inr ⟨by simp [*], desk.calls, rfl⟩
    · rename_i write found
      exact .inl ⟨session, write, rfl, found, rfl⟩
    · exact .inr ⟨by simp [*], _, rfl⟩
    · exact .inr ⟨by simp [*], _, rfl⟩
  | abort session => exact .inr ⟨trivial, _, rfl⟩

/-- Nothing was answered or promoted while the request is pending, and an approved
request was promoted. -/
structure Desk.Kept (requestId : RequestId) (desk : Desk) : Prop where
  pending : desk.status requestId = some .pending → desk.responses = [] ∧ desk.promotions = []
  approved : desk.status requestId = some .approved → desk.promotions ≠ []

theorem Desk.Kept.commit (kept : desk.Kept requestId) (session : SessionId) (write : DecisionWrite) :
    (desk.commit scenarioId requestId session write).Kept requestId := by
  have undecided : write.verdict.status ≠ .pending := by cases write.verdict <;> simp [Verdict.status]
  refine ⟨?_, ?_⟩
  · rw [status_commit]
    split_ifs with pending
    · exact fun same => absurd (Option.some.inj same) undecided
    · exact fun same => absurd same pending
  · rw [status_commit, promotions_commit]
    split_ifs with pending
    · exact fun same => .inr (Option.some.inj same)
    · exact fun same => .inl (kept.approved same)

theorem Desk.Kept.step (kept : desk.Kept requestId) (action : DeskAction) :
    (desk.step platform scenarioId requestId action).Kept requestId := by
  rcases desk.step_cases platform action with ⟨session, write, -, -, commits⟩ | ⟨-, calls, idle⟩
  · rw [commits]
    exact kept.commit session write
  · rw [idle]
    exact ⟨kept.pending, kept.approved⟩

/-- A commit leaves the answers and the row consistent just if they were and the call
decides as the row says. -/
theorem consistent_commit_iff (kept : desk.Kept requestId) (session : SessionId) (write : DecisionWrite) :
    (desk.commit scenarioId requestId session write).Consistent requestId ↔
      desk.Consistent requestId ∧
        (desk.status requestId = some .pending ∨ desk.status requestId = some write.verdict.status) := by
  have status := @status_commit scenarioId requestId desk session write
  have promotions := @promotions_commit scenarioId requestId desk session write
  have answers : (desk.commit scenarioId requestId session write).responses =
      desk.responses ++ [⟨write.verdict.status, write.actor, write.reason⟩] := rfl
  by_cases pending : desk.status requestId = some .pending
  · rw [if_pos pending] at status
    obtain ⟨noAnswer, noPromotion⟩ := kept.pending pending
    refine iff_of_true ⟨?_, ?_⟩ ⟨⟨?_, ?_⟩, .inl pending⟩
    · rw [promotions, status]
      simp [noPromotion]
    · rw [answers, noAnswer, status]
      simp
    · simp [noPromotion, pending]
    · simp [noAnswer]
  · rw [if_neg pending] at status
    constructor
    · rintro ⟨promoted, same⟩
      rw [answers, status] at same
      rw [promotions, status] at promoted
      have decided : desk.status requestId = some write.verdict.status :=
        same ⟨write.verdict.status, write.actor, write.reason⟩ (by simp)
      refine ⟨⟨⟨fun already => promoted.mp (.inl already), kept.approved⟩, ?_⟩, .inr decided⟩
      exact fun response member => same response (by simp [member])
    · rintro ⟨⟨promoted, same⟩, decided⟩
      replace decided := decided.resolve_left pending
      refine ⟨?_, ?_⟩
      · rw [promotions, status, ← promoted]
        refine or_iff_left_of_imp fun approves => ?_
        exact kept.approved (decided.trans (congrArg some approves))
      · rw [answers, status]
        intro response member
        rcases List.mem_append.mp member with before | here
        · exact same response before
        · rw [List.mem_singleton.mp here]
          exact decided

theorem consistent_step_iff (kept : desk.Kept requestId) (action : DeskAction) :
    (desk.step platform scenarioId requestId action).Consistent requestId ↔
      desk.Consistent requestId ∧ desk.Undisputed requestId action := by
  rcases desk.step_cases platform action with ⟨session, write, rfl, found, commits⟩ | ⟨undisputed, calls, idle⟩
  · rw [commits, consistent_commit_iff kept]
    simp [Desk.Undisputed, found]
  · rw [idle, and_iff_left undisputed]
    exact ⟨fun both => ⟨both.promoted, both.answers⟩, fun both => ⟨both.promoted, both.answers⟩⟩

theorem consistent_exec_iff (kept : desk.Kept requestId) (schedule : List DeskAction) :
    (exec (Desk.step platform scenarioId requestId) desk schedule).Consistent requestId ↔
      desk.Consistent requestId ∧
        Along (Desk.step platform scenarioId requestId) (Desk.Undisputed requestId) desk schedule :=
  @exec_iff_along _ _ (Desk.step platform scenarioId requestId) (Desk.Undisputed requestId) (Desk.Kept requestId)
    (Desk.Consistent requestId) (fun _ action kept => kept.step platform action)
    (fun _ action kept => consistent_step_iff platform kept action) desk kept schedule

end Interleavings

/-- For every interleaving of calls on a pending request, promotions, answers and the row
agree at the end just if no call commits after one that decided otherwise. -/
theorem decisions_consistent_iff (scenarioId : ScenarioId) (requestId : RequestId) (db : Db)
    (row : PromotionRequest) (stored : db.promotionRequests.get requestId = some row)
    (pending : row.status = .pending) (schedule : List DeskAction) :
    (exec (Desk.step platform scenarioId requestId) ⟨db, fun _ => none, [], []⟩ schedule).Consistent requestId ↔
      Along (Desk.step platform scenarioId requestId) (Desk.Undisputed requestId) ⟨db, fun _ => none, [], []⟩
        schedule := by
  have status : (⟨db, fun _ => none, [], []⟩ : Desk).status requestId = some .pending := by
    simp [Desk.status, stored, pending]
  rw [consistent_exec_iff platform ⟨fun _ => ⟨rfl, rfl⟩, by simp [status]⟩]
  refine and_iff_right ⟨?_, by simp⟩
  simp [status]

/-! ## Two approvers -/

/-- A platform that asks for the members the schema requires and compiles what has them. -/
def permissivePlatform : Platform where
  validateIR irDoc := ["meta", "start", "nodes"].filter fun key => (irDoc.field key).isNone
  compileScenarioStatic _ _ := ⟨⟨[], []⟩, some "ast"⟩

/-- The scenario that ends with its first node. -/
def shortestIr : Json :=
  .obj [("meta", .obj [("name", .str "invoices"), ("version", .num 1)]), ("start", .str "done"),
    ("nodes", .obj [("done", .obj [("terminal", .str "success")])])]

/-- A version whose promotion is requested. -/
def requestedDb : Db where
  scenarios := ⟨[(1, ⟨"invoices", false⟩)], by decide⟩
  versions := ⟨[(10, draftVersion 1 1 shortestIr "ast" none)], by simp⟩
  promotionRequests := ⟨[(5, ⟨1, 1, "quarter end", "maker", .pending, none, none⟩)], by decide⟩

/-- One approver approves and another one rejects; both have read the pending request. -/
def approveAndReject : List DeskAction :=
  [.begin 1 "ann" true none none, .begin 2 "ben" false (some "not now") none,
    .statement 1, .statement 1, .statement 2, .statement 2, .statement 1]

/-- The request is rejected, its version is in prod and the approver was told that it is
approved. -/
theorem rejected_request_is_promoted :
    (exec (Desk.step permissivePlatform 1 5) ⟨requestedDb, fun _ => none, [], []⟩ approveAndReject).status 5 =
      some .rejected ∧
    (exec (Desk.step permissivePlatform 1 5) ⟨requestedDb, fun _ => none, [], []⟩ approveAndReject).promotions =
      [10] ∧
    ((exec (Desk.step permissivePlatform 1 5) ⟨requestedDb, fun _ => none, [], []⟩
      approveAndReject).db.versions.get 10).map (·.promotionStatus) = some .prod ∧
    (exec (Desk.step permissivePlatform 1 5) ⟨requestedDb, fun _ => none, [], []⟩
      approveAndReject).responses.map (fun response => (response.decidedBy, response.status)) =
      [("ben", .rejected), ("ann", .approved)] := by
  decide +kernel

theorem decisions_consistent_iff_two :
    (exec (Desk.step permissivePlatform 1 5) ⟨requestedDb, fun _ => none, [], []⟩ approveAndReject).Consistent 5 ↔
      Along (Desk.step permissivePlatform 1 5) (Desk.Undisputed 5) ⟨requestedDb, fun _ => none, [], []⟩
        approveAndReject :=
  decisions_consistent_iff permissivePlatform 1 5 requestedDb _ rfl rfl approveAndReject

end RpaEnterprise.Governance
