import RpaEnterprise.Interpreter.AsOf
import RpaEnterprise.Lib.Execution
import RpaEnterprise.Lib.Results
import RpaEnterprise.Lib.Table

/-!
# One path for each row of an approval list

A run leaves a list of documents that wait for approval.  A row of the list is
decided from the list by `applyDecide` or sent to review by
`fanOutCollectionRun`; either spawns a run.  The two share the table
`approval_row_claims`, whose unique key is the tenant, the run that left the
list and the document: each claims the row, spawns its run and links the claim
to it, all in one transaction.

Transactions interleave statement by statement.  An `INSERT` that meets the
uncommitted row of another transaction waits for its end, and every statement
that throws rolls its transaction back.
-/

namespace RpaEnterprise.ControlPlane.ApprovalRows

open Lib
open Interpreter (FanOutRow)

abbrev SessionId := Nat

abbrev RunId := Nat

/-! ## The list -/

structure Platform where
  /-- `JSON.parse`. -/
  parse : String → Option Json
  /-- `new URL(raw).href`, if that is a URL of `http` or `https`. -/
  href : String → Option String

structure Skip where
  docRef : String
  reason : String
deriving DecidableEq

inductive Refusal where
  | resourceNotFound
  | scenarioNotFound (name : String)
  | artifactNotFound
  | artifactObjectMissing
  | artifactNotJson
  | artifactNotRows
  | alreadyDecided (docRef : String) (claimedAs : Option String)
  /-- `createRunInTx` threw. -/
  | runNotCreated (code : String)
deriving DecidableEq

/-- The rows of a list, of whatever shape they are. -/
def rawRows : Json → Option (List Json)
  | .arr rows => some rows
  | .obj fields => (Json.lookup "rows" fields).bind Json.items?
  | _ => none

def artifactRows (platform : Platform) (content : String) : Except Refusal (List Json) :=
  match platform.parse content with
  | none => .error .artifactNotJson
  | some data =>
    match rawRows data with
    | none => .error .artifactNotRows
    | some rows => .ok rows

/-- A row to spawn a run for, or the entry it gets among the skipped ones. -/
def parseRow (platform : Platform) (row : Json) : Except Skip FanOutRow :=
  match row with
  | .obj fields =>
    match Json.lookup "doc_ref" fields with
    | some (.str raw) =>
      match platform.href raw with
      | none => .error ⟨raw, "invalid_doc_ref"⟩
      | some docRef =>
        match Json.lookup "approval_id" fields with
        | some (.str approvalId) =>
          if approvalId = "" then .error ⟨raw, "missing_approval_id"⟩
          else .ok ⟨docRef, approvalId, row⟩
        | _ => .error ⟨raw, "missing_approval_id"⟩
    | _ => .error ⟨"", "invalid_doc_ref"⟩
  | _ => .error ⟨"", "row_not_object"⟩

structure ParsedRows where
  rows : List FanOutRow
  skipped : List Skip

def ParsedRows.add (parsed : ParsedRows) : Except Skip FanOutRow → ParsedRows
  | .ok row => { parsed with rows := parsed.rows ++ [row] }
  | .error skip => { parsed with skipped := parsed.skipped ++ [skip] }

def parseFanOutRows (platform : Platform) (content : String) : Except Refusal ParsedRows := do
  let raw ← artifactRows platform content
  pure (raw.foldl (fun parsed row => parsed.add (parseRow platform row)) ⟨[], []⟩)

/-! ## Rows of the database -/

/-- The unique key of `approval_row_claims` and of `approval_decisions`. -/
structure RowKey where
  tenantId : String
  sourceRunId : String
  /-- The canonical URL of the document. -/
  docRef : String
deriving DecidableEq

inductive Mode where
  | review
  | decide
deriving DecidableEq

def Mode.text : Mode → String
  | .review => "review"
  | .decide => "decide"

inductive Decision where
  | approve
  | reject
deriving DecidableEq

def Decision.text : Decision → String
  | .approve => "approve"
  | .reject => "reject"

structure Verdict where
  decision : Decision
  reason : Option String
  decidedBy : String

structure RowClaim where
  row : RowKey
  mode : Mode
  spawnedRunId : Option RunId

structure DecisionRow where
  row : RowKey
  verdict : Verdict
  spawnedRunId : Option RunId

/-- What is to be done about one row: the run to spawn and, when the row is
decided from the list, the verdict. -/
structure RowJob where
  row : RowKey
  verdict : Option Verdict
  scenarioVersionId : String
  params : List (String × Json)
  asOf : String
  priority : String

def RowJob.mode (job : RowJob) : Mode := if job.verdict.isSome then .decide else .review

def RowJob.claim (job : RowJob) (spawnedRunId : Option RunId) : RowClaim :=
  ⟨job.row, job.mode, spawnedRunId⟩

def RowJob.decisionRow (job : RowJob) (spawnedRunId : Option RunId) : Option DecisionRow :=
  job.verdict.map fun verdict => ⟨job.row, verdict, spawnedRunId⟩

/-- A row of `runs`, with the row of the list that it was spawned for. -/
structure SpawnedRun where
  id : RunId
  job : RowJob

/-- The rows of the three tables, committed or written by one transaction. -/
structure Rows where
  claims : List RowClaim
  decisions : List DecisionRow
  runs : List SpawnedRun

def Rows.empty : Rows := ⟨[], [], []⟩

def Rows.append (first second : Rows) : Rows :=
  ⟨first.claims ++ second.claims, first.decisions ++ second.decisions, first.runs ++ second.runs⟩

def Rows.claimed (rows : Rows) : List RowKey := rows.claims.map RowClaim.row

def Rows.decided (rows : Rows) : List RowKey := rows.decisions.map DecisionRow.row

/-- The two `UPDATE … SET spawned_run_id`. -/
def Rows.link (rows : Rows) (row : RowKey) (runId : RunId) : Rows :=
  { rows with
    claims := rows.claims.map fun claim =>
      if claim.row = row then { claim with spawnedRunId := some runId } else claim
    decisions := rows.decisions.map fun decision =>
      if decision.row = row then { decision with spawnedRunId := some runId } else decision }

/-! ## Transactions -/

/-- The statement a transaction comes to next, for the first row it has left. -/
inductive Stage where
  | claim
  | record
  | create
  | link (runId : RunId)

structure Session where
  sourceRunId : String
  /-- The list that is fanned out, with the number of its rows; `none` is a decision. -/
  list : Option (String × Nat)
  written : Rows
  waiting : List RowJob
  stage : Stage
  spawned : List (String × RunId)
  skipped : List Skip

/-- What the first statements of a transaction find. -/
structure Reads where
  sourceExists : Bool
  /-- The latest version in production of the scenario of that name. -/
  scenarioVersionId : Option String
  /-- The latest list of the run, and its object in the store. -/
  artifact : Option (Option String)

def DECIDE_SCENARIO_NAME : String := "하이웍스 결재 처리"

def REVIEW_SCENARIO_NAME : String := "하이웍스 결재 검토·승인"

/-- `applyDecide` up to its first write. -/
def applyDecide (reads : Reads) (row : RowKey) (verdict : Verdict) (now : String) :
    Except Refusal Session :=
  if reads.sourceExists then
    match reads.scenarioVersionId with
    | none => .error (.scenarioNotFound DECIDE_SCENARIO_NAME)
    | some scenarioVersionId =>
      let params := [("doc_ref", .str row.docRef), ("decision", .str verdict.decision.text)] ++
        (verdict.reason.map fun reason => ("reason", .str reason)).toList
      .ok
        { sourceRunId := row.sourceRunId
          list := none
          written := .empty
          waiting := [⟨row, some verdict, scenarioVersionId, params, now, "medium"⟩]
          stage := .claim
          spawned := []
          skipped := [] }
  else .error .resourceNotFound

/-- `fanOutCollectionRun` up to its first write. -/
def fanOutCollectionRun (platform : Platform) (reads : Reads) (tenantId sourceRunId now : String) :
    Except Refusal Session :=
  if reads.sourceExists then
    match reads.scenarioVersionId, reads.artifact with
    | none, _ => .error (.scenarioNotFound REVIEW_SCENARIO_NAME)
    | some _, none => .error .artifactNotFound
    | some _, some none => .error .artifactObjectMissing
    | some scenarioVersionId, some (some content) => do
      let parsed ← parseFanOutRows platform content
      pure
        { sourceRunId
          list := some (content, parsed.rows.length + parsed.skipped.length)
          written := .empty
          waiting := parsed.rows.map fun row =>
            ⟨⟨tenantId, sourceRunId, row.docRef⟩, none, scenarioVersionId, row.params, now, "high"⟩
          stage := .claim
          spawned := []
          skipped := parsed.skipped }
  else .error .resourceNotFound

inductive Outcome where
  | waits
  | goes (session : Session)
  | throws (refusal : Refusal)

/-- The row is already claimed: a decision is refused, a fan-out goes on to
its next row. -/
def Session.conflict (session : Session) (job : RowJob) (rest : List RowJob) (found : Mode) : Outcome :=
  match job.mode with
  | .decide => .throws (.alreadyDecided job.row.docRef (some found.text))
  | .review =>
    let reason := match found with
      | .decide => "already_decided"
      | .review => "already_fanned_out"
    .goes
      { session with
        waiting := rest
        skipped := session.skipped ++ [⟨job.row.docRef, reason⟩] }

/-- The next statement, over the committed rows and the keys that other
transactions have written; `created` says what `createRunInTx` comes to. -/
def Session.next (session : Session) (committed : Rows) (claimedElsewhere decidedElsewhere : List RowKey)
    (runId : RunId) (created : Except String Unit) : Outcome :=
  match session.waiting, session.stage with
  | [], _ => .waits
  | job :: rest, .claim =>
    if job.row ∈ claimedElsewhere then .waits
    else
      match (committed.claims ++ session.written.claims).find? (·.row = job.row) with
      | some found => session.conflict job rest found.mode
      | none =>
        .goes
          { session with
            written :=
              { session.written with claims := session.written.claims ++ [job.claim none] }
            stage := match job.mode with
              | .decide => .record
              | .review => .create }
  | job :: _, .record =>
    if job.row ∈ decidedElsewhere then .waits
    else if job.row ∈ committed.decided ++ session.written.decided then
      .throws (.alreadyDecided job.row.docRef none)
    else
      .goes
        { session with
          written :=
            { session.written with
              decisions := session.written.decisions ++ (job.decisionRow none).toList }
          stage := .create }
  | job :: _, .create =>
    match created with
    | .error code => .throws (.runNotCreated code)
    | .ok () =>
      .goes
        { session with
          written := { session.written with runs := session.written.runs ++ [⟨runId, job⟩] }
          stage := .link runId }
  | job :: rest, .link runId =>
    .goes
      { session with
        written := session.written.link job.row runId
        waiting := rest
        stage := .claim
        spawned := session.spawned ++ [(job.row.docRef, runId)] }

/-! ## Interleavings -/

structure FanOutResult where
  sourceRunId : String
  spawned : List (String × RunId)
  spawnedCount : Nat
  skipped : List Skip
  skippedCount : Nat
  total : Nat

inductive Answer where
  | refused (refusal : Refusal)
  | decided (sourceRunId : String) (spawned : List (String × RunId))
  /-- The response to a fan-out of the list with this content. -/
  | fannedOut (content : String) (result : FanOutResult)

def Session.answer (session : Session) : Answer :=
  match session.list with
  | none => .decided session.sourceRunId session.spawned
  | some (content, total) =>
    .fannedOut content
      { sourceRunId := session.sourceRunId
        spawned := session.spawned
        spawnedCount := session.spawned.length
        skipped := session.skipped
        skippedCount := session.skipped.length
        total }

structure System where
  committed : Rows
  sessions : Table SessionId Session
  nextRunId : RunId
  answers : List Answer

def System.start : System := ⟨.empty, .empty, 0, []⟩

inductive Action where
  | decide (session : SessionId) (reads : Reads) (row : RowKey) (verdict : Verdict) (now : String)
  | fanOut (session : SessionId) (reads : Reads) (tenantId sourceRunId now : String)
  /-- The next statement of an open transaction. -/
  | advance (session : SessionId) (created : Except String Unit)
  | commit (session : SessionId)
  /-- The connection is lost, or a deadlock is broken. -/
  | rollback (session : SessionId)

def System.close (system : System) (session : SessionId) : Table SessionId Session :=
  system.sessions.filter fun other _ => other ≠ session

def System.open (system : System) (session : SessionId) : Except Refusal Session → System
  | .error refusal => { system with answers := system.answers ++ [.refused refusal] }
  | .ok opened =>
    match system.sessions.insert? session opened with
    | some sessions => { system with sessions }
    | none => system

/-- The keys among what transactions other than this one have written. -/
def System.elsewhere (system : System) (session : SessionId) (keys : Rows → List RowKey) : List RowKey :=
  (system.close session).rows.flatMap fun entry => keys entry.2.written

def step (platform : Platform) (system : System) : Action → System
  | .decide session reads row verdict now => system.open session (applyDecide reads row verdict now)
  | .fanOut session reads tenantId sourceRunId now =>
    system.open session (fanOutCollectionRun platform reads tenantId sourceRunId now)
  | .advance session created =>
    match system.sessions.get session with
    | none => system
    | some opened =>
      match opened.next system.committed (system.elsewhere session Rows.claimed)
          (system.elsewhere session Rows.decided) system.nextRunId created with
      | .waits => system
      | .goes moved =>
        { system with
          sessions := system.sessions.modify session fun _ => moved
          nextRunId := system.nextRunId + 1 }
      | .throws refusal =>
        { system with
          sessions := system.close session
          answers := system.answers ++ [.refused refusal] }
  | .commit session =>
    match system.sessions.get session with
    | none => system
    | some opened =>
      if opened.waiting.isEmpty then
        { system with
          committed := system.committed.append opened.written
          sessions := system.close session
          answers := system.answers ++ [opened.answer] }
      else system
  | .rollback session => { system with sessions := system.close session }

/-! ## One path for each row -/

structure OnePath (rows : Rows) : Prop where
  /-- One run at most is spawned for a row. -/
  once : ∀ row, rows.runs.countP (fun run => run.job.row = row) ≤ 1
  /-- Every claim names the run that was spawned for its row. -/
  linked : ∀ claim ∈ rows.claims, ∃ run ∈ rows.runs,
    run.job.row = claim.row ∧ run.job.mode = claim.mode ∧ claim.spawnedRunId = some run.id
  /-- A row with a decision has no review run. -/
  apart : ∀ decision ∈ rows.decisions, ∀ run ∈ rows.runs,
    run.job.row = decision.row → run.job.mode = .decide

/-- A fan-out answers for every row of its list. -/
def Answer.Counted (platform : Platform) : Answer → Prop
  | .fannedOut content result => ∃ rows, artifactRows platform content = .ok rows ∧
      result.spawnedCount + result.skippedCount = rows.length
  | _ => True

/-! ## Parsed rows -/

theorem length_add (parsed : ParsedRows) (row : Except Skip FanOutRow) :
    (parsed.add row).rows.length + (parsed.add row).skipped.length =
      parsed.rows.length + parsed.skipped.length + 1 := by
  cases row with
  | ok row | error skip =>
    simp only [ParsedRows.add, List.length_append, List.length_singleton]
    omega

theorem length_foldl_add (platform : Platform) (raw : List Json) (parsed : ParsedRows) :
    (raw.foldl (fun parsed row => parsed.add (parseRow platform row)) parsed).rows.length +
        (raw.foldl (fun parsed row => parsed.add (parseRow platform row)) parsed).skipped.length =
      parsed.rows.length + parsed.skipped.length + raw.length := by
  induction raw generalizing parsed with
  | nil => rfl
  | cons row rest ih =>
    rw [List.foldl_cons, ih, length_add, List.length_cons]
    omega

/-- Every row of the list is parsed or skipped. -/
theorem parseFanOutRows_length {platform : Platform} {content : String} {parsed : ParsedRows}
    (found : parseFanOutRows platform content = .ok parsed) :
    ∃ rows, artifactRows platform content = .ok rows ∧
      parsed.rows.length + parsed.skipped.length = rows.length := by
  obtain ⟨rows, read, same⟩ := bind_eq_ok.mp found
  cases same
  exact ⟨rows, read, by rw [length_foldl_add]; simp⟩

/-! ## What a transaction has written -/

/-- The rows of finished work: each run with its claim and its decision. -/
def Rows.of (runs : List SpawnedRun) : Rows where
  claims := runs.map fun run => run.job.claim (some run.id)
  decisions := runs.filterMap fun run => run.job.decisionRow (some run.id)
  runs := runs

theorem claimed_of (runs : List SpawnedRun) : (Rows.of runs).claimed = runs.map (·.job.row) := by
  simp [Rows.of, Rows.claimed, RowJob.claim]

theorem of_append (first second : List SpawnedRun) :
    Rows.of (first ++ second) = (Rows.of first).append (Rows.of second) := by
  simp [Rows.of, Rows.append]

/-- With its rows of finished work, what a transaction has written for the row
it is at. -/
def Session.shape (session : Session) (done : List SpawnedRun) : Rows :=
  match session.waiting, session.stage with
  | [], _ | _, .claim => .of done
  | job :: _, .record =>
    { Rows.of done with claims := (Rows.of done).claims ++ [job.claim none] }
  | job :: _, .create =>
    { Rows.of done with
      claims := (Rows.of done).claims ++ [job.claim none]
      decisions := (Rows.of done).decisions ++ (job.decisionRow none).toList }
  | job :: _, .link runId =>
    { claims := (Rows.of done).claims ++ [job.claim none]
      decisions := (Rows.of done).decisions ++ (job.decisionRow none).toList
      runs := done ++ [⟨runId, job⟩] }

structure Session.Sound (platform : Platform) (session : Session) : Prop where
  written : ∃ done, session.written = session.shape done
  counted : ∀ content total, session.list = some (content, total) →
    ∃ rows, artifactRows platform content = .ok rows ∧
      session.spawned.length + session.skipped.length + session.waiting.length = rows.length

/-- What a statement makes of its transaction. -/
inductive Moves (committed : Rows) (claimedElsewhere : List RowKey) (session : Session) : Session → Prop
  | skips {job : RowJob} {rest : List RowJob} (skip : Skip) (waiting : session.waiting = job :: rest)
      (stage : session.stage = .claim) :
      Moves committed claimedElsewhere session
        { session with waiting := rest, skipped := session.skipped ++ [skip] }
  | claims {job : RowJob} {rest : List RowJob} {after : Stage} (waiting : session.waiting = job :: rest)
      (stage : session.stage = .claim) (free : job.row ∉ claimedElsewhere)
      (fresh : job.row ∉ committed.claimed ++ session.written.claimed)
      (goesOn : job.mode = .decide ∧ after = .record ∨ job.mode = .review ∧ after = .create) :
      Moves committed claimedElsewhere session
        { session with
          written := { session.written with claims := session.written.claims ++ [job.claim none] }
          stage := after }
  | records {job : RowJob} {rest : List RowJob} (waiting : session.waiting = job :: rest)
      (stage : session.stage = .record) :
      Moves committed claimedElsewhere session
        { session with
          written :=
            { session.written with
              decisions := session.written.decisions ++ (job.decisionRow none).toList }
          stage := .create }
  | creates {job : RowJob} {rest : List RowJob} (runId : RunId) (waiting : session.waiting = job :: rest)
      (stage : session.stage = .create) :
      Moves committed claimedElsewhere session
        { session with
          written := { session.written with runs := session.written.runs ++ [⟨runId, job⟩] }
          stage := .link runId }
  | links {job : RowJob} {rest : List RowJob} {runId : RunId} (waiting : session.waiting = job :: rest)
      (stage : session.stage = .link runId) :
      Moves committed claimedElsewhere session
        { session with
          written := session.written.link job.row runId
          waiting := rest
          stage := .claim
          spawned := session.spawned ++ [(job.row.docRef, runId)] }

theorem next_moves {session moved : Session} {committed : Rows}
    {claimedElsewhere decidedElsewhere : List RowKey} {runId : RunId} {created : Except String Unit}
    (goes : session.next committed claimedElsewhere decidedElsewhere runId created = .goes moved) :
    Moves committed claimedElsewhere session moved := by
  unfold Session.next at goes
  split at goes
  · cases goes
  · rename_i job rest waiting stage
    split at goes
    · cases goes
    · rename_i free
      split at goes
      · unfold Session.conflict at goes
        split at goes
        · cases goes
        · cases goes
          exact .skips _ waiting stage
      · rename_i absent
        cases goes
        refine .claims waiting stage free ?_ ?_
        · simpa [Rows.claimed, List.find?_eq_none] using absent
        · cases job.mode with
          | decide => exact .inl ⟨rfl, rfl⟩
          | review => exact .inr ⟨rfl, rfl⟩
  · rename_i job rest waiting stage
    split at goes
    · cases goes
    · split at goes
      · cases goes
      · cases goes
        exact .records waiting stage
  · rename_i job rest waiting stage
    split at goes
    · cases goes
    · cases goes
      exact .creates runId waiting stage
  · rename_i job rest runId waiting stage
    cases goes
    exact .links waiting stage

theorem shape_claim {session : Session} (stage : session.stage = .claim) (done : List SpawnedRun) :
    session.shape done = .of done := by
  unfold Session.shape
  rw [stage]
  cases session.waiting with
  | nil => rfl
  | cons job rest => rfl

theorem decisionRow_row {job : RowJob} {spawnedRunId : Option RunId} {decision : DecisionRow}
    (made : job.decisionRow spawnedRunId = some decision) : decision.row = job.row := by
  obtain ⟨verdict, -, rfl⟩ := Option.map_eq_some_iff.mp made
  rfl

/-- An `UPDATE` that names none of the rows changes none. -/
theorem map_update_of_notMem {Row : Type} {key : Row → RowKey} {rows : List Row} {row : RowKey}
    (absent : row ∉ rows.map key) (change : Row → Row) :
    rows.map (fun stored => if key stored = row then change stored else stored) = rows := by
  have same : ∀ stored ∈ rows, (if key stored = row then change stored else stored) = stored :=
    fun stored member => if_neg fun named : key stored = row =>
      absent (named ▸ List.mem_map_of_mem member)
  rw [List.map_congr_left same, List.map_id']

theorem decided_of_subset {done : List SpawnedRun} {row : RowKey} (member : row ∈ (Rows.of done).decided) :
    row ∈ done.map (·.job.row) := by
  obtain ⟨decision, listed, rfl⟩ := List.mem_map.mp member
  obtain ⟨run, inside, made⟩ := List.mem_filterMap.mp listed
  exact decisionRow_row made ▸ List.mem_map_of_mem inside

/-- Linking the row a transaction is at finishes its work. -/
theorem link_of {done : List SpawnedRun} {job : RowJob} (fresh : job.row ∉ done.map (·.job.row))
    (runId : RunId) :
    Rows.link
        { claims := (Rows.of done).claims ++ [job.claim none]
          decisions := (Rows.of done).decisions ++ (job.decisionRow none).toList
          runs := done ++ [⟨runId, job⟩] }
        job.row runId =
      .of (done ++ [⟨runId, job⟩]) := by
  have claims : job.row ∉ (Rows.of done).claims.map RowClaim.row := by
    rw [← Rows.claimed, claimed_of]
    exact fresh
  have decisions : job.row ∉ (Rows.of done).decisions.map DecisionRow.row :=
    fun member => fresh (decided_of_subset member)
  rw [of_append]
  simp only [Rows.link, Rows.append, List.map_append, map_update_of_notMem claims,
    map_update_of_notMem decisions]
  cases verdict : job.verdict <;> simp [Rows.of, RowJob.claim, RowJob.decisionRow, verdict]

/-- Every statement keeps to the order of the work. -/
theorem sound_moves {platform : Platform} {committed : Rows} {claimedElsewhere : List RowKey}
    {session moved : Session} (moves : Moves committed claimedElsewhere session moved)
    (nodup : session.written.claimed.Nodup) (sound : session.Sound platform) :
    moved.Sound platform := by
  obtain ⟨⟨done, written⟩, counted⟩ := sound
  cases moves with
  | skips skip waiting stage =>
    refine ⟨⟨done, ?_⟩, fun content total list => ?_⟩
    · rw [shape_claim stage] at written
      rw [shape_claim]
      · exact written
      · exact stage
    · obtain ⟨rows, read, length⟩ := counted content total list
      refine ⟨rows, read, ?_⟩
      rw [waiting, List.length_cons] at length
      simp only [List.length_append, List.length_singleton]
      omega
  | @claims job rest after waiting stage free fresh goesOn =>
    refine ⟨⟨done, ?_⟩, counted⟩
    rw [shape_claim stage] at written
    obtain ⟨mode, rfl⟩ | ⟨mode, rfl⟩ := goesOn
    · simp [Session.shape, waiting, written]
    · have verdict : job.verdict = none := by
        cases verdict : job.verdict with
        | none => rfl
        | some verdict => simp [RowJob.mode, verdict] at mode
      simp [Session.shape, waiting, written, RowJob.decisionRow, verdict]
  | records waiting stage =>
    refine ⟨⟨done, ?_⟩, counted⟩
    simp only [Session.shape, waiting, stage] at written
    simp [Session.shape, waiting, written]
  | creates runId waiting stage =>
    refine ⟨⟨done, ?_⟩, counted⟩
    simp only [Session.shape, waiting, stage] at written
    simp [Session.shape, waiting, written, Rows.of]
  | @links job rest runId waiting stage =>
    simp only [Session.shape, waiting, stage] at written
    have fresh : job.row ∉ done.map (·.job.row) := by
      simp only [written, Rows.claimed, List.map_append, List.map_singleton] at nodup
      have apart := List.disjoint_of_nodup_append nodup
      intro member
      rw [← claimed_of] at member
      exact apart member (List.mem_singleton_self _)
    refine ⟨⟨done ++ [⟨runId, job⟩], ?_⟩, fun content total list => ?_⟩
    · rw [shape_claim rfl]
      exact written ▸ link_of fresh runId
    · obtain ⟨rows, read, length⟩ := counted content total list
      refine ⟨rows, read, ?_⟩
      rw [waiting, List.length_cons] at length
      simp only [List.length_append, List.length_singleton]
      omega

/-- A statement claims one more row at most, and one that nobody has claimed. -/
theorem claimed_moves {committed : Rows} {claimedElsewhere : List RowKey} {session moved : Session}
    (moves : Moves committed claimedElsewhere session moved) :
    moved.written.claimed = session.written.claimed ∨
      ∃ row, moved.written.claimed = session.written.claimed ++ [row] ∧
        row ∉ claimedElsewhere ∧ row ∉ committed.claimed ++ session.written.claimed := by
  cases moves with
  | skips skip waiting stage => exact .inl rfl
  | @claims job rest after waiting stage free fresh goesOn =>
    exact .inr ⟨job.row, by simp [Rows.claimed, RowJob.claim], free, fresh⟩
  | records waiting stage => exact .inl rfl
  | creates runId waiting stage => exact .inl rfl
  | @links job rest runId waiting stage =>
    refine .inl ?_
    simp only [Rows.claimed, Rows.link, List.map_map]
    refine List.map_congr_left fun claim _ => ?_
    simp only [Function.comp_apply]
    split
    · rfl
    · rfl

/-! ## Runs of the system -/

structure Sound (platform : Platform) (system : System) : Prop where
  settled : system.committed = .of system.committed.runs
  nodup : system.committed.claimed.Nodup
  sessions : ∀ id session, system.sessions.get id = some session →
    session.Sound platform ∧ session.written.claimed.Nodup ∧
      system.committed.claimed.Disjoint session.written.claimed
  apart : ∀ one two first second, one ≠ two → system.sessions.get one = some first →
    system.sessions.get two = some second → first.written.claimed.Disjoint second.written.claimed
  answers : ∀ answer ∈ system.answers, answer.Counted platform

variable {platform : Platform} {system : System}

theorem Sound.start : Sound platform .start where
  settled := rfl
  nodup := List.nodup_nil
  sessions := nofun
  apart := nofun
  answers := nofun

/-- Ending a transaction, its rows kept or not. -/
theorem get_close {id other : SessionId} {session : Session}
    (found : (system.close id).get other = some session) :
    other ≠ id ∧ system.sessions.get other = some session := by
  rw [System.close, Table.get_filter, Option.filter_eq_some_iff] at found
  exact ⟨by simpa using found.2, found.1⟩

theorem mem_elsewhere {id other : SessionId} {session : Session} {keys : Rows → List RowKey} {row : RowKey}
    (different : other ≠ id) (found : system.sessions.get other = some session)
    (member : row ∈ keys session.written) : row ∈ system.elsewhere id keys := by
  refine List.mem_flatMap.mpr ⟨(other, session), ?_, member⟩
  rw [← Table.get_eq_some_iff, System.close, Table.get_filter, found]
  simpa using different

theorem Sound.answered (sound : Sound platform system) {answer : Answer}
    (counted : answer.Counted platform) :
    ∀ listed ∈ system.answers ++ [answer], listed.Counted platform := by
  intro listed member
  obtain old | new := List.mem_append.mp member
  · exact sound.answers listed old
  · exact List.mem_singleton.mp new ▸ counted

theorem Sound.open (sound : Sound platform system) (id : SessionId) {opened : Except Refusal Session}
    (fresh : ∀ session, opened = .ok session → session.Sound platform ∧ session.written = .empty) :
    Sound platform (system.open id opened) := by
  unfold System.open
  split
  · exact ⟨sound.settled, sound.nodup, sound.sessions, sound.apart, sound.answered trivial⟩
  · rename_i session
    obtain ⟨starts, empty⟩ := fresh session rfl
    have nothing : session.written.claimed = [] := by rw [empty]; rfl
    split
    · rename_i sessions inserted
      refine ⟨sound.settled, sound.nodup, fun other found stored => ?_,
        fun one two first second different firstStored secondStored => ?_, sound.answers⟩
      · rw [Table.get_insert? inserted] at stored
        split at stored
        · cases stored
          simp [starts, nothing]
        · exact sound.sessions other found stored
      · rw [Table.get_insert? inserted] at firstStored secondStored
        split at firstStored
        · cases firstStored
          simp [nothing]
        · split at secondStored
          · cases secondStored
            simp [nothing]
          · exact sound.apart one two first second different firstStored secondStored
    · exact sound

theorem Sound.close (sound : Sound platform system) (id : SessionId) {answers : List Answer}
    (counted : ∀ answer ∈ answers, answer.Counted platform) :
    Sound platform { system with sessions := system.close id, answers := answers } where
  settled := sound.settled
  nodup := sound.nodup
  sessions other session found := sound.sessions other session (get_close found).2
  apart one two first second different firstFound secondFound :=
    sound.apart one two first second different (get_close firstFound).2 (get_close secondFound).2
  answers := counted

theorem applyDecide_ok {reads : Reads} {row : RowKey} {verdict : Verdict} {now : String} {session : Session}
    (starts : applyDecide reads row verdict now = .ok session) :
    session.Sound platform ∧ session.written = .empty := by
  unfold applyDecide at starts
  split at starts
  · split at starts
    · cases starts
    · cases starts
      exact ⟨⟨⟨[], rfl⟩, nofun⟩, rfl⟩
  · cases starts

theorem fanOutCollectionRun_ok {reads : Reads} {tenantId sourceRunId now : String} {session : Session}
    (starts : fanOutCollectionRun platform reads tenantId sourceRunId now = .ok session) :
    session.Sound platform ∧ session.written = .empty := by
  unfold fanOutCollectionRun at starts
  split at starts
  · split at starts
    · cases starts
    · cases starts
    · cases starts
    · obtain ⟨parsed, read, starts⟩ := bind_eq_ok.mp starts
      cases starts
      refine ⟨⟨⟨[], (shape_claim rfl []).symm⟩, ?_⟩, rfl⟩
      rintro content total ⟨rfl, -⟩
      obtain ⟨rows, found, length⟩ := parseFanOutRows_length read
      refine ⟨rows, found, ?_⟩
      rw [List.length_map, ← length]
      simp [Nat.add_comm]
  · cases starts

theorem Sound.advance (sound : Sound platform system) {id : SessionId} {session moved : Session}
    (found : system.sessions.get id = some session) {runId : RunId}
    (moves : Moves system.committed (system.elsewhere id Rows.claimed) session moved) :
    Sound platform
      { system with sessions := system.sessions.modify id fun _ => moved, nextRunId := runId } := by
  obtain ⟨mine, nodup, free⟩ := sound.sessions id session found
  have stored : ∀ other after, (system.sessions.modify id fun _ => moved).get other = some after →
      other = id ∧ after = moved ∨ other ≠ id ∧ system.sessions.get other = some after := by
    intro other after look
    rw [Table.get_modify] at look
    split at look
    · rename_i same
      rw [same, found] at look
      exact .inl ⟨same, (Option.some.inj look).symm⟩
    · rename_i different
      exact .inr ⟨different, look⟩
  have grown : moved.written.claimed.Nodup ∧
      system.committed.claimed.Disjoint moved.written.claimed ∧
      ∀ other after, other ≠ id → system.sessions.get other = some after →
        moved.written.claimed.Disjoint after.written.claimed := by
    obtain same | ⟨row, more, alone, fresh⟩ := claimed_moves moves
    · rw [same]
      exact ⟨nodup, free, fun other after different look =>
        sound.apart id other session after different.symm found look⟩
    · rw [List.mem_append, not_or] at fresh
      rw [more]
      refine ⟨List.nodup_append'.mpr ⟨nodup, List.nodup_singleton row, ?_⟩, ?_,
        fun other after different look => ?_⟩
      · exact List.disjoint_singleton.mpr fresh.2
      · exact List.disjoint_append_right.mpr ⟨free, List.disjoint_singleton.mpr fresh.1⟩
      · refine List.disjoint_append_left.mpr
          ⟨sound.apart id other session after different.symm found look, ?_⟩
        exact List.singleton_disjoint.mpr fun member => alone (mem_elsewhere different look member)
  refine ⟨sound.settled, sound.nodup, fun other after look => ?_,
    fun one two first second different firstLook secondLook => ?_, sound.answers⟩
  · obtain ⟨rfl, rfl⟩ | ⟨-, look⟩ := stored other after look
    · exact ⟨sound_moves moves nodup mine, grown.1, grown.2.1⟩
    · exact sound.sessions other after look
  · obtain ⟨rfl, rfl⟩ | ⟨-, firstStill⟩ := stored one first firstLook
    · obtain ⟨rfl, rfl⟩ | ⟨apart, secondStill⟩ := stored two second secondLook
      · exact absurd rfl different
      · exact grown.2.2 two second apart secondStill
    · obtain ⟨rfl, rfl⟩ | ⟨-, secondStill⟩ := stored two second secondLook
      · exact List.disjoint_symm (grown.2.2 one first different firstStill)
      · exact sound.apart one two first second different firstStill secondStill

theorem Sound.commit (sound : Sound platform system) {id : SessionId} {session : Session}
    (found : system.sessions.get id = some session) (done : session.waiting = []) :
    Sound platform
      { system with
        committed := system.committed.append session.written
        sessions := system.close id
        answers := system.answers ++ [session.answer] } := by
  obtain ⟨⟨⟨runs, written⟩, counted⟩, nodup, free⟩ := sound.sessions id session found
  have claimed : (system.committed.append session.written).claimed =
      system.committed.claimed ++ session.written.claimed := List.map_append
  refine ⟨?_, ?_, fun other after look => ?_, fun one two first second different firstLook secondLook => ?_,
    sound.answered ?_⟩
  · have finished : session.written = .of runs := by
      rw [written, Session.shape, done]
    rw [finished, sound.settled, ← of_append]
    rfl
  · rw [claimed]
    exact List.nodup_append'.mpr ⟨sound.nodup, nodup, free⟩
  · obtain ⟨different, look⟩ := get_close look
    obtain ⟨its, itsNodup, itsFree⟩ := sound.sessions other after look
    refine ⟨its, itsNodup, ?_⟩
    rw [claimed, List.disjoint_append_left]
    exact ⟨itsFree, sound.apart id other session after different.symm found look⟩
  · exact sound.apart one two first second different (get_close firstLook).2 (get_close secondLook).2
  · unfold Session.answer
    cases list : session.list with
    | none => trivial
    | some entry =>
      obtain ⟨rows, read, length⟩ := counted entry.1 entry.2 list
      exact ⟨rows, read, by simpa [done] using length⟩

theorem sound_step (platform : Platform) {system : System} (sound : Sound platform system) (action : Action) :
    Sound platform (step platform system action) := by
  cases action with
  | decide id reads row verdict now => exact sound.open id fun _ starts => applyDecide_ok starts
  | fanOut id reads tenantId sourceRunId now =>
    exact sound.open id fun _ starts => fanOutCollectionRun_ok starts
  | advance id created =>
    simp only [step]
    split
    · exact sound
    · rename_i session found
      split
      · exact sound
      · rename_i moved goes
        exact sound.advance found (next_moves goes)
      · exact sound.close id (sound.answered trivial)
  | commit id =>
    simp only [step]
    split
    · exact sound
    · rename_i session found
      split
      · rename_i done
        exact sound.commit found (List.isEmpty_iff.mp done)
      · exact sound
  | rollback id => exact sound.close id sound.answers

theorem Sound.onePath (sound : Sound platform system) : OnePath system.committed := by
  have nodup : (system.committed.runs.map (·.job.row)).Nodup := by
    rw [← claimed_of, ← sound.settled]
    exact sound.nodup
  refine ⟨fun row => ?_, fun claim member => ?_, fun decision member run spawned same => ?_⟩
  · have count := List.nodup_iff_count_le_one.mp nodup row
    rwa [List.count_eq_countP, List.countP_map] at count
  · rw [sound.settled] at member
    obtain ⟨run, spawned, rfl⟩ := List.mem_map.mp member
    exact ⟨run, spawned, rfl, rfl, rfl⟩
  · rw [sound.settled] at member
    obtain ⟨decided, spawnedToo, made⟩ := List.mem_filterMap.mp member
    obtain rfl : run = decided :=
      List.inj_on_of_nodup_map nodup spawned spawnedToo (same.trans (decisionRow_row made))
    obtain ⟨verdict, given, -⟩ := Option.map_eq_some_iff.mp made
    simp [RowJob.mode, given]

/-- Every row of every list takes one path, and every fan-out answers for all of
its rows. -/
theorem one_path (platform : Platform) (schedule : List Action) :
    Throughout (step platform)
      (fun system => OnePath system.committed ∧
        ∀ answer ∈ system.answers, answer.Counted platform) .start schedule :=
  throughout_invariant (Sound platform) (fun _ action sound => sound_step platform sound action)
    (fun _ sound => ⟨sound.onePath, sound.answers⟩) .start schedule

end RpaEnterprise.ControlPlane.ApprovalRows
