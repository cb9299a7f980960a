import Mathlib
import RpaEnterprise.ControlPlane.ApprovalRows
import RpaEnterprise.Lib.Descent
import RpaEnterprise.Runtime.Database

/-!
# The fan-out sweeper

A pass of the sweeper takes the runs of a tenant that have completed within the last day
and have left a list of documents, and fans each list out into runs of its own.  It selects
runs without a claim, and fifty of them: a run of which one row was decided from the list
is not selected again, and neither is one behind fifty others.
-/

namespace RpaEnterprise.Worker.FanOutSweeper

open Lib RpaEnterprise.Runtime
open ControlPlane (ApprovalRows.Reads ApprovalRows.Rows ApprovalRows.RowJob ApprovalRows.RowKey)

abbrev TenantId := String

/-- What the sweeper and `fanOutCollectionRun` read about a run besides its row: the
flag of its scenario, and what the first statements of the fan-out find. -/
structure Collection where
  autoFanOut : Bool
  reads : ApprovalRows.Reads

/-- The rows of one tenant. -/
structure TenantRows where
  now : Time
  runs : Table RunId RunRow
  collections : Table RunId Collection
  approvals : ApprovalRows.Rows
  /-- An offboarding request is approved or purging. -/
  offboarding : Bool

/-- What the handler meets outside the rows of the tenant. -/
structure Surroundings where
  platform : ControlPlane.ApprovalRows.Platform
  /-- The text of a run's id. -/
  uuid : RunId → String
  /-- What `createRunInTx` comes to for a row of a list. -/
  created : ApprovalRows.RowKey → Bool
  asOf : String

variable (surroundings : Surroundings)

/-- The window of the fan-out sweeper, one day. -/
def fanOutWindowMs : Nat := 24 * 60 * 60 * 1000

/-- The runs without a claim, in the order in which the sweeper takes them. -/
def TenantRows.unclaimedRuns (rows : TenantRows) : List (RunId × RunRow) :=
  ((rows.runs.rows.filter fun entry =>
    entry.2.status = .completed ∧
      (rows.collections.get entry.1).any (·.autoFanOut) ∧
      entry.2.endedAt.any (fun endedAt => rows.now < endedAt + fanOutWindowMs) ∧
      surroundings.uuid entry.1 ∉ rows.approvals.claims.map (·.row.sourceRunId) ∧
      rows.offboarding = false).mergeSort fun first second => first.2.endedAt.getD 0 ≤ second.2.endedAt.getD 0)

/-- The runs that the sweeper is to fan out. -/
def TenantRows.fanOutCandidates (rows : TenantRows) : List (RunId × RunRow) :=
  (rows.unclaimedRuns surroundings).take 50

/-- The rows of a list, claimed and spawned one by one; `none` where a run could not be
created. -/
def spawnRows (committed : ApprovalRows.Rows) : List ApprovalRows.RowJob → ApprovalRows.Rows →
    Option ApprovalRows.Rows
  | [], written => some written
  | job :: rest, written =>
    if job.row ∈ (committed.append written).claimed then spawnRows committed rest written
    else if surroundings.created job.row then
      let runId := committed.runs.length + written.runs.length
      spawnRows committed rest
        { written with
          claims := written.claims ++ [job.claim (some runId)]
          runs := written.runs ++ [⟨runId, job⟩] }
    else none

/-- `fanOutCollectionRun` in its own transaction; what throws is undone. -/
def fanOut (tenantId : TenantId) (rows : TenantRows) (runId : RunId) (approvals : ApprovalRows.Rows) :
    ApprovalRows.Rows :=
  match rows.collections.get runId with
  | none => approvals
  | some collection =>
    match ControlPlane.ApprovalRows.fanOutCollectionRun surroundings.platform collection.reads tenantId
        (surroundings.uuid runId) surroundings.asOf with
    | .error _ => approvals
    | .ok session => approvals.append ((spawnRows surroundings approvals session.waiting .empty).getD .empty)

def handleApprovalFanOutSweeper (tenantId : TenantId) (rows : TenantRows) : TenantRows :=
  { rows with
    approvals := exec (fun approvals entry => fanOut surroundings tenantId rows entry.1 approvals) rows.approvals
      (rows.fanOutCandidates surroundings) }

/-! ## One list -/

theorem spawnRows_isSome_iff {committed : ApprovalRows.Rows} {jobs : List ApprovalRows.RowJob}
    {written : ApprovalRows.Rows} :
    (spawnRows surroundings committed jobs written).isSome = true ↔
      ∀ job ∈ jobs, job.row ∈ (committed.append written).claimed ∨ surroundings.created job.row = true := by
  induction jobs generalizing written with
  | nil => simp [spawnRows]
  | cons job rest ih =>
    rw [spawnRows, List.forall_mem_cons]
    split
    · rename_i claimed
      rw [ih]
      exact ⟨fun later => ⟨.inl claimed, later⟩, And.right⟩
    · rename_i unclaimed
      split
      · rename_i created
        rw [ih]
        -- a later row of the same document is claimed by then
        refine ⟨fun later => ⟨.inr created, fun other listed => ?_⟩, fun ⟨_, later⟩ other listed => ?_⟩
        · rcases later other listed with claimed | other
          · simp only [ApprovalRows.Rows.append, ApprovalRows.Rows.claimed, ApprovalRows.RowJob.claim,
              List.map_append, List.map_cons, List.map_nil, ← List.append_assoc, List.mem_append,
              List.mem_singleton] at claimed ⊢
            rcases claimed with before | same
            · exact .inl before
            · exact .inr (same ▸ created)
          · exact .inr other
        · refine (later other listed).imp_left fun claimed => ?_
          simp only [ApprovalRows.Rows.append, ApprovalRows.Rows.claimed, List.map_append, ← List.append_assoc,
            List.mem_append] at claimed ⊢
          exact .inl claimed
      · rename_i refused
        refine ⟨fun impossible => absurd impossible (by simp), fun ⟨first, _⟩ => ?_⟩
        exact absurd first (not_or.mpr ⟨unclaimed, refused⟩)

theorem append_empty (rows : ApprovalRows.Rows) : rows.append .empty = rows := by
  simp [ApprovalRows.Rows.append, ApprovalRows.Rows.empty]

/-- The rows of a list are of the run that it was made by. -/
theorem sourceRunId_of_waiting {platform : ControlPlane.ApprovalRows.Platform} {reads : ApprovalRows.Reads}
    {tenantId sourceRunId asOf : String} {session : ControlPlane.ApprovalRows.Session}
    (fans : ControlPlane.ApprovalRows.fanOutCollectionRun platform reads tenantId sourceRunId asOf = .ok session) :
    ∀ job ∈ session.waiting, job.row.sourceRunId = sourceRunId := by
  unfold ControlPlane.ApprovalRows.fanOutCollectionRun at fans
  split at fans
  · split at fans
    · cases fans
    · cases fans
    · cases fans
    · obtain ⟨parsed, -, same⟩ := bind_eq_ok.mp fans
      cases same
      intro job listed
      obtain ⟨row, -, rfl⟩ := List.mem_map.mp listed
      rfl
  · cases fans

/-! ## What a pass leaves unclaimed -/

section Completeness

/-- A run of a scenario that is fanned out by itself, completed within the last day. -/
structure TenantRows.Collected (rows : TenantRows) (entry : RunId × RunRow) : Prop where
  stored : rows.runs.get entry.1 = some entry.2
  completed : entry.2.status = .completed
  auto : (rows.collections.get entry.1).any (·.autoFanOut) = true
  recent : entry.2.endedAt.any (fun endedAt => rows.now < endedAt + fanOutWindowMs) = true

variable {surroundings} {tenantId : TenantId} {rows : TenantRows}

/-- Claims are only added, and for rows of the run that is fanned out. -/
structure Extends (sourceRunId : String) (before after : ApprovalRows.Rows) : Prop where
  keeps : ∀ row ∈ before.claimed, row ∈ after.claimed
  adds : ∀ row ∈ after.claimed, row ∈ before.claimed ∨ row.sourceRunId = sourceRunId

theorem claimed_append (first second : ApprovalRows.Rows) :
    (first.append second).claimed = first.claimed ++ second.claimed := by
  simp [ApprovalRows.Rows.append, ApprovalRows.Rows.claimed]

/-- The rows of a list are claimed once it has been gone through, and no others. -/
theorem spawnRows_claimed {committed written final : ApprovalRows.Rows} {jobs : List ApprovalRows.RowJob}
    (spawned : spawnRows surroundings committed jobs written = some final) :
    (∀ row ∈ written.claimed, row ∈ final.claimed) ∧
      (∀ job ∈ jobs, job.row ∈ (committed.append final).claimed) ∧
      ∀ row ∈ final.claimed, row ∈ written.claimed ∨ ∃ job ∈ jobs, job.row = row := by
  induction jobs generalizing written with
  | nil =>
    cases spawned
    exact ⟨fun _ member => member, nofun, fun _ member => .inl member⟩
  | cons job rest ih =>
    rw [spawnRows] at spawned
    split at spawned
    · rename_i claimed
      obtain ⟨kept, listed, only⟩ := ih spawned
      refine ⟨kept, List.forall_mem_cons.mpr ⟨?_, listed⟩, fun row member => ?_⟩
      · rw [claimed_append, List.mem_append] at claimed ⊢
        exact claimed.imp_right (kept job.row)
      · refine (only row member).imp_right ?_
        rintro ⟨other, later, same⟩
        exact ⟨other, List.mem_cons_of_mem _ later, same⟩
    · split at spawned
      · obtain ⟨kept, listed, only⟩ := ih spawned
        have grown : ∀ row, row ∈ written.claimed ∨ row = job.row → row ∈ final.claimed := by
          intro row member
          refine kept row ?_
          simpa [ApprovalRows.Rows.claimed, ApprovalRows.RowJob.claim] using member
        refine ⟨fun row member => grown row (.inl member), List.forall_mem_cons.mpr ⟨?_, listed⟩,
          fun row member => ?_⟩
        · rw [claimed_append]
          exact List.mem_append_right _ (grown _ (.inr rfl))
        · rcases only row member with before | ⟨other, later, same⟩
          · rw [ApprovalRows.Rows.claimed, List.map_append, List.mem_append] at before
            rcases before with older | new
            · exact .inl older
            · exact .inr ⟨job, List.mem_cons_self, (List.mem_singleton.mp new).symm⟩
          · exact .inr ⟨other, List.mem_cons_of_mem _ later, same⟩
      · cases spawned

theorem extends_fanOut (runId : RunId) (approvals : ApprovalRows.Rows) :
    Extends (surroundings.uuid runId) approvals (fanOut surroundings tenantId rows runId approvals) := by
  have same : Extends (surroundings.uuid runId) approvals approvals :=
    ⟨fun _ member => member, fun _ member => .inl member⟩
  unfold fanOut
  split
  · exact same
  · split
    · exact same
    · rename_i session fans
      cases spawned : spawnRows surroundings approvals session.waiting .empty with
      | none =>
        rw [Option.getD_none, append_empty]
        exact same
      | some written =>
        rw [Option.getD_some]
        refine ⟨fun row member => ?_, fun row member => ?_⟩
        · rw [claimed_append]
          exact List.mem_append_left _ member
        · rw [claimed_append, List.mem_append] at member
          refine member.imp_right fun new => ?_
          rcases (spawnRows_claimed spawned).2.2 row new with none_ | ⟨job, listed, rfl⟩
          · cases none_
          · exact sourceRunId_of_waiting fans job listed

/-- A pass over some runs claims rows of theirs only. -/
theorem claimed_exec {entries : List (RunId × RunRow)} {approvals : ApprovalRows.Rows} :
    let after := exec (fun approvals (entry : RunId × RunRow) => fanOut surroundings tenantId rows entry.1 approvals)
      approvals entries
    (∀ row ∈ approvals.claimed, row ∈ after.claimed) ∧
      ∀ row ∈ after.claimed, row ∈ approvals.claimed ∨
        ∃ entry ∈ entries, row.sourceRunId = surroundings.uuid entry.1 := by
  induction entries generalizing approvals with
  | nil => exact ⟨fun _ member => member, fun _ member => .inl member⟩
  | cons entry rest ih =>
    have one := @extends_fanOut surroundings tenantId rows entry.1 approvals
    obtain ⟨kept, only⟩ := @ih (fanOut surroundings tenantId rows entry.1 approvals)
    refine ⟨fun row member => kept row (one.keeps row member), fun row member => ?_⟩
    rcases only row member with sooner | ⟨other, later, same⟩
    · exact (one.adds row sooner).imp_right fun new => ⟨entry, List.mem_cons_self, new⟩
    · exact .inr ⟨other, List.mem_cons_of_mem _ later, same⟩

/-- A run that the pass comes to has all its rows claimed, whatever became of the others. -/
theorem claimed_of_mem {entries : List (RunId × RunRow)} {approvals : ApprovalRows.Rows} {entry : RunId × RunRow}
    (member : entry ∈ entries) {collection : Collection} {session : ControlPlane.ApprovalRows.Session}
    (stored : rows.collections.get entry.1 = some collection)
    (fans : ControlPlane.ApprovalRows.fanOutCollectionRun surroundings.platform collection.reads tenantId
      (surroundings.uuid entry.1) surroundings.asOf = .ok session)
    (created : ∀ job ∈ session.waiting, surroundings.created job.row = true) :
    ∀ job ∈ session.waiting, job.row ∈ (exec (fun approvals (entry : RunId × RunRow) =>
      fanOut surroundings tenantId rows entry.1 approvals) approvals entries).claimed := by
  induction entries generalizing approvals with
  | nil => cases member
  | cons first rest ih =>
    rw [exec_cons]
    rcases List.mem_cons.mp member with rfl | later
    · intro job listed
      refine claimed_exec.1 job.row ?_
      have possible : (spawnRows surroundings approvals session.waiting .empty).isSome = true :=
        (spawnRows_isSome_iff surroundings).mpr fun job listed => .inr (created job listed)
      obtain ⟨written, spawned⟩ := Option.isSome_iff_exists.mp possible
      simp only [fanOut, stored, fans, spawned, Option.getD_some]
      exact (spawnRows_claimed spawned).2.1 job listed
    · exact ih later

theorem mem_unclaimedRuns {entry : RunId × RunRow} (collected : rows.Collected entry) :
    entry ∈ rows.unclaimedRuns surroundings ↔
      surroundings.uuid entry.1 ∉ rows.approvals.claims.map (·.row.sourceRunId) ∧ rows.offboarding = false := by
  simp only [TenantRows.unclaimedRuns, List.mem_mergeSort, List.mem_filter, decide_eq_true_eq,
    Table.get_eq_some_iff.mp collected.stored, collected.completed, collected.auto, collected.recent, true_and]

/-- After a pass every valid row of a list is claimed just if they all were before, or no
row of the list was, the tenant is not being offboarded and fewer than fifty runs without
a claim come before it. -/
theorem fan_out_complete_iff (distinct : Function.Injective surroundings.uuid) (entry : RunId × RunRow)
    (collected : rows.Collected entry) (collection : Collection)
    (stored : rows.collections.get entry.1 = some collection) (session : ControlPlane.ApprovalRows.Session)
    (fans : ControlPlane.ApprovalRows.fanOutCollectionRun surroundings.platform collection.reads tenantId
      (surroundings.uuid entry.1) surroundings.asOf = .ok session)
    (created : ∀ job ∈ session.waiting, surroundings.created job.row = true) :
    (∀ job ∈ session.waiting,
        job.row ∈ (handleApprovalFanOutSweeper surroundings tenantId rows).approvals.claimed) ↔
      (∀ job ∈ session.waiting, job.row ∈ rows.approvals.claimed) ∨
        (∀ claim ∈ rows.approvals.claims, claim.row.sourceRunId ≠ surroundings.uuid entry.1) ∧
          rows.offboarding = false ∧ (rows.unclaimedRuns surroundings).idxOf entry < 50 := by
  have candidates : rows.fanOutCandidates surroundings = (rows.unclaimedRuns surroundings).take 50 := rfl
  have free : surroundings.uuid entry.1 ∉ rows.approvals.claims.map (·.row.sourceRunId) ↔
      ∀ claim ∈ rows.approvals.claims, claim.row.sourceRunId ≠ surroundings.uuid entry.1 := by
    simp
  have selected : entry ∈ rows.fanOutCandidates surroundings ↔
      (∀ claim ∈ rows.approvals.claims, claim.row.sourceRunId ≠ surroundings.uuid entry.1) ∧
        rows.offboarding = false ∧ (rows.unclaimedRuns surroundings).idxOf entry < 50 := by
    rw [candidates, ← free, ← and_assoc, ← mem_unclaimedRuns collected]
    constructor
    · intro chosen
      have listed := List.mem_of_mem_take chosen
      exact ⟨listed, (List.mem_take_iff_idxOf_lt listed).mp chosen⟩
    · rintro ⟨listed, early⟩
      exact (List.mem_take_iff_idxOf_lt listed).mpr early
  rw [← selected]
  constructor
  · intro all
    by_contra neither
    rw [not_or] at neither
    refine neither.1 fun job listed => ?_
    rcases claimed_exec.2 job.row (all job listed) with before | ⟨other, chosen, same⟩
    · exact before
    · -- only the run itself claims its rows
      have itself : other.1 = entry.1 := distinct (same.symm.trans (sourceRunId_of_waiting fans job listed))
      have present : rows.runs.get other.1 = some other.2 := by
        have listed := List.mem_of_mem_take chosen
        simp only [TenantRows.unclaimedRuns, List.mem_mergeSort, List.mem_filter] at listed
        exact Table.get_eq_some_iff.mpr listed.1
      rw [itself, collected.stored] at present
      have whole : other = entry := Prod.ext itself (Option.some.inj present).symm
      exact absurd (whole ▸ chosen) neither.2
  · rintro (before | chosen)
    · exact fun job listed => claimed_exec.1 job.row (before job listed)
    · exact claimed_of_mem chosen stored fans created

end Completeness

/-! ## A list of two documents -/

/-- A run that has completed at 500 and has left a list, seen at 1000. -/
def oneList : TenantRows where
  now := 1000
  runs := Table.empty.put 1 ⟨.completed, none, some 500⟩
  collections := Table.empty.put 1 ⟨true, ⟨true, some "v1", some (some "list")⟩⟩
  approvals := .empty
  offboarding := false

/-- The list parses to two rows, and their runs can be created. -/
def twoDocuments : Surroundings where
  platform :=
    { parse := fun _ => some (.arr [.obj [("doc_ref", .str "https://docs/1"), ("approval_id", .str "7")],
        .obj [("doc_ref", .str "https://docs/2"), ("approval_id", .str "8")]])
      href := some }
  uuid := fun runId => String.ofList (List.replicate runId 'r')
  created := fun _ => true
  asOf := "2026-01-01T00:00:00.000Z"

theorem uuid_injective : Function.Injective twoDocuments.uuid := by
  intro first second same
  have lengths := congrArg (fun text => text.toList.length) same
  simpa [twoDocuments] using lengths

/-- Both rows of an untouched list are claimed by the pass. -/
theorem fan_out_complete_iff_untouched :
    ∃ session, ControlPlane.ApprovalRows.fanOutCollectionRun twoDocuments.platform ⟨true, some "v1", some (some "list")⟩
        "acme" "r" twoDocuments.asOf = .ok session ∧ session.waiting.length = 2 ∧
      ∀ job ∈ session.waiting,
        job.row ∈ (handleApprovalFanOutSweeper twoDocuments "acme" oneList).approvals.claimed := by
  refine ⟨_, rfl, rfl, ?_⟩
  refine (fan_out_complete_iff uuid_injective
    (1, ⟨.completed, none, some 500⟩)
    ⟨rfl, rfl, rfl, by decide⟩ _ rfl _ rfl fun _ _ => rfl).mpr (.inr ⟨nofun, rfl, by decide +kernel⟩)

/-- The first document was decided from the list; the second one stays without a claim. -/
def firstDecided : TenantRows :=
  { oneList with
    approvals := { ApprovalRows.Rows.empty with claims := [⟨⟨"acme", "r", "https://docs/1"⟩, .decide, some 0⟩] } }

theorem decided_list_is_passed_over :
    (ControlPlane.ApprovalRows.fanOutCollectionRun twoDocuments.platform ⟨true, some "v1", some (some "list")⟩
        "acme" "r" twoDocuments.asOf).toOption.map (fun session => session.waiting.map (·.row.docRef)) =
      some ["https://docs/1", "https://docs/2"] ∧
    (handleApprovalFanOutSweeper twoDocuments "acme" firstDecided).approvals.claimed =
      [⟨"acme", "r", "https://docs/1"⟩] := by
  constructor <;> decide +kernel

end RpaEnterprise.Worker.FanOutSweeper
