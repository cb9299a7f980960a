import RpaEnterprise.Interpreter.Moves
import RpaEnterprise.Ir.StaticValidation

/-!
# Runs

A run is a sequence of drives.  A drive that returns `suspend` with a context is
resumed by a new drive from the node of the context: a new traversal state, whose node
outputs are the answers of the resolved human tasks.  The log goes on from drive to
drive.
-/

namespace RpaEnterprise.Interpreter

open Lib Ir
open Executor (PageState)

/-! ## The node outputs of a resumed drive -/

/-- A resolved human task of the run that names a node. -/
structure ResolvedTask where
  nodeId : NodeId
  result : Option Json

def humanTaskNodeOutput (result : Option Json) : Option (List (String × Json)) :=
  match result with
  | some (.obj fields) =>
    match (textOf (.obj fields) "decision").filter irelDecisionValues.contains with
    | none => none
    | some decision =>
      match (Json.obj fields).field "corrections" with
      | some (.obj corrections) => some [("decision", .str decision), ("correction", .obj corrections)]
      | _ => some [("decision", .str decision)]
  | _ => none

/-- The tasks come in the order of their resolution; the last one of a node counts. -/
def loadResolvedHumanTaskNodeOutputs (rows : List ResolvedTask) : List (String × Json) :=
  rows.foldl
    (fun outputs row =>
      match humanTaskNodeOutput row.result with
      | some output => setOutput row.nodeId output outputs
      | none => outputs.filter (·.1 ≠ row.nodeId))
    []

/-! ## Drives in sequence -/

/-- The suspension the drive returned. -/
def Machine.suspension? (machine : Machine) : Option SuspendContext :=
  match machine.control with
  | .returned "suspend" => machine.state.suspendBox
  | _ => none

theorem suspension?_eq_some {machine : Machine} {context : SuspendContext}
    (suspended : machine.suspension? = some context) :
    machine.control = .returned "suspend" ∧ machine.state.suspendBox = some context := by
  unfold Machine.suspension? at suspended
  split at suspended
  · exact ⟨‹_›, suspended⟩
  · cases suspended

/-- A run goes on with a reply to its drive, or with the resume of a suspended drive,
which reads the page and the resolved tasks. -/
inductive RunInput where
  | reply (input : Input)
  | resume (pageState : PageState) (rows : List ResolvedTask)

/-- The drive that resumes a suspension. -/
@[simps]
def driveResumedRun (deps : Deps) (machine : Machine) (context : SuspendContext) (pageState : PageState)
    (rows : List ResolvedTask) : Machine :=
  { runScenario deps { nodeId := context.resumeNodeId, pageState } (some context.resumeNodeId)
      (loadResolvedHumanTaskNodeOutputs rows) with
    log := machine.log ++ [.started context.resumeNodeId] }

def runStep (deps : Deps) (machine : Machine) : RunInput → Machine
  | .reply input => step deps machine input
  | .resume pageState rows =>
    match machine.suspension? with
    | some context => driveResumedRun deps machine context pageState rows
    | none => machine

/-- The first drive of a run, before its first reply. -/
def claimedRun (deps : Deps) (pageState : PageState) : Machine :=
  runScenario deps { nodeId := deps.scenario.start, pageState }

section Runs

variable {deps : Deps} {machine : Machine} {ok : Machine → RunInput → Prop} {inv : Machine → Prop}

/-- A property that the moves of a drive and the resumes of suspended drives keep holds
throughout the run, if every input meets the condition. -/
theorem run_keeps
    (moves : ∀ {machine after : Machine} (input : Input), ok machine (.reply input) →
      step deps machine input = after → inv machine → Moves deps machine after → inv after)
    (resumes : ∀ {machine : Machine} {context : SuspendContext} (pageState : PageState)
      (rows : List ResolvedTask), ok machine (.resume pageState rows) →
      machine.suspension? = some context → inv machine →
      inv (driveResumedRun deps machine context pageState rows))
    {inputs : List RunInput} (meets : Along (runStep deps) ok machine inputs) (start : inv machine) :
    Throughout (runStep deps) inv machine inputs := by
  refine throughout_keeps ?_ meets start
  intro machine input allowed holds
  cases input with
  | reply input =>
    rcases step_moves deps machine input with same | moved
    · rwa [runStep, same]
    · exact moves input allowed rfl holds moved
  | resume pageState rows =>
    cases suspended : machine.suspension? with
    | none => simpa [runStep, suspended] using holds
    | some context => simpa [runStep, suspended] using resumes pageState rows allowed suspended holds

end Runs

end RpaEnterprise.Interpreter
