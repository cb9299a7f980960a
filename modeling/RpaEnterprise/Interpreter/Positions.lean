import Mathlib.Logic.Relation
import RpaEnterprise.Interpreter.Runs

/-!
# Where a traversal is

A traversal goes from node to node along the flows of the scenario, and a fallback
starts the traversals of its tiers.  What a drive can still come to is reachable from
its node or from the node of a fallback it is inside.
-/

namespace RpaEnterprise.Interpreter

open Lib Relation
open Ir (endNoDataTarget)
open Executor (PageState)

/-- The nodes a traversal can come to from a node.  A handler hands over to a person
and has no target in the same drive. -/
def NodeFlow.targets : NodeFlow → List NodeId
  | .terminal _ => []
  | .next target => [target]
  | .on branches => branches.map OnBranch.target
  | .loop _ bodyTarget exitTarget _ => [bodyTarget, exitTarget]
  | .fallback tiers => tiers.map Ir.CompiledFallbackTier.entryNode
  | .reservedHandler .. => []

def ScenarioEdge (scenario : CompiledScenario) (nodeId target : NodeId) : Prop :=
  ∃ node, scenario.node nodeId = some node ∧ target ∈ node.flow.targets

/-- A drive that started at a node and has followed the edges of its scenario. -/
structure Placed (scenario : CompiledScenario) (start : NodeId) (machine : Machine) : Prop where
  starting : ∀ target, machine.control = .entering none target → target = start ∧ machine.nodeId = target
  entering : ∀ nodeId target, machine.control = .entering (some nodeId) target →
    machine.nodeId = nodeId ∧ ScenarioEdge scenario nodeId target
  unknown : ∀ target, machine.control = .threw (.unknownNode target) →
    target ≠ endNoDataTarget ∧ scenario.node target = none ∧
      (target = start ∨ ∃ nodeId, ScenarioEdge scenario nodeId target)
  tiers : ∀ frame ∈ machine.frames, ∀ tier ∈ frame.tier :: frame.rest,
    ScenarioEdge scenario frame.nodeId tier.entryNode
  visits : ∀ nodeId target, .visited (some nodeId) target ∈ machine.log →
    target ≠ endNoDataTarget ∧ ScenarioEdge scenario nodeId target

section Placed

variable {deps : Deps} {start : NodeId} {machine after : Machine}

/-- A step that goes to no node and adds no visit. -/
theorem Placed.kept (placed : Placed deps.scenario start machine)
    (stays : ∀ cameFrom target, after.control ≠ .entering cameFrom target)
    (known : ∀ target, after.control ≠ .threw (.unknownNode target))
    (frames : ∀ frame ∈ after.frames, frame ∈ machine.frames)
    (visits : ∀ cameFrom target, .visited cameFrom target ∈ after.log → .visited cameFrom target ∈ machine.log) :
    Placed deps.scenario start after where
  starting := fun target entering => absurd entering (stays none target)
  entering := fun nodeId target entering => absurd entering (stays (some nodeId) target)
  unknown := fun target threw => absurd threw (known target)
  tiers := fun frame member => placed.tiers frame (frames frame member)
  visits := fun nodeId target member => placed.visits nodeId target (visits (some nodeId) target member)

/-- A step along a flow of the current node. -/
theorem Placed.left (placed : Placed deps.scenario start machine) {node : ScenarioNode} (target : NodeId)
    (found : deps.scenario.node machine.nodeId = some node) (isTarget : target ∈ node.flow.targets)
    (control : after.control = .entering (some machine.nodeId) target) (sameNode : after.nodeId = machine.nodeId)
    (frames : after.frames = machine.frames)
    (visits : ∀ cameFrom target, .visited cameFrom target ∈ after.log → .visited cameFrom target ∈ machine.log) :
    Placed deps.scenario start after where
  starting := by simp [control]
  entering := by
    intro nodeId other entering
    rw [control] at entering
    cases entering
    exact ⟨sameNode, node, found, isTarget⟩
  unknown := by simp [control]
  tiers := frames ▸ placed.tiers
  visits := fun nodeId target member => placed.visits nodeId target (visits (some nodeId) target member)

/-- The first node of a tier. -/
theorem Placed.startedTier (placed : Placed deps.scenario start machine) {frame : Frame} {outer : List Frame}
    (edges : ∀ tier ∈ frame.tier :: frame.rest, ScenarioEdge deps.scenario frame.nodeId tier.entryNode)
    (inside : ∀ other ∈ outer, other ∈ machine.frames) :
    Placed deps.scenario start (machine.startTier frame outer) where
  starting := by simp
  entering := by
    intro nodeId other entering
    rw [Machine.startTier_control] at entering
    cases entering
    exact ⟨rfl, edges frame.tier List.mem_cons_self⟩
  unknown := by simp
  tiers := by
    intro other member
    rcases List.mem_cons.mp member with rfl | outside
    · exact edges
    · exact placed.tiers other (inside other outside)
  visits := by simpa using placed.visits

theorem Placed.nextTier (placed : Placed deps.scenario start machine) {frame : Frame} {outer : List Frame}
    {next : Ir.CompiledFallbackTier} {later : List Ir.CompiledFallbackTier}
    (inside : machine.frames = frame :: outer) (more : frame.rest = next :: later) :
    Placed deps.scenario start (machine.startTier { frame with tier := next, rest := later } outer) := by
  refine placed.startedTier ?_ (by simp +contextual [inside])
  have edges := placed.tiers frame (by simp [inside])
  rw [more] at edges
  exact fun tier member => edges tier (List.mem_cons_of_mem _ member)

theorem ne_unknownNode {thrown : Thrown} (known : thrown.isUnknownNode = false) (nodeId : NodeId) :
    thrown ≠ .unknownNode nodeId := by
  rintro rfl
  cases known

theorem Placed.moves (placed : Placed deps.scenario start machine) (moves : Moves deps machine after) :
    Placed deps.scenario start after := by
  cases moves with
  | unknown cameFrom target control isNode missing =>
    refine ⟨by simp, by simp, ?_, placed.tiers, placed.visits⟩
    rintro _ ⟨⟩
    refine ⟨isNode, missing, ?_⟩
    cases cameFrom with
    | none => exact .inl (placed.starting target control).1
    | some nodeId => exact .inr ⟨nodeId, (placed.entering nodeId target control).2⟩
  | visited cameFrom target control isNode found affords =>
    refine ⟨by simp, by simp, by simp, by simpa using placed.tiers, ?_⟩
    intro nodeId other member
    rw [Machine.visit_log, List.mem_append, List.mem_singleton] at member
    rcases member with before | here
    · exact placed.visits nodeId other before
    · cases here
      exact ⟨isNode, (placed.entering nodeId target control).2⟩
  | next node lastResult target control found flow =>
    refine placed.left target found ?_ ?_ ?_ ?_ ?_ <;> simp [flow, NodeFlow.targets]
  | fallback node lastResult tier rest control found flow =>
    refine placed.startedTier ?_ (fun _ member => member)
    exact fun one member => ⟨node, found, by rw [flow]; exact List.mem_map_of_mem member⟩
  | exited node until_ bodyTarget exitTarget maxIterations pageState scope control found flow =>
    refine placed.left exitTarget found ?_ ?_ ?_ ?_ ?_ <;> simp [flow, NodeFlow.targets]
  | looped node until_ bodyTarget exitTarget maxIterations pageState scope control found flow =>
    refine placed.left bodyTarget found ?_ ?_ ?_ ?_ ?_ <;> simp [flow, NodeFlow.targets]
  | branched node branches branch pageState scope control found flow member =>
    refine placed.left branch.target found ?_ ?_ ?_ ?_ ?_
    · rw [flow]
      exact List.mem_map_of_mem member
    all_goals simp
  | advanced terminal frame outer next later control inside more => exact placed.nextTier inside more
  | advancedWhen terminal frame outer next later scope control inside more =>
    have evaluated : Placed deps.scenario start (machine.evaluating frame.nodeId scope) := by
      refine placed.kept ?_ ?_ ?_ ?_ <;> simp [control]
    exact evaluated.nextTier inside more
  | acted node attempt index control found done after goesOn =>
    rcases goesOn with ⟨criterion, rest, rfl⟩ | rfl <;> refine placed.kept ?_ ?_ ?_ ?_ <;> simp
  | threw thrown known
  | undecided ctx nodeId scope thrown sees known
  | unsupported attempt index action result thrown control known =>
    refine placed.kept ?_ ?_ ?_ ?_ <;> simp [ne_unknownNode known]
  | adopted terminal frame outer control inside
  | adoptedWhen terminal frame outer scope control inside =>
    refine placed.kept ?_ ?_ ?_ ?_ <;> simp +contextual [inside]
  | _ => refine placed.kept ?_ ?_ ?_ ?_ <;> simp

theorem placed_runScenario (deps : Deps) (initialCtx : RunContext) (startNode : Option NodeId)
    (resumeNodeOutputs : List (String × Json)) :
    Placed deps.scenario (startNode.getD deps.scenario.start)
      (runScenario deps initialCtx startNode resumeNodeOutputs) := by
  refine ⟨?_, ?_, ?_, ?_, ?_⟩ <;> simp [runScenario]

theorem placed_drive (deps : Deps) (initialCtx : RunContext) (startNode : Option NodeId)
    (resumeNodeOutputs : List (String × Json)) (inputs : List Input) :
    Placed deps.scenario (startNode.getD deps.scenario.start)
      (drive deps initialCtx startNode resumeNodeOutputs inputs) :=
  drive_invariant Placed.moves (placed_runScenario deps initialCtx startNode resumeNodeOutputs) inputs

theorem Placed.resumed (placed : Placed deps.scenario start machine) (context : SuspendContext)
    (pageState : PageState) (rows : List ResolvedTask) :
    Placed deps.scenario context.resumeNodeId (driveResumedRun deps machine context pageState rows) := by
  refine ⟨?_, ?_, ?_, ?_, ?_⟩
  · simp [runScenario]
  · simp [runScenario]
  · simp [runScenario]
  · simp [runScenario]
  · simpa using placed.visits

end Placed

/-! ## What is ahead -/

/-- A drive that is at the first node can come to the second. -/
def Reaches (scenario : CompiledScenario) : NodeId → NodeId → Prop := ReflTransGen (ScenarioEdge scenario)

/-- The node can be reached by the traversal, or by a fallback it is inside. -/
def Ahead (scenario : CompiledScenario) (machine : Machine) (nodeId : NodeId) : Prop :=
  Reaches scenario machine.nodeId nodeId ∨ ∃ frame ∈ machine.frames, Reaches scenario frame.nodeId nodeId

section Ahead

variable {deps : Deps} {start : NodeId} {machine after : Machine} {nodeId : NodeId}

theorem Ahead.here : Ahead deps.scenario machine machine.nodeId := .inl .refl

theorem Ahead.frame {frame : Frame} (member : frame ∈ machine.frames) :
    Ahead deps.scenario machine frame.nodeId := .inr ⟨frame, member, .refl⟩

theorem Ahead.trans {target : NodeId} (ahead : Ahead deps.scenario machine nodeId)
    (reaches : Reaches deps.scenario nodeId target) : Ahead deps.scenario machine target := by
  rcases ahead with here | ⟨frame, member, inside⟩
  · exact .inl (here.trans reaches)
  · exact .inr ⟨frame, member, inside.trans reaches⟩

/-- The node and the frames of the next state were ahead. -/
theorem Placed.places (placed : Placed deps.scenario start machine) (moves : Moves deps machine after) :
    Ahead deps.scenario machine after.nodeId ∧
      ∀ frame ∈ after.frames, Ahead deps.scenario machine frame.nodeId := by
  cases moves with
  | visited cameFrom target control =>
    refine ⟨?_, fun frame member => .frame member⟩
    cases cameFrom with
    | none =>
      obtain ⟨-, same⟩ := placed.starting target control
      exact same ▸ Ahead.here
    | some nodeId =>
      obtain ⟨rfl, edge⟩ := placed.entering nodeId target control
      exact .inl (.single edge)
  | fallback node lastResult tier rest =>
    refine ⟨.here, fun frame member => ?_⟩
    rcases List.mem_cons.mp member with rfl | outside
    · exact .here
    · exact .frame outside
  | adopted terminal frame outer control inside
  | adoptedWhen terminal frame outer scope control inside =>
    exact ⟨.here, fun other member => .frame (by simp_all)⟩
  | advanced terminal frame outer next later control inside
  | advancedWhen terminal frame outer next later scope control inside =>
    have among : Ahead deps.scenario machine frame.nodeId := .frame (by simp [inside])
    refine ⟨among, fun other member => ?_⟩
    rcases List.mem_cons.mp member with rfl | outside
    · exact among
    · exact .frame (by simp [inside, outside])
  | _ => exact ⟨.here, fun frame member => .frame member⟩

/-- Nothing comes to be ahead that was not ahead before. -/
theorem Placed.ahead (placed : Placed deps.scenario start machine) (moves : Moves deps machine after)
    (ahead : Ahead deps.scenario after nodeId) : Ahead deps.scenario machine nodeId := by
  obtain ⟨here, frames⟩ := placed.places moves
  rcases ahead with reaches | ⟨frame, member, reaches⟩
  · exact here.trans reaches
  · exact (frames frame member).trans reaches

end Ahead

end RpaEnterprise.Interpreter
