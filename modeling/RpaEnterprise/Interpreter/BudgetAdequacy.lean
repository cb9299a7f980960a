import Mathlib.Algebra.BigOperators.Ring.Finset
import Mathlib.Algebra.BigOperators.Ring.List
import Mathlib.Algebra.Order.BigOperators.Group.List
import Mathlib.Algebra.Order.Group.Nat
import Mathlib.Data.List.Nodup
import RpaEnterprise.Interpreter.StepBudget
import RpaEnterprise.Lib.Rounds

/-!
# The default budget is enough

The default budget is two hundred and, for every loop, `max_iterations` times the number of
nodes.  Between two body edges a drive follows the other edges, so that it comes to
no node twice where these have no cycle; and where loops are not nested, each of them
goes round at most `max_iterations` times in the whole drive.
-/

namespace RpaEnterprise.Interpreter

open Lib Ir Irel Relation
open Executor (PageState)

/-! ## Edges -/

/-- The targets of a flow without the body of a loop. -/
def NodeFlow.forwardTargets : NodeFlow → List NodeId
  | .loop _ _ exitTarget _ => [exitTarget]
  | flow => flow.targets

def ForwardEdge (scenario : CompiledScenario) (nodeId target : NodeId) : Prop :=
  ∃ node, scenario.node nodeId = some node ∧ target ∈ node.flow.forwardTargets

/-- The edge of a loop to its body. -/
def BodyEdge (scenario : CompiledScenario) (nodeId target : NodeId) : Prop :=
  ∃ node until_ exitTarget maxIterations, scenario.node nodeId = some node ∧
    node.flow = .loop until_ target exitTarget maxIterations

/-- Without their body edges the nodes make no cycle, and no loop is reached from the
body of another one before that other one is passed. -/
def LoopsApart (scenario : CompiledScenario) : Prop :=
  Separate (ForwardEdge scenario) (BodyEdge scenario)

theorem scenarioEdge_iff {scenario : CompiledScenario} {nodeId target : NodeId} :
    ScenarioEdge scenario nodeId target ↔ Walks (ForwardEdge scenario) (BodyEdge scenario) nodeId target := by
  constructor
  · rintro ⟨node, found, isTarget⟩
    cases flow : node.flow with
    | loop until_ bodyTarget exitTarget maxIterations =>
      simp only [flow, NodeFlow.targets, List.mem_cons, List.not_mem_nil, or_false] at isTarget
      rcases isTarget with rfl | rfl
      · exact .inr ⟨node, until_, exitTarget, maxIterations, found, flow⟩
      · exact .inl ⟨node, found, by simp [flow, NodeFlow.forwardTargets]⟩
    | _ => exact .inl ⟨node, found, by simpa [flow, NodeFlow.forwardTargets] using isTarget⟩
  · rintro (⟨node, found, isTarget⟩ | ⟨node, until_, exitTarget, maxIterations, found, flow⟩)
    · refine ⟨node, found, ?_⟩
      cases flow : node.flow with
      | loop until_ bodyTarget exitTarget maxIterations =>
        simp only [flow, NodeFlow.forwardTargets, List.mem_singleton] at isTarget
        simp [NodeFlow.targets, isTarget]
      | _ => simpa [flow, NodeFlow.forwardTargets] using isTarget
    · exact ⟨node, found, by simp [flow, NodeFlow.targets]⟩

theorem reaches_eq (scenario : CompiledScenario) :
    Reaches scenario = ReflTransGen (Walks (ForwardEdge scenario) (BodyEdge scenario)) := by
  unfold Reaches
  congr
  funext nodeId target
  exact propext scenarioEdge_iff

/-! ## Turns and strides -/

def Event.turns (nodeId : NodeId) : Event → Bool
  | .looped other => other = nodeId
  | _ => false

/-- How often a loop has gone round in the drive. -/
def turns (nodeId : NodeId) (log : List Event) : Nat := log.countP (Event.turns nodeId)

def strideAfter (stride : List NodeId) : Event → List NodeId
  | .looped _ => []
  | .visited _ nodeId => stride ++ [nodeId]
  | _ => stride

/-- The nodes visited since the last body edge. -/
def stride (log : List Event) : List NodeId := log.foldl strideAfter []

@[simp]
theorem turns_append (nodeId : NodeId) (log events : List Event) :
    turns nodeId (log ++ events) = turns nodeId log + events.countP (Event.turns nodeId) :=
  List.countP_append

@[simp]
theorem stride_append (log events : List Event) :
    stride (log ++ events) = events.foldl strideAfter (stride log) :=
  List.foldl_append

/-- The node a drive is at or goes to. -/
def Machine.position (machine : Machine) : NodeId :=
  match machine.control with
  | .entering _ target => target
  | _ => machine.nodeId

/-- The drive is at a node of its stride, or goes on from it. -/
def Control.follows (scenario : CompiledScenario) (nodeId : NodeId) (stride : List NodeId) : Control → Prop
  | .entering _ target => ∀ earlier ∈ stride, TransGen (ForwardEdge scenario) earlier target
  | _ => ∀ earlier ∈ stride, ReflTransGen (ForwardEdge scenario) earlier nodeId

def Control.over : Control → Bool
  | .returning _ | .returned _ | .threw _ => true
  | _ => false

/-- All turns of all loops. -/
def allTurns (scenario : CompiledScenario) (log : List Event) : Nat :=
  (scenario.ownNodes.map fun entry => turns entry.1 log).sum

/-- A drive under way that has not fallen back. -/
structure Striding (deps : Deps) (machine : Machine) : Prop where
  counted : ∀ nodeId, Reaches deps.scenario machine.position nodeId →
    turns nodeId machine.log = (machine.state.loopState nodeId).getD 0
  bounded : ∀ nodeId, (turns nodeId machine.log : Rat) ≤ maxIterationsOf deps.scenario nodeId
  distinct : (stride machine.log).Nodup
  nodes : ∀ nodeId ∈ stride machine.log, nodeId ∈ deps.scenario.nodes.map Prod.fst
  follows : machine.control.follows deps.scenario machine.nodeId (stride machine.log)
  visits : machine.state.visited.length ≤
    allTurns deps.scenario machine.log * deps.scenario.ownNodes.length + (stride machine.log).length
  paid : machine.state.budget = stepLimit deps - machine.state.visited.length

/-- The scenarios of this module: the ids are distinct, the bounds are natural numbers, there
are neither fallbacks nor verifications, and a loop is an own node whose exit is a node. -/
structure Plain (scenario : CompiledScenario) : Prop where
  distinct : (scenario.nodes.map Prod.fst).Nodup
  whole : WholeBounds scenario
  apart : LoopsApart scenario
  noFallback : ∀ nodeId node tiers, scenario.node nodeId = some node → node.flow ≠ .fallback tiers
  noVerify : ∀ nodeId node, scenario.node nodeId = some node → node.verify = none
  loops : ∀ nodeId node until_ bodyTarget exitTarget maxIterations, scenario.node nodeId = some node →
    node.flow = .loop until_ bodyTarget exitTarget maxIterations →
    nodeId ≠ "__proto__" ∧ exitTarget ∈ scenario.nodes.map Prod.fst

section Strides

variable {deps : Deps} {machine after : Machine}

theorem position_eq (inside : ∀ cameFrom target, machine.control ≠ .entering cameFrom target) :
    machine.position = machine.nodeId := by
  unfold Machine.position
  split
  · rename_i entering
    exact absurd entering (inside _ _)
  · rfl

theorem follows_iff {control : Control} {scenario : CompiledScenario} {nodeId : NodeId} {stride : List NodeId}
    (inside : ∀ cameFrom target, control ≠ .entering cameFrom target) :
    control.follows scenario nodeId stride ↔
      ∀ earlier ∈ stride, ReflTransGen (ForwardEdge scenario) earlier nodeId := by
  unfold Control.follows
  split
  · rename_i entering
    exact absurd rfl (inside _ _)
  · rfl

/-- No node is visited. -/
structure Unvisited (machine after : Machine) : Prop where
  visited : after.state.visited = machine.state.visited
  budget : after.state.budget = machine.state.budget
  turns : ∀ nodeId, turns nodeId after.log = turns nodeId machine.log
  stride : stride after.log = stride machine.log

theorem Striding.unvisited (striding : Striding deps machine)
    (counted : ∀ nodeId, Reaches deps.scenario after.position nodeId →
      turns nodeId machine.log = (after.state.loopState nodeId).getD 0)
    (follows : after.control.follows deps.scenario after.nodeId (stride machine.log))
    (unvisited : Unvisited machine after) : Striding deps after where
  counted := fun nodeId reaches => (unvisited.turns nodeId).trans (counted nodeId reaches)
  bounded := fun nodeId => (unvisited.turns nodeId).symm ▸ striding.bounded nodeId
  distinct := unvisited.stride ▸ striding.distinct
  nodes := unvisited.stride ▸ striding.nodes
  follows := unvisited.stride ▸ follows
  visits := by
    have all : allTurns deps.scenario after.log = allTurns deps.scenario machine.log := by
      simp [allTurns, unvisited.turns]
    rw [unvisited.visited, all, unvisited.stride]
    exact striding.visits
  paid := by
    rw [unvisited.visited, unvisited.budget]
    exact striding.paid

/-- A step at a node. -/
theorem Striding.kept (striding : Striding deps machine)
    (before : ∀ cameFrom target, machine.control ≠ .entering cameFrom target)
    (still : ∀ cameFrom target, after.control ≠ .entering cameFrom target)
    (sameNode : after.nodeId = machine.nodeId)
    (loopState : after.state.loopState = machine.state.loopState)
    (unvisited : Unvisited machine after) : Striding deps after := by
  refine striding.unvisited ?_ ?_ unvisited
  · rw [position_eq still, sameNode, ← position_eq before, loopState]
    exact striding.counted
  · rw [follows_iff still, sameNode]
    exact (follows_iff before).mp striding.follows

/-- The next node of the stride is a new one. -/
theorem Striding.visit (plain : Plain deps.scenario) (striding : Striding deps machine) {cameFrom : Option NodeId}
    {target : NodeId} (control : machine.control = .entering cameFrom target)
    (found : (deps.scenario.node target).isSome) : Striding deps (machine.visit cameFrom target) := by
  have follows : ∀ earlier ∈ stride machine.log, TransGen (ForwardEdge deps.scenario) earlier target := by
    simpa [Control.follows, control] using striding.follows
  have sameTurns : ∀ nodeId, turns nodeId (machine.visit cameFrom target).log = turns nodeId machine.log := by
    simp [Event.turns]
  have longer : stride (machine.visit cameFrom target).log = stride machine.log ++ [target] := by
    simp [strideAfter]
  refine ⟨?_, ?_, ?_, ?_, ?_, ?_, ?_⟩
  · intro nodeId reaches
    rw [sameTurns]
    refine striding.counted nodeId ?_
    simpa [Machine.position, control] using reaches
  · exact fun nodeId => (sameTurns nodeId).symm ▸ striding.bounded nodeId
  · rw [longer, List.nodup_append]
    refine ⟨striding.distinct, List.nodup_singleton target, ?_⟩
    rintro earlier listed _ isTarget rfl
    rw [List.mem_singleton] at isTarget
    exact plain.apart.acyclic target (isTarget ▸ follows earlier listed)
  · rw [longer]
    intro nodeId listed
    rcases List.mem_append.mp listed with earlier | last
    · exact striding.nodes nodeId earlier
    · rw [List.mem_singleton.mp last]
      exact isSome_lookup_iff.mp found
  · rw [follows_iff (by simp), longer]
    intro earlier listed
    rcases List.mem_append.mp listed with earlier | last
    · exact (follows _ earlier).to_reflTransGen
    · exact List.mem_singleton.mp last ▸ .refl
  · have all : allTurns deps.scenario (machine.visit cameFrom target).log =
        allTurns deps.scenario machine.log := by
      simp only [allTurns, sameTurns]
    rw [longer, all, Machine.visit_state_visited, List.length_append, List.length_append]
    exact Nat.add_le_add_right striding.visits 1
  · simp [striding.paid]
    ring

/-- The counters of the loops behind an edge are right. -/
theorem Striding.counted_ahead (striding : Striding deps machine)
    (before : ∀ cameFrom target, machine.control ≠ .entering cameFrom target) {target nodeId : NodeId}
    (edge : ScenarioEdge deps.scenario machine.nodeId target) (reaches : Reaches deps.scenario target nodeId) :
    turns nodeId machine.log = (machine.state.loopState nodeId).getD 0 := by
  refine striding.counted nodeId ?_
  rw [position_eq before]
  exact .head edge reaches

/-- A step along a forward edge of the current node. -/
theorem Striding.left (striding : Striding deps machine)
    (before : ∀ cameFrom target, machine.control ≠ .entering cameFrom target) {target : NodeId}
    (edge : ForwardEdge deps.scenario machine.nodeId target)
    (control : after.control = .entering (some machine.nodeId) target)
    (counted : ∀ nodeId, Reaches deps.scenario target nodeId →
      turns nodeId machine.log = (after.state.loopState nodeId).getD 0)
    (unvisited : Unvisited machine after) : Striding deps after := by
  refine striding.unvisited (fun nodeId reaches => ?_) ?_ unvisited
  · exact counted nodeId (by simpa [Machine.position, control] using reaches)
  · rw [control]
    intro earlier listed
    exact TransGen.tail' ((follows_iff before).mp striding.follows earlier listed) edge

theorem length_nodes_le (distinct : (deps.scenario.nodes.map Prod.fst).Nodup) :
    deps.scenario.nodes.length ≤ deps.scenario.ownNodes.length + 1 := by
  have once := List.nodup_iff_count_le_one.mp distinct "__proto__"
  have split := @List.length_eq_countP_add_countP _ (fun entry : NodeId × ScenarioNode => entry.1 ≠ "__proto__")
    deps.scenario.nodes
  rw [List.count, List.countP_map] at once
  rw [CompiledScenario.ownNodes, ← List.countP_eq_length_filter, split]
  refine Nat.add_le_add_left (le_trans (List.countP_mono_left fun entry _ proto => ?_) once) _
  simpa using proto

/-- A stride up to a loop leaves out the exit of the loop. -/
theorem Striding.length_stride_le (plain : Plain deps.scenario) (striding : Striding deps machine)
    (before : ∀ cameFrom target, machine.control ≠ .entering cameFrom target) {exitTarget : NodeId}
    (exits : ForwardEdge deps.scenario machine.nodeId exitTarget)
    (known : exitTarget ∈ deps.scenario.nodes.map Prod.fst) :
    (stride machine.log).length ≤ deps.scenario.ownNodes.length := by
  have follows := (follows_iff before).mp striding.follows
  have outside : exitTarget ∉ stride machine.log := fun listed =>
    plain.apart.acyclic machine.nodeId (TransGen.head' exits (follows exitTarget listed))
  have distinct : (exitTarget :: stride machine.log).Nodup := List.nodup_cons.mpr ⟨outside, striding.distinct⟩
  have within := (List.subperm_of_subset distinct (List.cons_subset.mpr ⟨known, striding.nodes⟩)).length_le
  have total := length_nodes_le plain.distinct
  rw [List.length_cons, List.length_map] at within
  omega

theorem allTurns_lt (plain : Plain deps.scenario) {nodeId : NodeId} {node : ScenarioNode} {log longer : List Event}
    (found : deps.scenario.node nodeId = some node) (own : nodeId ≠ "__proto__")
    (more : ∀ other, turns other longer = if other = nodeId then turns other log + 1 else turns other log) :
    allTurns deps.scenario log < allTurns deps.scenario longer := by
  have listed : (nodeId, node) ∈ deps.scenario.ownNodes :=
    List.mem_filter.mpr ⟨(lookup_of_mem_distinct plain.distinct).mp found, by simpa using own⟩
  refine List.sum_lt_sum _ _ (fun entry _ => ?_) ⟨(nodeId, node), listed, ?_⟩
  · rw [more]
    split <;> omega
  · simp [more]

/-- The loop at the current node goes round. -/
theorem Striding.turned (plain : Plain deps.scenario) (striding : Striding deps machine)
    (before : ∀ cameFrom target, machine.control ≠ .entering cameFrom target) {node : ScenarioNode}
    {until_ : IrelNode} {bodyTarget exitTarget : NodeId} {maxIterations : Rat}
    (found : deps.scenario.node machine.nodeId = some node)
    (flow : node.flow = .loop until_ bodyTarget exitTarget maxIterations)
    (below : ((machine.state.loopState machine.nodeId).getD 0 : Rat) < maxIterations)
    (control : after.control = .entering (some machine.nodeId) bodyTarget)
    (loopState : after.state.loopState = Function.update machine.state.loopState machine.nodeId
      (some ((machine.state.loopState machine.nodeId).getD 0 + 1)))
    (visited : after.state.visited = machine.state.visited)
    (budget : after.state.budget = machine.state.budget)
    (more : ∀ other, turns other after.log =
      if other = machine.nodeId then turns other machine.log + 1 else turns other machine.log)
    (noStride : stride after.log = []) : Striding deps after := by
  obtain ⟨own, known⟩ := plain.loops _ _ _ _ _ _ found flow
  have exits : ForwardEdge deps.scenario machine.nodeId exitTarget :=
    ⟨node, found, by simp [flow, NodeFlow.forwardTargets]⟩
  have here : turns machine.nodeId machine.log = (machine.state.loopState machine.nodeId).getD 0 :=
    striding.counted machine.nodeId (position_eq before ▸ .refl)
  refine ⟨?_, ?_, ?_, ?_, ?_, ?_, ?_⟩
  · intro nodeId reaches
    rw [more, loopState]
    by_cases same : nodeId = machine.nodeId
    · rw [if_pos same, same, Function.update_self, here]
      rfl
    · rw [if_neg same, Function.update_of_ne same]
      refine striding.counted_ahead before ⟨node, found, ?_⟩ (by simpa [Machine.position, control] using reaches)
      simp [flow, NodeFlow.targets]
  · intro nodeId
    rw [more]
    by_cases same : nodeId = machine.nodeId
    · obtain ⟨count, whole⟩ := plain.whole machine.nodeId
      rw [← maxIterationsOf_loop found flow, whole, ← here, Nat.cast_lt] at below
      rw [if_pos same, same, whole, Nat.cast_le]
      exact below
    · rw [if_neg same]
      exact striding.bounded nodeId
  · simp [noStride]
  · simp [noStride]
  · simp [control, Control.follows, noStride]
  · have turned := allTurns_lt plain found own more
    have short := striding.length_stride_le plain before exits known
    rw [visited, noStride]
    calc machine.state.visited.length
        ≤ allTurns deps.scenario machine.log * deps.scenario.ownNodes.length +
            (stride machine.log).length := striding.visits
      _ ≤ (allTurns deps.scenario machine.log + 1) * deps.scenario.ownNodes.length := by
          rw [Nat.add_mul, Nat.one_mul]
          exact Nat.add_le_add_left short _
      _ ≤ allTurns deps.scenario after.log * deps.scenario.ownNodes.length := Nat.mul_le_mul_right _ turned
  · rw [visited, budget]
    exact striding.paid

/-- A drive that is over or strides on, in no tier. -/
structure Runs (deps : Deps) (machine : Machine) : Prop where
  poised : machine.Poised deps
  outermost : machine.frames = []
  strides : machine.control.over = true ∨ Striding deps machine

/-- The part of a move that is about strides. -/
theorem Runs.strides_moves (plain : Plain deps.scenario) (runs : Runs deps machine) (moves : Moves deps machine after) :
    after.frames = [] ∧ (after.control.over = true ∨ Striding deps after) := by
  have alive : machine.control.over = false → Striding deps machine :=
    fun live => runs.strides.resolve_left (by simp [live])
  cases moves with
  | visited cameFrom target control isNode found affords =>
    exact ⟨runs.outermost, .inr ((alive (by rw [control]; rfl)).visit plain control found)⟩
  | healed attempt criterion rest control harmless =>
    have poised := runs.poised
    simp only [Machine.Poised, control] at poised
    obtain ⟨node, verify, found, verifies⟩ := poised
    rw [plain.noVerify _ _ found] at verifies
    cases verifies
  | fallback node lastResult tier rest control found flow =>
    exact absurd flow (plain.noFallback _ _ _ found)
  | next node lastResult target control found flow =>
    have striding := alive (by rw [control]; rfl)
    have before : ∀ cameFrom target, machine.control ≠ .entering cameFrom target := by simp [control]
    have edge : ForwardEdge deps.scenario machine.nodeId target :=
      ⟨node, found, by simp [flow, NodeFlow.forwardTargets, NodeFlow.targets]⟩
    refine ⟨runs.outermost, .inr (striding.left before edge rfl ?_ ⟨rfl, rfl, ?_, ?_⟩)⟩
    · exact fun nodeId reaches => striding.counted_ahead before (scenarioEdge_iff.mpr (.inl edge)) reaches
    · simp [Event.turns]
    · simp [strideAfter]
  | branched node branches branch pageState scope control found flow member sees =>
    have striding := alive (by rw [control]; rfl)
    have before : ∀ cameFrom target, machine.control ≠ .entering cameFrom target := by simp [control]
    have edge : ForwardEdge deps.scenario machine.nodeId branch.target :=
      ⟨node, found, by rw [flow]; exact List.mem_map_of_mem member⟩
    refine ⟨runs.outermost, .inr (striding.left before edge rfl ?_ ⟨rfl, rfl, ?_, ?_⟩)⟩
    · exact fun nodeId reaches => striding.counted_ahead before (scenarioEdge_iff.mpr (.inl edge)) reaches
    · simp [Event.turns]
    · simp [strideAfter]
  | exited node until_ bodyTarget exitTarget maxIterations pageState scope control found flow sees =>
    have striding := alive (by rw [control]; rfl)
    have before : ∀ cameFrom target, machine.control ≠ .entering cameFrom target := by simp [control]
    have edge : ForwardEdge deps.scenario machine.nodeId exitTarget :=
      ⟨node, found, by simp [flow, NodeFlow.forwardTargets]⟩
    have isLoop : BodyEdge deps.scenario machine.nodeId bodyTarget :=
      ⟨node, until_, exitTarget, maxIterations, found, flow⟩
    refine ⟨runs.outermost, .inr (striding.left before edge rfl ?_ ⟨rfl, rfl, ?_, ?_⟩)⟩
    · intro nodeId reaches
      have other : nodeId ≠ machine.nodeId := by
        rintro rfl
        rw [reaches_eq] at reaches
        exact plain.apart.not_reaches_of_exit isLoop edge reaches
      simp only [Machine.leave_state, Machine.setLoopState_state_loopState, Function.update_of_ne other]
      exact striding.counted_ahead before (scenarioEdge_iff.mpr (.inl edge)) reaches
    · simp [Event.turns]
    · simp [strideAfter]
  | looped node until_ bodyTarget exitTarget maxIterations pageState scope control found flow sees below =>
    have striding := alive (by rw [control]; rfl)
    have before : ∀ cameFrom target, machine.control ≠ .entering cameFrom target := by simp [control]
    refine ⟨runs.outermost, .inr (striding.turned plain before found flow below rfl rfl rfl rfl ?_ ?_)⟩
    · intro other
      by_cases same : machine.nodeId = other
      · simp [Event.turns, same]
      · simp [Event.turns, same, Ne.symm same]
    · simp [strideAfter]
  | adopted terminal frame outer control inside
  | adoptedWhen terminal frame outer scope control inside
  | advanced terminal frame outer next later control inside
  | advancedWhen terminal frame outer next later scope control inside
  | askedAdvance terminal frame outer control inside =>
    rw [runs.outermost] at inside
    cases inside
  | began control
  | dispatched _ _ _ _ _ control
  | succeeded _ _ _ _ control
  | verifiedOne _ _ _ _ control
  | verifiedAll _ _ control
  | asked _ control =>
    refine ⟨runs.outermost, .inr ((alive (by rw [control]; rfl)).kept ?_ ?_ rfl rfl ⟨rfl, rfl, ?_, ?_⟩)⟩ <;>
      simp [control, Event.turns, strideAfter]
  | acted node attempt index control found done after goesOn =>
    refine ⟨runs.outermost, .inr ((alive (by rw [control]; rfl)).kept ?_ ?_ rfl rfl ⟨rfl, rfl, ?_, ?_⟩)⟩
    · simp [control]
    · rcases goesOn with ⟨criterion, rest, rfl⟩ | rfl <;> simp
    · simp
    · simp
  | _ => exact ⟨runs.outermost, .inl rfl⟩

theorem Runs.step (plain : Plain deps.scenario) (runs : Runs deps machine) (input : Input) :
    Runs deps (step deps machine input) := by
  by_cases awaits : machine.Awaits input
  · have poised := (step_descends runs.poised awaits).poised
    rcases step_moves deps machine input with same | moves
    · rwa [same]
    · obtain ⟨outermost, strides⟩ := runs.strides_moves plain moves
      exact ⟨poised, outermost, strides⟩
  · rwa [step_eq_self awaits]

theorem runs_runScenario (plain : Plain deps.scenario) (initialCtx : RunContext) (startNode : Option NodeId)
    (resumeNodeOutputs : List (String × Json)) :
    Runs deps (runScenario deps initialCtx startNode resumeNodeOutputs) where
  poised := trivial
  outermost := rfl
  strides := by
    refine .inr ⟨?_, ?_, ?_, ?_, ?_, ?_, ?_⟩
    · exact fun nodeId _ => rfl
    · intro nodeId
      obtain ⟨count, whole⟩ := plain.whole nodeId
      rw [whole]
      exact Nat.cast_le.mpr (Nat.zero_le count)
    · exact List.nodup_nil
    · exact fun nodeId listed => nomatch listed
    · exact fun earlier listed => nomatch listed
    · exact Nat.zero_le _
    · simp [runScenario]

/-! ## What loops add to the budget -/

theorem allowance_eq (plain : Plain deps.scenario) :
    allowance deps.scenario =
      (deps.scenario.ownNodes.map fun entry => maxIterationsOf deps.scenario entry.1).sum *
        deps.scenario.ownNodes.length := by
  rw [← List.sum_map_mul_right]
  refine congrArg List.sum (List.map_congr_left fun entry listed => ?_)
  have found : deps.scenario.node entry.1 = some entry.2 :=
    (lookup_of_mem_distinct plain.distinct).mpr (List.mem_filter.mp listed).1
  split
  · rename_i flow
    rw [maxIterationsOf_loop found flow]
  · rename_i flow
    exact absurd flow (plain.noFallback _ _ _ found)
  · rename_i noLoop _
    simp only [maxIterationsOf, found, Option.map_some]
    split
    · rename_i flow
      exact absurd (Option.some.inj flow) (noLoop _ _ _ _)
    · simp

theorem Striding.allTurns_le (striding : Striding deps machine) :
    (allTurns deps.scenario machine.log : Rat) ≤
      (deps.scenario.ownNodes.map fun entry => maxIterationsOf deps.scenario entry.1).sum := by
  rw [allTurns, Nat.cast_list_sum, List.map_map]
  exact List.sum_le_sum fun entry _ => striding.bounded entry.1

/-- There is always a step left. -/
theorem Striding.affords (plain : Plain deps.scenario) (striding : Striding deps machine)
    (byDefault : deps.maxSteps = none) (small : deps.scenario.nodes.length ≤ 199) : 0 < machine.state.budget := by
  have short : (stride machine.log).length ≤ 199 := by
    have within := (List.subperm_of_subset striding.distinct striding.nodes).length_le
    rw [List.length_map] at within
    exact within.trans small
  have visits : (machine.state.visited.length : Rat) ≤
      allTurns deps.scenario machine.log * deps.scenario.ownNodes.length + 199 := by
    exact_mod_cast striding.visits.trans (Nat.add_le_add_left short _)
  have turned : (allTurns deps.scenario machine.log : Rat) * deps.scenario.ownNodes.length ≤
      allowance deps.scenario := by
    rw [allowance_eq plain]
    exact mul_le_mul_of_nonneg_right striding.allTurns_le (Nat.cast_nonneg _)
  rw [striding.paid, stepLimit, byDefault, Option.elim_none, defaultMaxSteps]
  linarith

end Strides

/-! ## Where the limit is thrown -/

def Thrown.isLoopLimit : Thrown → Bool
  | .interpreter .irLoopLimit _ => true
  | _ => false

def Control.loopLimit : Control → Bool
  | .threw thrown => thrown.isLoopLimit
  | _ => false

theorem evaluateCondition_loopLimit {deps : Deps} {condition : IrelNode} {scope : IrelScope} {thrown : Thrown}
    (fails : evaluateCondition deps condition scope = .error thrown) : thrown.isLoopLimit = false := by
  obtain ⟨missing, rfl⟩ := evaluateCondition_error fails
  rfl

theorem selectOnBranch_loopLimit {deps : Deps} {nodeId : NodeId} {branches : List OnBranch} {scope : IrelScope}
    {thrown : Thrown} (fails : selectOnBranch deps nodeId branches scope = .error thrown) :
    thrown.isLoopLimit = false := by
  cases selectOnBranch_error fails <;> rfl

section LoopLimit

variable {deps : Deps} {machine : Machine} (node : ScenarioNode)

theorem nextAction_loopLimit (attempt : Attempt) (index : Nat) :
    (machine.nextAction node attempt index).control.loopLimit = false := by
  unfold Machine.nextAction
  split
  · unfold Machine.actionsDone
    dsimp only
    split <;> rfl
  · split <;> rfl

theorem stepDone_loopLimit (attempt : Attempt) (index : Nat) (result : StepResult) :
    (machine.stepDone attempt index result).control.loopLimit = false := by
  unfold Machine.stepDone Machine.stepFailed
  dsimp only
  split
  · rfl
  · split
    · rfl
    · split
      · split <;> rfl
      · rfl

theorem verdict_loopLimit (spared : machine.control.loopLimit = false) (attempt : Attempt) (rest : List Json)
    (status : VerifyStatus) : (machine.verdict node attempt rest status).control.loopLimit = false := by
  unfold Machine.verdict Machine.verifyFailed
  split
  · exact spared
  · split
    · split <;> rfl
    · split <;> rfl

theorem flow_loopLimit (lastResult : Option StepResult) :
    (machine.flow deps node lastResult).control.loopLimit = false := by
  unfold Machine.flow
  split
  case h_8 => split <;> rfl
  all_goals rfl

theorem branchError_loopLimit {pageState : PageState} {thrown : Thrown} (spared : thrown.isLoopLimit = false) :
    (Machine.branchError pageState thrown).isLoopLimit = false := by
  unfold Machine.branchError
  split
  · split <;> rfl
  · exact spared

theorem pageFlow_loopLimit (spared : machine.control.loopLimit = false) (pageState : PageState) :
    (machine.pageFlow deps node pageState).control.loopLimit = false := by
  unfold Machine.pageFlow
  split
  · unfold Machine.loopFlow
    dsimp only
    split
    · rename_i fails
      exact evaluateCondition_loopLimit fails
    · split <;> rfl
  · unfold Machine.onFlow
    dsimp only
    split
    · rename_i fails
      exact branchError_loopLimit (selectOnBranch_loopLimit fails)
    · rfl
  · exact spared

theorem return_loopLimit (terminal : String) : (machine.return_ terminal).control.loopLimit = false := by
  unfold Machine.return_
  split
  · rfl
  · split
    · rfl
    · split
      · rfl
      · split
        · rfl
        · split <;> rfl

theorem advanceFlow_loopLimit (spared : machine.control.loopLimit = false) (terminal : String)
    (pageState : PageState) : (machine.advanceFlow deps terminal pageState).control.loopLimit = false := by
  unfold Machine.advanceFlow
  split
  · exact spared
  · split
    · dsimp only
      split
      · rename_i fails
        exact evaluateCondition_loopLimit fails
      · rfl
      · rfl
    · exact spared

/-- The limit is thrown at the top of the loop over the nodes and nowhere else. -/
theorem step_loopLimit {input : Input} (spared : machine.control.loopLimit = false)
    (affords : ∀ cameFrom target, machine.control = .entering cameFrom target → 0 < machine.state.budget) :
    (step deps machine input).control.loopLimit = false := by
  have atNode : ∀ {change : ScenarioNode → Machine}, (∀ node, (change node).control.loopLimit = false) →
      (((deps.scenario.node machine.nodeId).map change).getD machine).control.loopLimit = false := by
    intro change spares
    cases deps.scenario.node machine.nodeId with
    | none => exact spared
    | some node => exact spares node
  unfold step
  dsimp only
  split
  · rename_i cameFrom target control
    unfold Machine.enter
    rw [if_neg (not_le.mpr (affords cameFrom target control))]
    split
    · rfl
    · split <;> rfl
  · rfl
  · rfl
  · exact atNode fun node => nextAction_loopLimit node _ _
  · exact stepDone_loopLimit _ _ _
  · exact atNode fun node => verdict_loopLimit node spared _ _ _
  · exact atNode fun node => flow_loopLimit node _
  · exact atNode fun node => pageFlow_loopLimit node spared _
  · exact return_loopLimit _
  · exact advanceFlow_loopLimit spared _ _
  all_goals first | rfl | exact spared

end LoopLimit

/-! ## Accepted scenarios -/

section Accepted

variable {ir : IrScenario} {signedCommandRefs : Option (List String)} {compiledAst : CompiledScenarioAst}
  {host : Host} {params : Option Json} {scenario : CompiledScenario}

/-- The exit of a translated loop is a node, and the loop is not called `__proto__`. -/
theorem translated_loop (facts : AcceptedFacts ir signedCommandRefs compiledAst)
    (done : compiledScenarioFrom host ir compiledAst params = .ok scenario) {nodeId : NodeId}
    {node : ScenarioNode} {until_ : IrelNode} {bodyTarget exitTarget : NodeId} {maxIterations : Rat}
    (found : scenario.node nodeId = some node)
    (flow : node.flow = .loop until_ bodyTarget exitTarget maxIterations) :
    nodeId ≠ "__proto__" ∧ exitTarget ∈ scenario.nodes.map Prod.fst := by
  obtain ⟨entry, member, rfl, isFlow⟩ := translated_node done found
  have lookup := facts.lookup member
  rw [flow] at isFlow
  by_cases proto : entry.1 = "__proto__"
  · rw [lookup, if_pos proto] at isFlow
    cases flowOf_loop isFlow
  · rw [lookup, if_neg proto] at isFlow
    refine ⟨proto, ?_⟩
    obtain ⟨loop, isLoop, entered⟩ := Option.bind_eq_some_iff.mp (flowOf_loop isFlow)
    obtain ⟨-, -, exit, -⟩ := loopCompiled_of_loopEntryOf loop _ entered
    have listed : readNodeTargetRef (some (.str exitTarget)) "loop.exit_target" .loopExit ∈
        targetRefsOf entry.2 := by
      simp [targetRefsOf, isLoop, field_of_textOf exit]
    rw [← translated_ids done]
    exact (known_of_ref (facts.silent entry member) listed).2 exitTarget rfl rfl

theorem plain_of_translated (facts : AcceptedFacts ir signedCommandRefs compiledAst)
    (done : compiledScenarioFrom host ir compiledAst params = .ok scenario) (apart : LoopsApart scenario)
    (noFallback : ∀ nodeId node tiers, scenario.node nodeId = some node → node.flow ≠ .fallback tiers)
    (noVerify : ∀ nodeId node, scenario.node nodeId = some node → node.verify = none) : Plain scenario where
  distinct := translated_ids done ▸ ir.distinct
  whole := wholeBounds_of_translated facts done
  apart := apart
  noFallback := noFallback
  noVerify := noVerify
  loops := fun _ _ _ _ _ _ found flow => translated_loop facts done found flow

end Accepted

/-- A drive of an accepted scenario with at most 199 nodes, without fallbacks and
verifications and with loops that are apart, does not come to the end of its default
budget. -/
theorem default_budget_adequate (host : Host) (ir : IrScenario) (signedCommandRefs : Option (List String))
    (compiledAst : CompiledScenarioAst) (deps : Deps) (initialCtx : RunContext) (startNode : Option NodeId)
    (resumeNodeOutputs : List (String × Json)) (compiles : CompilesTo ir signedCommandRefs compiledAst)
    (translated : compiledScenarioFrom host ir compiledAst deps.params = .ok deps.scenario)
    (byDefault : deps.maxSteps = none) (small : deps.scenario.nodes.length ≤ 199)
    (noFallback : ∀ nodeId node tiers, deps.scenario.node nodeId = some node → node.flow ≠ .fallback tiers)
    (noVerify : ∀ nodeId node, deps.scenario.node nodeId = some node → node.verify = none)
    (acyclic : ∀ nodeId, ¬ TransGen (ForwardEdge deps.scenario) nodeId nodeId)
    (apart : ∀ {first target second other : NodeId}, BodyEdge deps.scenario first target →
      BodyEdge deps.scenario second other → second ≠ first →
      ¬ ReflTransGen (WalksAround (ForwardEdge deps.scenario) (BodyEdge deps.scenario) first) target second)
    (inputs : List Input) (message : String) :
    (drive deps initialCtx startNode resumeNodeOutputs inputs).control ≠
      .threw (.interpreter .irLoopLimit message) := by
  have plain := plain_of_translated compiles.facts translated ⟨acyclic, apart⟩ noFallback noVerify
  have runs : Runs deps (drive deps initialCtx startNode resumeNodeOutputs inputs) ∧
      (drive deps initialCtx startNode resumeNodeOutputs inputs).control.loopLimit = false := by
    refine @exec_invariant _ _ _ (fun machine => Runs deps machine ∧ machine.control.loopLimit = false) ?_ _
      ⟨runs_runScenario plain initialCtx startNode resumeNodeOutputs, rfl⟩ inputs
    rintro machine input ⟨runs, spared⟩
    refine ⟨runs.step plain input, step_loopLimit spared fun cameFrom target entering => ?_⟩
    have striding := runs.strides.resolve_left (by simp [entering, Control.over])
    exact striding.affords plain byDefault small
  intro threw
  rw [threw] at runs
  cases runs.2

/-- The paging scenario in an order of its forward edges. -/
def pagingRank (nodeId : NodeId) : Nat :=
  if nodeId = "collect" then 0 else if nodeId = "pages" then 1 else 2

/-- Forward edges go up, `pages` is the only loop, and there are no fallbacks and verifications. -/
def pagingShape (scenario : CompiledScenario) : Bool :=
  scenario.nodes.length ≤ 199 && scenario.nodes.all fun entry =>
    entry.2.verify.isNone &&
      (entry.2.flow.forwardTargets.all fun target => pagingRank entry.1 < pagingRank target) &&
      match entry.2.flow with
      | .fallback _ => false
      | .loop .. => entry.1 = "pages"
      | _ => true

theorem default_budget_adequate_paging :
    ∃ deps compiledAst, CompilesTo pagingScenario none compiledAst ∧
      compiledScenarioFrom plainHost pagingScenario compiledAst deps.params = .ok deps.scenario ∧
      ∀ inputs message, (drive deps firstContext none [] inputs).control ≠
        .threw (.interpreter .irLoopLimit message) := by
  have shape : (drivesOf pagingScenario).map (fun deps => deps.maxSteps.isNone && pagingShape deps.scenario) =
      some true := by decide +kernel
  obtain ⟨deps, drives, shaped⟩ := Option.map_eq_some_iff.mp shape
  obtain ⟨compiledAst, compiles, translated⟩ := drivesOf_eq_some drives
  simp only [pagingShape, Bool.and_eq_true, Option.isNone_iff_eq_none, decide_eq_true_eq, List.all_eq_true,
    Prod.forall] at shaped
  obtain ⟨byDefault, small, each⟩ := shaped
  have listed : ∀ {nodeId node}, deps.scenario.node nodeId = some node → (nodeId, node) ∈ deps.scenario.nodes :=
    fun found => (lookup_of_mem_distinct (translated_ids translated ▸ pagingScenario.distinct)).mp found
  have loop : ∀ {nodeId target}, BodyEdge deps.scenario nodeId target → nodeId = "pages" := by
    rintro nodeId target ⟨node, until_, exitTarget, maxIterations, found, flow⟩
    have one := (each nodeId node (listed found)).2
    simpa [flow] using one
  refine ⟨deps, compiledAst, compiles, translated, ?_⟩
  refine default_budget_adequate plainHost pagingScenario none compiledAst deps firstContext none [] compiles
    translated byDefault small ?_ ?_ ?_ ?_
  · intro nodeId node tiers found flow
    have one := (each nodeId node (listed found)).2
    simp [flow] at one
  · exact fun nodeId node found => (each nodeId node (listed found)).1.1
  · intro nodeId cycle
    have rises : ∀ {first last}, TransGen (ForwardEdge deps.scenario) first last →
        pagingRank first < pagingRank last := by
      intro first last path
      induction path with
      | single edge =>
        obtain ⟨node, found, isTarget⟩ := edge
        exact (each _ _ (listed found)).1.2 _ isTarget
      | tail _ edge ih =>
        obtain ⟨node, found, isTarget⟩ := edge
        exact ih.trans ((each _ _ (listed found)).1.2 _ isTarget)
    exact lt_irrefl _ (rises cycle)
  · intro first target second other inFirst inSecond differ
    exact absurd ((loop inSecond).trans (loop inFirst).symm) differ

end RpaEnterprise.Interpreter
