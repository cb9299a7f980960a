import Mathlib.Data.Rat.Cast.Order
import RpaEnterprise.Interpreter.Outcomes
import RpaEnterprise.Interpreter.Translated
import RpaEnterprise.Ir.Cycles

/-!
# Loops across suspensions

Within a drive a loop goes round at most `max_iterations` times before it takes its
exit.  The counters belong to the traversal state and start again at zero when a
suspended drive is resumed, so the bound holds for the whole run only if no loop is
under way that the resumed drive can come back to.
-/

namespace RpaEnterprise.Interpreter

open Lib Ir Irel
open Executor (PageState)

/-! ## Body edges since the last exit -/

def bodyEdgesAfter (nodeId : NodeId) (count : Nat) : Event → Nat
  | .looped other => if other = nodeId then count + 1 else count
  | .exited other => if other = nodeId then 0 else count
  | _ => count

/-- How often the loop has gone round since it last took its exit. -/
def bodyEdges (nodeId : NodeId) (log : List Event) : Nat := log.foldl (bodyEdgesAfter nodeId) 0

@[simp]
theorem bodyEdges_append (nodeId : NodeId) (log events : List Event) :
    bodyEdges nodeId (log ++ events) = events.foldl (bodyEdgesAfter nodeId) (bodyEdges nodeId log) :=
  List.foldl_append

/-- `loop.max_iterations` of a node; other nodes do not loop. -/
def maxIterationsOf (scenario : CompiledScenario) (nodeId : NodeId) : Rat :=
  match (scenario.node nodeId).map ScenarioNode.flow with
  | some (.loop _ _ _ maxIterations) => maxIterations
  | _ => 0

theorem maxIterationsOf_loop {scenario : CompiledScenario} {nodeId : NodeId} {node : ScenarioNode}
    {until_ : IrelNode} {bodyTarget exitTarget : NodeId} {maxIterations : Rat}
    (found : scenario.node nodeId = some node)
    (flow : node.flow = .loop until_ bodyTarget exitTarget maxIterations) :
    maxIterationsOf scenario nodeId = maxIterations := by
  simp [maxIterationsOf, found, flow]

/-- The bounds are natural numbers, as the static check wants them. -/
def WholeBounds (scenario : CompiledScenario) : Prop :=
  ∀ nodeId, ∃ count : Nat, maxIterationsOf scenario nodeId = count

/-! ## Counters -/

/-- No loop has gone round too often, and the counters of the loops ahead are right. -/
structure LoopsCounted (scenario : CompiledScenario) (machine : Machine) : Prop where
  placed : ∃ start, Placed scenario start machine
  bounded : ∀ nodeId, (bodyEdges nodeId machine.log : Rat) ≤ maxIterationsOf scenario nodeId
  counted : ∀ nodeId, Ahead scenario machine nodeId →
    (machine.state.loopState nodeId).getD 0 = bodyEdges nodeId machine.log

section Counters

variable {deps : Deps} {machine after : Machine}

theorem LoopsCounted.kept (counts : LoopsCounted deps.scenario machine) (moves : Moves deps machine after)
    (sameState : after.state.loopState = machine.state.loopState)
    (sameLog : ∀ nodeId, bodyEdges nodeId after.log = bodyEdges nodeId machine.log) :
    LoopsCounted deps.scenario after := by
  obtain ⟨start, placed⟩ := counts.placed
  refine ⟨⟨start, placed.moves moves⟩, fun nodeId => ?_, fun nodeId ahead => ?_⟩
  · rw [sameLog]
    exact counts.bounded nodeId
  · rw [sameState, sameLog]
    exact counts.counted nodeId (placed.ahead moves ahead)

/-- A step of the loop at the current node: its counter and its edges change together. -/
theorem LoopsCounted.turned (counts : LoopsCounted deps.scenario machine) (moves : Moves deps machine after)
    {iteration : Option Nat} {event : Event} {scope : IrelScope}
    (sameState : after.state.loopState = Function.update machine.state.loopState machine.nodeId iteration)
    (sameLog : after.log = machine.log ++ [.evaluated machine.nodeId scope] ++ [event])
    (here : iteration.getD 0 = bodyEdgesAfter machine.nodeId (bodyEdges machine.nodeId machine.log) event)
    (below : (iteration.getD 0 : Rat) ≤ maxIterationsOf deps.scenario machine.nodeId)
    (elsewhere : ∀ nodeId count, nodeId ≠ machine.nodeId → bodyEdgesAfter nodeId count event = count) :
    LoopsCounted deps.scenario after := by
  obtain ⟨start, placed⟩ := counts.placed
  have edges : ∀ nodeId, bodyEdges nodeId after.log =
      if nodeId = machine.nodeId then iteration.getD 0 else bodyEdges nodeId machine.log := by
    intro nodeId
    rw [sameLog, bodyEdges_append, bodyEdges_append, List.foldl_cons, List.foldl_nil, List.foldl_cons,
      List.foldl_nil]
    by_cases same : nodeId = machine.nodeId
    · rw [if_pos same, here, same]
      rfl
    · rw [if_neg same, elsewhere _ _ same]
      rfl
  refine ⟨⟨start, placed.moves moves⟩, fun nodeId => ?_, fun nodeId ahead => ?_⟩
  · rw [edges]
    by_cases same : nodeId = machine.nodeId
    · rw [if_pos same, same]
      exact below
    · rw [if_neg same]
      exact counts.bounded nodeId
  · rw [edges, sameState]
    by_cases same : nodeId = machine.nodeId
    · rw [if_pos same, same, Function.update_self]
    · rw [if_neg same, Function.update_of_ne same]
      exact counts.counted nodeId (placed.ahead moves ahead)

theorem LoopsCounted.moves (whole : WholeBounds deps.scenario) (counts : LoopsCounted deps.scenario machine)
    (moves : Moves deps machine after) : LoopsCounted deps.scenario after := by
  have moved := moves
  obtain ⟨count, whole⟩ := whole machine.nodeId
  cases moves with
  | exited node until_ bodyTarget exitTarget maxIterations pageState scope control found flow sees =>
    refine counts.turned moved rfl rfl ?_ ?_ ?_
    · simp [bodyEdgesAfter]
    · simp [whole]
    · intro nodeId count other
      simp [bodyEdgesAfter, Ne.symm other]
  | looped node until_ bodyTarget exitTarget maxIterations pageState scope control found flow sees below =>
    have next : (machine.state.loopState machine.nodeId).getD 0 + 1 ≤ count := by
      rw [← maxIterationsOf_loop found flow, whole, Nat.cast_lt] at below
      exact below
    refine counts.turned moved rfl rfl ?_ ?_ ?_
    · simp [bodyEdgesAfter, counts.counted machine.nodeId .here]
    · rw [whole, Nat.cast_le]
      exact next
    · intro nodeId count other
      simp [bodyEdgesAfter, Ne.symm other]
  | _ => exact counts.kept moved rfl (by simp [bodyEdgesAfter])

end Counters

/-! ## Bounds of the document -/

section Bounds

variable {ir : IrScenario} {signedCommandRefs : Option (List String)} {compiledAst : CompiledScenarioAst}
  {host : Host} {params : Option Json} {scenario : CompiledScenario} {entry : String × Json}

theorem flowOf_loop {nodeId : NodeId} {raw : Json} {compiled : CompiledNode} {until_ : IrelNode}
    {bodyTarget exitTarget : NodeId} {maxIterations : Rat}
    (done : flowOf nodeId raw compiled = .ok (.loop until_ bodyTarget exitTarget maxIterations)) :
    compiled.loop = some ⟨until_, bodyTarget, exitTarget, maxIterations⟩ := by
  unfold flowOf at done
  split at done
  · cases done
  · cases done
  · cases reservedHandlerFlow_targets done
  · unfold onFlowOf at done
    dsimp only at done
    split at done
    · cases done
    · obtain ⟨branches, -, same⟩ := bind_eq_ok.mp done
      cases same
  · unfold loopFlowOf at done
    split at done
    · rename_i loop found
      cases done
      exact found
    · cases done
  · unfold fallbackFlowOf at done
    dsimp only at done
    split at done <;> cases done
  · cases done

/-- The bound of a loop of an accepted node is a positive number. -/
theorem silentNode_maxIterations (silent : SilentNode ir signedCommandRefs entry) {loop : Json}
    (isLoop : loopOf entry.2 = some loop) {maxIterations : Rat}
    (bound : numberOf loop "max_iterations" = some maxIterations) : ∃ count : Nat, maxIterations = count := by
  have quiet := (silentNode_checks silent).2.2
  simp only [validateLoopContract, isLoop, bound, List.append_eq_nil_iff, ite_eq_right_iff,
    List.cons_ne_nil, imp_false, not_or, not_not, Rat.not_lt] at quiet
  obtain ⟨whole, positive, -⟩ := quiet.2
  have nonneg : 0 ≤ maxIterations.num := Rat.num_nonneg.mpr (le_trans zero_le_one positive)
  refine ⟨maxIterations.num.toNat, ?_⟩
  rw [← Int.cast_natCast, Int.toNat_of_nonneg nonneg]
  exact (Rat.den_eq_one_iff maxIterations).mp whole |>.symm

/-- The bound of a translated loop is the one of the document. -/
theorem translated_maxIterations (facts : AcceptedFacts ir signedCommandRefs compiledAst)
    (done : compiledScenarioFrom host ir compiledAst params = .ok scenario) {nodeId : NodeId}
    {node : ScenarioNode} {until_ : IrelNode} {bodyTarget exitTarget : NodeId} {maxIterations : Rat}
    (found : scenario.node nodeId = some node)
    (flow : node.flow = .loop until_ bodyTarget exitTarget maxIterations) :
    ∃ entry ∈ ir.nodes, nodeId = entry.1 ∧ ∃ loop, loopOf entry.2 = some loop ∧
      numberOf loop "max_iterations" = some maxIterations := by
  obtain ⟨entry, member, sameId, isFlow⟩ := translated_node done found
  rw [flow, facts.lookup member] at isFlow
  have isCompiled := flowOf_loop isFlow
  refine ⟨entry, member, sameId, ?_⟩
  split at isCompiled
  · cases isCompiled
  · obtain ⟨loop, isLoop, entered⟩ := Option.bind_eq_some_iff.mp isCompiled
    exact ⟨loop, isLoop, (loopCompiled_of_loopEntryOf loop _ entered).2.2.2⟩

theorem wholeBounds_of_translated (facts : AcceptedFacts ir signedCommandRefs compiledAst)
    (done : compiledScenarioFrom host ir compiledAst params = .ok scenario) : WholeBounds scenario := by
  intro nodeId
  unfold maxIterationsOf
  split
  · rename_i until_ bodyTarget exitTarget maxIterations isLoop
    obtain ⟨node, found, flow⟩ := Option.map_eq_some_iff.mp isLoop
    obtain ⟨entry, member, -, loop, isLoop, bound⟩ := translated_maxIterations facts done found flow
    exact silentNode_maxIterations (facts.silent entry member) isLoop bound
  · exact ⟨0, rfl⟩

end Bounds

/-! ## Runs -/

/-- A drive is resumed only from where it cannot come back to a loop that has gone round
since its last exit. -/
def LoopsBehind (deps : Deps) (machine : Machine) : RunInput → Prop
  | .reply _ => True
  | .resume _ _ => ∀ context, machine.suspension? = some context →
      ∀ nodeId, Reaches deps.scenario context.resumeNodeId nodeId → bodyEdges nodeId machine.log = 0

section Runs

variable {deps : Deps} {machine : Machine}

theorem LoopsCounted.resumed {context : SuspendContext} (counts : LoopsCounted deps.scenario machine)
    (behind : ∀ nodeId, Reaches deps.scenario context.resumeNodeId nodeId → bodyEdges nodeId machine.log = 0)
    (pageState : PageState) (rows : List ResolvedTask) :
    LoopsCounted deps.scenario (driveResumedRun deps machine context pageState rows) := by
  obtain ⟨start, placed⟩ := counts.placed
  have sameEdges : ∀ nodeId, bodyEdges nodeId (driveResumedRun deps machine context pageState rows).log =
      bodyEdges nodeId machine.log := by simp [bodyEdgesAfter]
  refine ⟨⟨_, placed.resumed context pageState rows⟩, fun nodeId => ?_, fun nodeId ahead => ?_⟩
  · rw [sameEdges]
    exact counts.bounded nodeId
  · rcases ahead with reaches | ⟨frame, member, -⟩
    · rw [sameEdges, behind nodeId reaches]
      rfl
    · cases member

theorem loopsCounted_claimedRun (whole : WholeBounds deps.scenario) (pageState : PageState) :
    LoopsCounted deps.scenario (claimedRun deps pageState) := by
  refine ⟨⟨_, placed_runScenario deps _ none []⟩, fun nodeId => ?_, fun nodeId _ => rfl⟩
  obtain ⟨count, isCount⟩ := whole nodeId
  rw [isCount]
  exact Nat.cast_le.mpr (Nat.zero_le count)

end Runs

/-- No loop of the document has gone round more often than its bound since its last exit. -/
def LoopsBounded (ir : IrScenario) (machine : Machine) : Prop :=
  ∀ entry ∈ ir.nodes, ∀ loop, loopOf entry.2 = some loop →
    ∀ maxIterations, numberOf loop "max_iterations" = some maxIterations →
      (bodyEdges entry.1 machine.log : Rat) ≤ maxIterations

/-- The bounds of an accepted scenario hold for the whole run, if no drive is resumed where
it can come back to a loop under way. -/
theorem loops_bounded (host : Host) (ir : IrScenario) (signedCommandRefs : Option (List String))
    (compiledAst : CompiledScenarioAst) (deps : Deps) (pageState : PageState) (inputs : List RunInput)
    (compiles : CompilesTo ir signedCommandRefs compiledAst)
    (translated : compiledScenarioFrom host ir compiledAst deps.params = .ok deps.scenario)
    (behind : Along (runStep deps) (LoopsBehind deps) (claimedRun deps pageState) inputs) :
    Throughout (runStep deps) (LoopsBounded ir) (claimedRun deps pageState) inputs := by
  have facts := compiles.facts
  have whole := wholeBounds_of_translated facts translated
  have counts : Throughout (runStep deps) (LoopsCounted deps.scenario) (claimedRun deps pageState) inputs := by
    refine run_keeps ?_ ?_ behind (loopsCounted_claimedRun whole pageState)
    · exact fun _ _ _ holds moves => holds.moves whole moves
    · exact fun pageState rows allowed suspended holds =>
        holds.resumed (allowed _ suspended) pageState rows
  intro some_ begins entry member loop isLoop maxIterations bound
  refine le_trans ((counts some_ begins).bounded entry.1) ?_
  unfold maxIterationsOf
  split
  · rename_i until_ bodyTarget exitTarget held isFlow
    obtain ⟨node, found, flow⟩ := Option.map_eq_some_iff.mp isFlow
    obtain ⟨other, among, sameId, otherLoop, isOther, otherBound⟩ :=
      translated_maxIterations facts translated found flow
    have same : entry.2 = other.2 := by
      have first := (lookup_of_mem_distinct ir.distinct).mpr member
      have second := (lookup_of_mem_distinct ir.distinct).mpr among
      rw [← sameId, first] at second
      exact Option.some.inj second
    rw [same, isOther] at isLoop
    cases isLoop
    rw [otherBound] at bound
    cases bound
    exact le_refl _
  · obtain ⟨count, rfl⟩ := silentNode_maxIterations (facts.silent entry member) isLoop bound
    exact Nat.cast_nonneg count

/-- The page has a next page. -/
def morePages : PageState := { blankPage with flags := [("no_next_page", false)] }

/-- A drive of the paging scenario passes the loop and takes its body edge. -/
def turn : List RunInput :=
  [.reply .proceed, .reply (.pause (.ok none)), .reply .proceed, .reply .proceed,
    .reply (.resolved (.ok morePages))]

/-- The body of the loop, back to the loop. -/
def collect : List RunInput :=
  [.reply .proceed, .reply (.pause (.ok none)), .reply .proceed, .reply .proceed]

/-- An operator pauses the run at the next node and lets it go on. -/
def pauseAndResume : List RunInput :=
  [.reply .proceed, .reply (.pause (.ok (some ⟨"pause-1", none⟩))), .reply .proceed, .resume blankPage []]

/-- No drive is resumed once a loop has gone round. -/
def ResumedFirst (machine : Machine) : RunInput → Bool
  | .reply _ => true
  | .resume _ _ => machine.log.all fun event => match event with
      | .looped _ => false
      | _ => true

theorem loopsBehind_of_resumedFirst (deps : Deps) (machine : Machine) (input : RunInput)
    (first : ResumedFirst machine input = true) : LoopsBehind deps machine input := by
  cases input with
  | reply input => trivial
  | resume pageState rows =>
    intro context _ nodeId _
    rw [ResumedFirst, List.all_eq_true] at first
    unfold bodyEdges
    generalize machine.log = log at first
    induction log with
    | nil => rfl
    | cons event rest ih =>
      rw [List.forall_mem_cons] at first
      have none : bodyEdgesAfter nodeId 0 event = 0 := by
        unfold bodyEdgesAfter
        split <;> simp_all
      rw [List.foldl_cons, none, ih first.2]

/-- A pause before the loop has gone round. -/
theorem loops_bounded_paging :
    ∃ deps compiledAst, CompilesTo pagingScenario none compiledAst ∧
      compiledScenarioFrom plainHost pagingScenario compiledAst deps.params = .ok deps.scenario ∧
      Throughout (runStep deps) (LoopsBounded pagingScenario) (claimedRun deps blankPage)
        (pauseAndResume ++ turn ++ collect) := by
  have first : (drivesOf pagingScenario).map (fun deps => decide (Along (runStep deps)
      (fun machine input => ResumedFirst machine input = true) (claimedRun deps blankPage)
      (pauseAndResume ++ turn ++ collect))) = some true := by decide +kernel
  obtain ⟨deps, drives, resumed⟩ := Option.map_eq_some_iff.mp first
  obtain ⟨compiledAst, compiles, translated⟩ := drivesOf_eq_some drives
  refine ⟨deps, compiledAst, compiles, translated, ?_⟩
  exact loops_bounded plainHost pagingScenario none compiledAst deps blankPage _ compiles translated
    (along_mono _ (loopsBehind_of_resumedFirst deps) (of_decide_eq_true resumed))

/-- The loop goes round five times, the run is paused in its body, and the resumed drive
takes the body edge a sixth time. -/
theorem sixth_turn :
    ∃ deps compiledAst, CompilesTo pagingScenario none compiledAst ∧
      compiledScenarioFrom plainHost pagingScenario compiledAst deps.params = .ok deps.scenario ∧
      ¬ LoopsBounded pagingScenario (exec (runStep deps) (claimedRun deps blankPage)
        (turn ++ collect ++ turn ++ collect ++ turn ++ collect ++ turn ++ collect ++ turn ++
          pauseAndResume ++ collect ++ turn)) := by
  have turns : (drivesOf pagingScenario).map (fun deps => bodyEdges "pages"
      (exec (runStep deps) (claimedRun deps blankPage)
        (turn ++ collect ++ turn ++ collect ++ turn ++ collect ++ turn ++ collect ++ turn ++
          pauseAndResume ++ collect ++ turn)).log) = some 6 := by decide +kernel
  obtain ⟨deps, drives, six⟩ := Option.map_eq_some_iff.mp turns
  obtain ⟨compiledAst, compiles, translated⟩ := drivesOf_eq_some drives
  refine ⟨deps, compiledAst, compiles, translated, fun bounded => ?_⟩
  have atMost := bounded _ List.mem_cons_self _ rfl 5 (by decide +kernel)
  rw [six] at atMost
  exact absurd atMost (by decide +kernel)

end RpaEnterprise.Interpreter
