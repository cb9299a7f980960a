import RpaEnterprise.Interpreter.Machine

/-!
# What a step can do

Every step of the traversal is one of the moves below, or changes nothing.  All
facts about drives are read off the moves; the step function is not unfolded again.
-/

namespace RpaEnterprise.Interpreter

open Lib Irel
open Executor (PageState)

/-- The machine after the flags of a condition were read and the condition is about
to be evaluated. -/
@[simp]
def Machine.evaluating (machine : Machine) (nodeId : NodeId) (scope : IrelScope) : Machine :=
  machine.emit (.evaluated nodeId scope)

/-- The scope is over the parameters of the run and the node outputs so far. -/
def Machine.Sees (machine : Machine) (deps : Deps) (scope : IrelScope) : Prop :=
  scope.params = deps.params ∧ scope.node = some (.obj machine.state.nodeScope)

inductive Moves (deps : Deps) (machine : Machine) : Machine → Prop where
  | threw (thrown : Thrown) (known : thrown.isUnknownNode = false) : Moves deps machine (machine.throw_ thrown)
  | unknown (cameFrom : Option NodeId) (target : NodeId)
      (control : machine.control = .entering cameFrom target) (isNode : target ≠ Ir.endNoDataTarget)
      (missing : deps.scenario.node target = none) :
      Moves deps machine (machine.spend.throw_ (.unknownNode target))
  | endedNoData (cameFrom : Option NodeId)
      (control : machine.control = .entering cameFrom Ir.endNoDataTarget) (affords : 0 < machine.state.budget) :
      Moves deps machine (machine.spend.endWith .endNoData)
  | visited (cameFrom : Option NodeId) (target : NodeId)
      (control : machine.control = .entering cameFrom target) (isNode : target ≠ Ir.endNoDataTarget)
      (found : (deps.scenario.node target).isSome) (affords : 0 < machine.state.budget) :
      Moves deps machine (machine.visit cameFrom target)
  | paused (pause : OperatorPauseDecision) (control : machine.control = .pausing) :
      Moves deps machine ((machine.suspendWith (machine.pauseContext pause)).endWith
        (.suspended (machine.pauseContext pause)))
  | began (control : machine.control = .pausing) :
      Moves deps machine (machine.goTo (.acting { execCtx := machine.ctx } 0))
  | dispatched (node : ScenarioNode) (attempt : Attempt) (index : Nat) (action dispatchAction : Json)
      (control : machine.control = .acting attempt index)
      (found : deps.scenario.node machine.nodeId = some node) (planned : node.what[index]? = some action)
      (resolved : resolveActionValueFromNode action machine.state.nodeScope = .ok dispatchAction) :
      Moves deps machine (machine.goTo (.executing attempt index dispatchAction))
  | acted (node : ScenarioNode) (attempt : Attempt) (index : Nat)
      (control : machine.control = .acting attempt index)
      (found : deps.scenario.node machine.nodeId = some node) (done : node.what[index]? = none)
      (after : Control) (goesOn : (∃ criterion rest, after = .verifying attempt criterion rest) ∨
        after = .flowing attempt.lastResult) :
      Moves deps machine ((machine.projectLast attempt.lastResult).goTo after)
  | succeeded (attempt : Attempt) (index : Nat) (action : Json) (result : StepResult)
      (control : machine.control = .executing attempt index action) (success : result.status = .success) :
      Moves deps machine ((machine.record index result).goTo (.acting
        { attempt.recorded result with
          nodeCommittedSideEffect := attempt.nodeCommittedSideEffect || result.commits } (index + 1)))
  | failed (attempt : Attempt) (index : Nat) (action : Json) (result : StepResult) (terminal : String)
      (control : machine.control = .executing attempt index action)
      (failure : failureTerminal result.status = some terminal) :
      Moves deps machine ((((machine.record index result).project result).failWith result.exception).endWith
        (.failed terminal result.exception))
  | challenged (attempt : Attempt) (index : Nat) (action : Json) (result : StepResult)
      (context : SuspendContext) (control : machine.control = .executing attempt index action)
      (suspended : result.status = .suspended) (resumes : context.resumeNodeId = machine.nodeId)
      (isChallenge : ∃ challengeKind, context.kind = .challenge challengeKind) :
      Moves deps machine ((((machine.record index result).project result).suspendWith context).endWith
        (.suspended context))
  | unsupported (attempt : Attempt) (index : Nat) (action : Json) (result : StepResult) (thrown : Thrown)
      (control : machine.control = .executing attempt index action)
      (known : thrown.isUnknownNode = false) :
      Moves deps machine (((machine.record index result).project result).throw_ thrown)
  | verifiedOne (attempt : Attempt) (criterion next : Json) (rest : List Json)
      (control : machine.control = .verifying attempt criterion (next :: rest)) :
      Moves deps machine (machine.goTo (.verifying attempt next rest))
  | verifiedAll (attempt : Attempt) (criterion : Json)
      (control : machine.control = .verifying attempt criterion []) :
      Moves deps machine (machine.goTo (.flowing attempt.lastResult))
  | healed (attempt : Attempt) (criterion : Json) (rest : List Json)
      (control : machine.control = .verifying attempt criterion rest)
      (harmless : attempt.nodeCommittedSideEffect = false) :
      Moves deps machine (machine.heal attempt)
  | verifyFailed (attempt : Attempt) (criterion : Json) (rest : List Json)
      (control : machine.control = .verifying attempt criterion rest) :
      Moves deps machine (machine.endWith .verifyFailed)
  | terminal (node : ScenarioNode) (lastResult : Option StepResult) (terminal : String)
      (control : machine.control = .flowing lastResult)
      (found : deps.scenario.node machine.nodeId = some node) (flow : node.flow = .terminal terminal) :
      Moves deps machine (machine.endWith (.terminalNode terminal))
  | next (node : ScenarioNode) (lastResult : Option StepResult) (target : NodeId)
      (control : machine.control = .flowing lastResult)
      (found : deps.scenario.node machine.nodeId = some node) (flow : node.flow = .next target) :
      Moves deps machine (machine.moveTo target)
  | asked (lastResult : Option StepResult) (control : machine.control = .flowing lastResult) :
      Moves deps machine (machine.goTo .resolving)
  | fallback (node : ScenarioNode) (lastResult : Option StepResult) (tier : Ir.CompiledFallbackTier)
      (rest : List Ir.CompiledFallbackTier) (control : machine.control = .flowing lastResult)
      (found : deps.scenario.node machine.nodeId = some node) (flow : node.flow = .fallback (tier :: rest)) :
      Moves deps machine
        (machine.startTier { nodeId := machine.nodeId, ctx := machine.ctx, tier, rest } machine.frames)
  | handedOver (node : ScenarioNode) (lastResult : Option StepResult) (input : Json) (returnNode : NodeId)
      (task : HumanTaskInput) (context : SuspendContext) (control : machine.control = .flowing lastResult)
      (found : deps.scenario.node machine.nodeId = some node)
      (flow : node.flow = .reservedHandler .humanTask input returnNode)
      (resumes : context.resumeNodeId = returnNode)
      (isTask : context.kind = .humanTask machine.nodeId task) :
      Moves deps machine ((machine.suspendWith context).endWith (.suspended context))
  | exited (node : ScenarioNode) (until_ : IrelNode) (bodyTarget exitTarget : NodeId) (maxIterations : Rat)
      (pageState : PageState) (scope : IrelScope) (control : machine.control = .resolving)
      (found : deps.scenario.node machine.nodeId = some node)
      (flow : node.flow = .loop until_ bodyTarget exitTarget maxIterations)
      (sees : machine.Sees deps scope) :
      Moves deps machine ((((machine.setPageState pageState).evaluating machine.nodeId scope).setLoopState
        machine.nodeId none).leave (.exited machine.nodeId) exitTarget)
  | looped (node : ScenarioNode) (until_ : IrelNode) (bodyTarget exitTarget : NodeId) (maxIterations : Rat)
      (pageState : PageState) (scope : IrelScope) (control : machine.control = .resolving)
      (found : deps.scenario.node machine.nodeId = some node)
      (flow : node.flow = .loop until_ bodyTarget exitTarget maxIterations)
      (sees : machine.Sees deps scope)
      (below : ((machine.state.loopState machine.nodeId).getD 0 : Rat) < maxIterations) :
      Moves deps machine ((((machine.setPageState pageState).evaluating machine.nodeId scope).setLoopState
        machine.nodeId (some ((machine.state.loopState machine.nodeId).getD 0 + 1))).leave
          (.looped machine.nodeId) bodyTarget)
  | branched (node : ScenarioNode) (branches : List OnBranch) (branch : OnBranch) (pageState : PageState)
      (scope : IrelScope) (control : machine.control = .resolving)
      (found : deps.scenario.node machine.nodeId = some node) (flow : node.flow = .on branches)
      (member : branch ∈ branches) (sees : machine.Sees deps scope) :
      Moves deps machine (((machine.setPageState pageState).evaluating machine.nodeId scope).moveTo branch.target)
  | undecided (ctx : RunContext) (nodeId : NodeId) (scope : IrelScope) (thrown : Thrown)
      (sees : machine.Sees deps scope) (known : thrown.isUnknownNode = false) :
      Moves deps machine (({ machine with ctx }.evaluating nodeId scope).throw_ thrown)
  | returned (terminal : String) (control : machine.control = .returning terminal)
      (outermost : machine.frames = []) :
      Moves deps machine (machine.goTo (.returned terminal))
  | adopted (terminal : String) (frame : Frame) (outer : List Frame)
      (control : machine.control = .returning terminal) (inside : machine.frames = frame :: outer) :
      Moves deps machine (machine.adopt frame outer terminal)
  | advanced (terminal : String) (frame : Frame) (outer : List Frame) (next : Ir.CompiledFallbackTier)
      (later : List Ir.CompiledFallbackTier) (control : machine.control = .returning terminal)
      (inside : machine.frames = frame :: outer) (more : frame.rest = next :: later)
      (failure : isFailureTerminal terminal = true) :
      Moves deps machine (machine.startTier { frame with tier := next, rest := later } outer)
  | askedAdvance (terminal : String) (frame : Frame) (outer : List Frame)
      (control : machine.control = .returning terminal) (inside : machine.frames = frame :: outer) :
      Moves deps machine (machine.goTo (.advancing terminal))
  | adoptedWhen (terminal : String) (frame : Frame) (outer : List Frame) (scope : IrelScope)
      (control : machine.control = .advancing terminal) (inside : machine.frames = frame :: outer)
      (sees : machine.Sees deps scope) :
      Moves deps machine ((machine.evaluating frame.nodeId scope).adopt frame outer terminal)
  | advancedWhen (terminal : String) (frame : Frame) (outer : List Frame) (next : Ir.CompiledFallbackTier)
      (later : List Ir.CompiledFallbackTier) (scope : IrelScope)
      (control : machine.control = .advancing terminal) (inside : machine.frames = frame :: outer)
      (more : frame.rest = next :: later) (sees : machine.Sees deps scope) :
      Moves deps machine ((machine.evaluating frame.nodeId scope).startTier
        { frame with tier := next, rest := later } outer)

/-! ## Steps are moves -/

section Steps

variable {deps : Deps} {machine : Machine}

theorem moves_enter {cameFrom : Option NodeId} {target : NodeId}
    (control : machine.control = .entering cameFrom target) :
    Moves deps machine (machine.enter deps cameFrom target) := by
  unfold Machine.enter
  by_cases spent : machine.state.budget ≤ 0
  · rw [if_pos spent]
    exact .threw _ rfl
  · rw [if_neg spent]
    have affords := Rat.not_le.mp spent
    by_cases isEnd : target = Ir.endNoDataTarget
    · subst isEnd
      rw [if_pos rfl]
      exact .endedNoData cameFrom control affords
    · rw [if_neg isEnd]
      cases found : deps.scenario.node target with
      | none => exact .unknown cameFrom target control isEnd found
      | some node => exact .visited cameFrom target control isEnd (by simp [found]) affords

theorem moves_nextAction {node : ScenarioNode} {attempt : Attempt} {index : Nat}
    (control : machine.control = .acting attempt index)
    (found : deps.scenario.node machine.nodeId = some node) :
    Moves deps machine (machine.nextAction node attempt index) := by
  unfold Machine.nextAction
  cases planned : node.what[index]? with
  | none =>
    dsimp only [Machine.actionsDone]
    split
    · exact .acted node attempt index control found planned _ (.inl ⟨_, _, rfl⟩)
    · exact .acted node attempt index control found planned _ (.inr rfl)
    · exact .acted node attempt index control found planned _ (.inr rfl)
  | some action =>
    dsimp only
    cases resolved : resolveActionValueFromNode action machine.state.nodeScope with
    | error message => exact .threw _ rfl
    | ok dispatchAction =>
      exact .dispatched node attempt index action dispatchAction control found planned resolved

theorem moves_stepDone {attempt : Attempt} {index : Nat} {action : Json}
    (control : machine.control = .executing attempt index action) (result : StepResult) :
    Moves deps machine (machine.stepDone attempt index result) := by
  unfold Machine.stepDone
  by_cases success : result.status = .success
  · simp only [success, if_true]
    exact .succeeded attempt index action result control success
  · simp only [success, if_false]
    unfold Machine.stepFailed
    dsimp only
    cases failure : failureTerminal result.status with
    | some terminal => exact .failed attempt index action result terminal control failure
    | none =>
      dsimp only
      by_cases suspended : result.status = .suspended
      · rw [if_pos suspended]
        cases humanAssistKind result with
        | none => exact .unsupported attempt index action result _ control rfl
        | some challengeKind =>
          exact .challenged attempt index action result _ control suspended rfl ⟨challengeKind, rfl⟩
      · rw [if_neg suspended]
        exact .unsupported attempt index action result _ control rfl

theorem moves_verdict {node : ScenarioNode} {attempt : Attempt} {criterion : Json} {rest : List Json}
    (control : machine.control = .verifying attempt criterion rest) (status : VerifyStatus) :
    machine.verdict node attempt rest status = machine ∨
      Moves deps machine (machine.verdict node attempt rest status) := by
  unfold Machine.verdict
  cases node.verify with
  | none => exact .inl rfl
  | some verify =>
    right
    by_cases pass : status = .pass
    · simp only [pass, if_true]
      cases rest with
      | nil => exact .verifiedAll attempt criterion control
      | cons next rest => exact .verifiedOne attempt criterion next rest control
    · simp only [pass, if_false]
      unfold Machine.verifyFailed
      split
      · rename_i allowed
        exact .healed attempt criterion rest control allowed.2.1
      · exact .verifyFailed attempt criterion rest control

theorem moves_flow {node : ScenarioNode} {lastResult : Option StepResult}
    (control : machine.control = .flowing lastResult)
    (found : deps.scenario.node machine.nodeId = some node) :
    Moves deps machine (machine.flow deps node lastResult) := by
  unfold Machine.flow
  cases flow : node.flow with
  | terminal terminal => exact .terminal node lastResult terminal control found flow
  | next target => exact .next node lastResult target control found flow
  | on branches => exact .asked lastResult control
  | loop until_ bodyTarget exitTarget maxIterations => exact .asked lastResult control
  | fallback tiers =>
    cases tiers with
    | nil => exact .threw _ rfl
    | cons tier rest => exact .fallback node lastResult tier rest control found flow
  | reservedHandler handler input returnNode =>
    cases handler with
    | challenge => exact .threw _ rfl
    | humanTask =>
      dsimp only
      cases parsed : parseHumanTaskInput machine.nodeId input deps.params with
      | error message => exact .threw _ rfl
      | ok task => exact .handedOver node lastResult input returnNode task _ control found flow rfl rfl

theorem evaluateCondition_known {condition : IrelNode} {scope : IrelScope} {thrown : Thrown}
    (evaluated : evaluateCondition deps condition scope = .error thrown) :
    thrown.isUnknownNode = false := by
  obtain ⟨missing, rfl⟩ := evaluateCondition_error evaluated
  rfl

theorem selectOnBranch_known {nodeId : NodeId} {branches : List OnBranch} {scope : IrelScope}
    {thrown : Thrown} (selected : selectOnBranch deps nodeId branches scope = .error thrown) :
    thrown.isUnknownNode = false := by
  cases selectOnBranch_error selected <;> rfl

theorem branchError_known {pageState : PageState} {thrown : Thrown}
    (known : thrown.isUnknownNode = false) : (Machine.branchError pageState thrown).isUnknownNode = false := by
  unfold Machine.branchError
  split
  · split <;> rfl
  · exact known

theorem moves_pageFlow {node : ScenarioNode} (control : machine.control = .resolving)
    (found : deps.scenario.node machine.nodeId = some node) (pageState : PageState) :
    machine.pageFlow deps node pageState = machine ∨
      Moves deps machine (machine.pageFlow deps node pageState) := by
  unfold Machine.pageFlow
  cases flow : node.flow with
  | loop until_ bodyTarget exitTarget maxIterations =>
    right
    dsimp only [Machine.loopFlow]
    generalize hscope : Machine.scope _ deps pageState _ = scope
    have sees : machine.Sees deps scope := by
      subst hscope
      exact ⟨rfl, rfl⟩
    cases evaluated : evaluateCondition deps until_ scope with
    | error thrown => exact .undecided _ _ scope thrown sees (evaluateCondition_known evaluated)
    | ok done =>
      dsimp only
      split
      · exact .exited node until_ bodyTarget exitTarget maxIterations pageState scope control found flow sees
      · rename_i goesOn
        rw [not_or, Rat.not_le] at goesOn
        exact .looped node until_ bodyTarget exitTarget maxIterations pageState scope control found flow
          sees goesOn.2
  | on branches =>
    right
    dsimp only [Machine.onFlow]
    generalize hscope : Machine.scope _ deps pageState _ = scope
    have sees : machine.Sees deps scope := by
      subst hscope
      exact ⟨rfl, rfl⟩
    cases selected : selectOnBranch deps _ branches scope with
    | error thrown =>
      exact .undecided _ _ scope _ sees (branchError_known (selectOnBranch_known selected))
    | ok target =>
      obtain ⟨branch, member, rfl⟩ := selectOnBranch_mem selected
      exact .branched node branches branch pageState scope control found flow member sees
  | _ => exact .inl rfl

theorem moves_return {terminal : String} (control : machine.control = .returning terminal) :
    Moves deps machine (machine.return_ terminal) := by
  unfold Machine.return_
  cases inside : machine.frames with
  | nil => exact .returned terminal control inside
  | cons frame outer =>
    dsimp only
    split
    · exact .adopted terminal frame outer control inside
    · cases more : frame.rest with
      | nil => exact .adopted terminal frame outer control inside
      | cons next later =>
        dsimp only
        cases frame.tier.advanceWhen with
        | some condition => exact .askedAdvance terminal frame outer control inside
        | none =>
          dsimp only
          split
          · rename_i failure
            exact .advanced terminal frame outer next later control inside more failure
          · exact .adopted terminal frame outer control inside

theorem moves_advanceFlow {terminal : String} (control : machine.control = .advancing terminal)
    (pageState : PageState) :
    machine.advanceFlow deps terminal pageState = machine ∨
      Moves deps machine (machine.advanceFlow deps terminal pageState) := by
  unfold Machine.advanceFlow
  cases inside : machine.frames with
  | nil => exact .inl rfl
  | cons frame outer =>
    dsimp only
    cases frame.tier.advanceWhen with
    | none => exact .inl rfl
    | some condition =>
      cases more : frame.rest with
      | nil => exact .inl rfl
      | cons next later =>
        right
        dsimp only
        generalize hscope : Machine.scope _ deps pageState _ = scope
        have sees : machine.Sees deps scope := by
          subst hscope
          exact ⟨rfl, rfl⟩
        cases evaluated : evaluateCondition deps condition scope with
        | error thrown =>
          exact .undecided machine.ctx _ scope thrown sees (evaluateCondition_known evaluated)
        | ok advance =>
          cases advance with
          | true =>
            exact .advancedWhen terminal frame outer next later scope control inside more sees
          | false => exact .adoptedWhen terminal frame outer scope control inside sees

/-- Every step changes nothing or is a move. -/
theorem step_moves (deps : Deps) (machine : Machine) (input : Input) :
    step deps machine input = machine ∨ Moves deps machine (step deps machine input) := by
  unfold step
  dsimp only
  split
  · rename_i cameFrom target control
    exact .inr (moves_enter control)
  · rename_i pause control
    exact .inr (.paused pause control)
  · rename_i control
    exact .inr (.began control)
  · rename_i attempt index control
    cases found : deps.scenario.node machine.nodeId with
    | none => exact .inl rfl
    | some node => exact .inr (moves_nextAction control found)
  · rename_i attempt index action result control
    exact .inr (moves_stepDone control result)
  · rename_i attempt criterion rest status control
    cases found : deps.scenario.node machine.nodeId with
    | none => exact .inl rfl
    | some node => exact moves_verdict control status
  · rename_i lastResult control
    cases found : deps.scenario.node machine.nodeId with
    | none => exact .inl rfl
    | some node => exact .inr (moves_flow control found)
  · rename_i pageState control
    cases found : deps.scenario.node machine.nodeId with
    | none => exact .inl rfl
    | some node => exact moves_pageFlow control found pageState
  · rename_i terminal control
    exact .inr (moves_return control)
  · rename_i terminal pageState control
    exact moves_advanceFlow control pageState
  · exact .inr (.threw _ rfl)
  · exact .inr (.threw _ rfl)
  · exact .inr (.threw _ rfl)
  · exact .inr (.threw _ rfl)
  · exact .inr (.threw _ rfl)
  · exact .inl rfl

/-- What every move keeps holds after every drive. -/
theorem drive_invariant {inv : Machine → Prop}
    (keeps : ∀ {machine after : Machine}, inv machine → Moves deps machine after → inv after)
    (start : inv machine) (inputs : List Input) : inv (exec (step deps) machine inputs) := by
  refine exec_invariant ?_ start inputs
  intro machine input holds
  rcases step_moves deps machine input with same | moves
  · rwa [same]
  · exact keeps holds moves

end Steps

end RpaEnterprise.Interpreter
