import Mathlib.Tactic.Simps.Basic
import RpaEnterprise.Interpreter.Flow
import RpaEnterprise.Lib.Execution

/-!
# The traversal

`runScenario` as a machine.  The interpreter is one asynchronous procedure: it runs
until it awaits the executor, the resolver or the reader of pause requests, and goes
on with the reply.  A control state stands at every `await`, and at the top of the
loop over the nodes; the sub-traversals of fallback tiers are frames of a stack.

The log is not in the source.  It records what the traversal does, in order, so that
histories can be compared with what they should be.
-/

namespace RpaEnterprise.Interpreter

open Lib Irel
open Executor (ChallengeSummary PageState pageStateRef)

/-! ## Contexts -/

/-- `RunContext`, with the fields the interpreter sets. -/
structure RunContext where
  nodeId : NodeId
  attempt : Nat := 0
  pageState : PageState
  lastHttpResponse : Option HttpResponseSnapshot := none
  selfHealRetry : Bool := false

structure OperatorPauseDecision where
  pauseRequestId : String
  reason : Option String

inductive SuspendKind where
  | challenge (challengeKind : Runtime.ChallengeKind)
  | humanTask (nodeId : NodeId) (task : HumanTaskInput)
  | operatorPause (pause : OperatorPauseDecision)

structure SuspendContext where
  stepId : String
  resumeNodeId : NodeId
  attempt : Nat
  pageStateRef : String
  exception : Option ClassifiedException := none
  kind : SuspendKind

structure InterpreterStep where
  nodeId : NodeId
  action : IrActionType
  status : StepStatus

structure ExtractResultPage where
  nodeId : NodeId
  stepId : String
  output : Json
  artifactRef : Option String

/-- `TraversalState`: what all sub-traversals share. -/
structure TraversalState where
  nodeScope : List (String × Json)
  loopState : NodeId → Option Nat := fun _ => none
  visited : List NodeId := []
  steps : List InterpreterStep := []
  artifacts : List String := []
  extractPages : List ExtractResultPage := []
  budget : Rat
  suspendBox : Option SuspendContext := none
  failureBox : Option ClassifiedException := none

/-! ## What a traversal does -/

/-- How a traversal ends that is not the end of a fallback. -/
inductive Ending where
  | terminalNode (terminal : String)
  | endNoData
  | failed (terminal : String) (exception : Option ClassifiedException)
  | verifyFailed
  | suspended (context : SuspendContext)

def Ending.terminal : Ending → String
  | .terminalNode terminal => terminal
  | .endNoData => "success_empty"
  | .failed terminal _ => terminal
  | .verifyFailed => "fail_business"
  | .suspended _ => "suspend"

inductive Event where
  /-- The drive starts, or starts again, at a node. -/
  | started (nodeId : NodeId)
  /-- A node is visited, after another one of its traversal or as the first of a tier. -/
  | visited (cameFrom : Option NodeId) (nodeId : NodeId)
  | executed (nodeId : NodeId) (index : Nat) (result : StepResult)
  | healed (nodeId : NodeId)
  | evaluated (nodeId : NodeId) (scope : IrelScope)
  | moved (nodeId target : NodeId)
  | looped (nodeId : NodeId)
  | exited (nodeId : NodeId)
  | tierStarted (nodeId : NodeId) (tier : Ir.CompiledFallbackTier)
  | ended (nodeId : NodeId) (ending : Ending)

/-! ## Control -/

/-- One pass over the actions of a node. -/
structure Attempt where
  selfHealCount : Nat := 0
  execCtx : RunContext
  nodeCommittedSideEffect : Bool := false
  lastResult : Option StepResult := none

def Attempt.recorded (attempt : Attempt) (result : StepResult) : Attempt :=
  { attempt with
    lastResult := some result
    execCtx := match httpResponseFromStep result with
      | some http => { attempt.execCtx with lastHttpResponse := some http }
      | none => attempt.execCtx }

/-- `VerifyResult.status`. -/
inductive VerifyStatus where
  | pass
  | failDet
  | failVlm
  | uncertain
deriving Repr, DecidableEq

/-- The challenges a person can help with. -/
def humanAssistKind (result : StepResult) : Option Runtime.ChallengeKind :=
  match result.challenge.map ChallengeSummary.type with
  | some .captcha => some .captcha
  | some .mfa => some .mfa
  | _ => none

/-- `res.challenge?.type ?? "none"`. -/
def challengeText (result : StepResult) : String :=
  match result.challenge with
  | some challenge => challenge.type.text
  | none => "none"

/-- Where the procedure stands: at an `await`, or between two of its stages. -/
inductive Control where
  /-- The top of the loop over the nodes. -/
  | entering (cameFrom : Option NodeId) (target : NodeId)
  /-- `pauseRequested` is awaited. -/
  | pausing
  /-- The top of the loop over the actions. -/
  | acting (attempt : Attempt) (index : Nat)
  /-- `executor.execute` is awaited. -/
  | executing (attempt : Attempt) (index : Nat) (action : Json)
  /-- `executor.verify` is awaited. -/
  | verifying (attempt : Attempt) (criterion : Json) (rest : List Json)
  /-- The flow of the node. -/
  | flowing (lastResult : Option StepResult)
  /-- The flags of an `on` or a loop are awaited. -/
  | resolving
  /-- `return terminal` of the innermost traversal. -/
  | returning (terminal : String)
  /-- The flags of `advance_when` are awaited. -/
  | advancing (terminal : String)
  | returned (terminal : String)
  | threw (thrown : Thrown)

/-- The traversal is at a node, not on its way out. -/
def Control.atNode : Control → Bool
  | .pausing | .acting .. | .executing .. | .verifying .. | .flowing _ | .resolving => true
  | _ => false

/-- A fallback whose tier is being traversed. -/
structure Frame where
  nodeId : NodeId
  ctx : RunContext
  tier : Ir.CompiledFallbackTier
  rest : List Ir.CompiledFallbackTier

structure Machine where
  state : TraversalState
  nodeId : NodeId
  ctx : RunContext
  /-- The innermost fallback first. -/
  frames : List Frame := []
  control : Control
  log : List Event := []

namespace Machine

def currentTier (machine : Machine) : Option String := machine.frames.head?.map (·.tier.tier)

@[simps]
def goTo (machine : Machine) (control : Control) : Machine := { machine with control }

@[simp]
def throw_ (machine : Machine) (thrown : Thrown) : Machine := machine.goTo (.threw thrown)

@[simps]
def emit (machine : Machine) (event : Event) : Machine := { machine with log := machine.log ++ [event] }

/-- `budget.remaining -= 1`. -/
@[simps]
def spend (machine : Machine) : Machine :=
  { machine with state := { machine.state with budget := machine.state.budget - 1 } }

/-- `nodeScope[nodeId] = …`. -/
@[simps]
def setOutput (machine : Machine) (nodeId : NodeId) (output : List (String × Json)) : Machine :=
  { machine with
    state := { machine.state with nodeScope := Interpreter.setOutput nodeId output machine.state.nodeScope } }

/-- The output of a step becomes the output of its node. -/
@[simp]
def project (machine : Machine) (result : StepResult) : Machine :=
  machine.setOutput machine.nodeId (withTier machine.currentTier (projectNodeOutput result))

@[simps]
def suspendWith (machine : Machine) (context : SuspendContext) : Machine :=
  { machine with state := { machine.state with suspendBox := some context } }

/-- `if (exception !== undefined) failureBox.current = exception`. -/
@[simps]
def failWith (machine : Machine) (exception : Option ClassifiedException) : Machine :=
  { machine with
    state := { machine.state with failureBox := exception.or machine.state.failureBox } }

/-- A tier of a fallback is traversed, inside the outer fallbacks. -/
@[simps]
def startTier (machine : Machine) (frame : Frame) (outer : List Frame) : Machine :=
  { machine with
    nodeId := frame.nodeId
    ctx := frame.ctx
    frames := frame :: outer
    control := .entering (some frame.nodeId) frame.tier.entryNode
    log := machine.log ++ [.tierStarted frame.nodeId frame.tier] }

/-- The fallback returns the terminal of its tier. -/
@[simps]
def adopt (machine : Machine) (frame : Frame) (outer : List Frame) (terminal : String) : Machine :=
  { machine.setOutput frame.nodeId
      [("status", .str (terminalToStatus terminal).text), ("tier", .str frame.tier.tier)] with
    frames := outer
    control := .returning terminal }

/-- The end of a traversal: the drive returns, or the innermost fallback goes on. -/
def return_ (machine : Machine) (terminal : String) : Machine :=
  match machine.frames with
  | [] => machine.goTo (.returned terminal)
  | frame :: outer =>
    -- a security failure is adopted at once, and so is the last tier
    if terminal = "fail_security" then machine.adopt frame outer terminal
    else match frame.rest with
      | [] => machine.adopt frame outer terminal
      | next :: later =>
        match frame.tier.advanceWhen with
        | some _ => machine.goTo (.advancing terminal)
        | none =>
          if isFailureTerminal terminal then
            machine.startTier { frame with tier := next, rest := later } outer
          else machine.adopt frame outer terminal

/-- `nodeId = target; continue`, with the event that records the edge. -/
@[simps]
def leave (machine : Machine) (event : Event) (target : NodeId) : Machine :=
  { machine with
    control := .entering (some machine.nodeId) target
    log := machine.log ++ [event] }

@[simp]
def moveTo (machine : Machine) (target : NodeId) : Machine :=
  machine.leave (.moved machine.nodeId target) target

/-- The traversal ends at its node. -/
@[simps]
def endWith (machine : Machine) (ending : Ending) : Machine :=
  { machine with
    control := .returning ending.terminal
    log := machine.log ++ [.ended machine.nodeId ending] }

/-! ## Scopes -/

def flagsJson (flags : List (String × Bool)) : Json :=
  .obj (flags.map fun entry => (entry.1, .bool entry.2))

def scope (machine : Machine) (deps : Deps) (pageState : PageState) (loop : Option Json := none) :
    IrelScope :=
  { params := deps.params, node := some (.obj machine.state.nodeScope)
    flags := some (flagsJson pageState.flags), loop }

/-! ## Nodes -/

/-- `visited.push(nodeId)` and what comes before the first `await` of a node. -/
@[simps]
def visit (machine : Machine) (cameFrom : Option NodeId) (target : NodeId) : Machine :=
  { machine with
    state := { machine.state with
      budget := machine.state.budget - 1
      visited := machine.state.visited ++ [target] }
    nodeId := target
    ctx := { machine.ctx with nodeId := target }
    control := .pausing
    log := machine.log ++ [.visited cameFrom target] }

/-- The top of the loop over the nodes. -/
def enter (deps : Deps) (machine : Machine) (cameFrom : Option NodeId) (target : NodeId) : Machine :=
  if machine.state.budget ≤ 0 then
    machine.throw_ (.interpreter .irLoopLimit
      "interpreter: exceeded step budget (graph_max_steps + loop/fallback allowance) without terminal (비종료 의심 — loop은 max_iterations로 graceful exit)")
  else if target = Ir.endNoDataTarget then machine.spend.endWith .endNoData
  else match deps.scenario.node target with
    | none => machine.spend.throw_ (.unknownNode target)
    | some _ => machine.visit cameFrom target

def pauseContext (machine : Machine) (pause : OperatorPauseDecision) : SuspendContext :=
  { stepId := s!"{machine.nodeId}.operator_pause"
    resumeNodeId := machine.nodeId
    attempt := machine.ctx.attempt
    pageStateRef := pageStateRef machine.ctx.pageState
    kind := .operatorPause pause }

/-- The flow of a node that needs no page state. -/
def flow (deps : Deps) (node : ScenarioNode) (machine : Machine) (lastResult : Option StepResult) :
    Machine :=
  match node.flow with
  | .terminal terminal => machine.endWith (.terminalNode terminal)
  | .next target => machine.moveTo target
  | .loop .. | .on _ => machine.goTo .resolving
  | .fallback [] => machine.throw_ .typeError
  | .fallback (tier :: rest) =>
    machine.startTier { nodeId := machine.nodeId, ctx := machine.ctx, tier, rest } machine.frames
  | .reservedHandler .challenge _ _ =>
    machine.throw_ (.interpreter .reservedHandlerUnsupported
      s!"interpreter: reserved-handler '@challenge' node '{machine.nodeId}' 미구현(@challenge ResolutionPolicy 후속)")
  | .reservedHandler .humanTask input returnNode =>
    match parseHumanTaskInput machine.nodeId input deps.params with
    | .error message => machine.throw_ (schemaInvalid message)
    | .ok task =>
      let context : SuspendContext :=
        { stepId := s!"{machine.nodeId}.@human_task"
          resumeNodeId := returnNode
          attempt := machine.ctx.attempt
          pageStateRef := match lastResult with
            | some result => result.pageStateAfter
            | none => pageStateRef machine.ctx.pageState
          kind := .humanTask machine.nodeId task }
      (machine.suspendWith context).endWith (.suspended context)

/-- The result of the last action, if there was one, becomes the output of the node. -/
@[simps]
def projectLast (machine : Machine) (lastResult : Option StepResult) : Machine :=
  { machine with
    state := { machine.state with
      nodeScope := match lastResult with
        | some result => (machine.project result).state.nodeScope
        | none => machine.state.nodeScope } }

/-- All actions succeeded: the output, then the verification. -/
def actionsDone (node : ScenarioNode) (machine : Machine) (attempt : Attempt) : Machine :=
  let machine := machine.projectLast attempt.lastResult
  match node.verify.map NodeVerify.criteria with
  | some (criterion :: rest) => machine.goTo (.verifying attempt criterion rest)
  | some [] | none => machine.goTo (.flowing attempt.lastResult)

/-- The action at an index, or the end of the actions. -/
def nextAction (node : ScenarioNode) (machine : Machine) (attempt : Attempt) (index : Nat) : Machine :=
  match node.what[index]? with
  | none => machine.actionsDone node attempt
  | some action =>
    match resolveActionValueFromNode action machine.state.nodeScope with
    | .error message => machine.throw_ (schemaInvalid message)
    | .ok dispatchAction => machine.goTo (.executing attempt index dispatchAction)

/-- `collectExtractPage`. -/
def extractPage (nodeId : NodeId) (stepId : String) (result : StepResult) : Option ExtractResultPage :=
  if result.action ≠ .extract ∨ result.status ≠ .success then none
  else
    let output := match result.extracted with
      | some .null | none => result.output
      | some value => some value
    output.map fun output => { nodeId, stepId, output, artifactRef := result.artifacts.head? }

/-- The result of a step is recorded. -/
@[simps]
def record (machine : Machine) (index : Nat) (result : StepResult) : Machine :=
  { machine with
    state := { machine.state with
      steps := machine.state.steps ++ [⟨machine.nodeId, result.action, result.status⟩]
      artifacts := machine.state.artifacts ++ result.artifacts
      extractPages := machine.state.extractPages ++
        (extractPage machine.nodeId s!"{machine.nodeId}.{index}" result).toList }
    log := machine.log ++ [.executed machine.nodeId index result] }

/-- A step that did not succeed. -/
def stepFailed (machine : Machine) (attempt : Attempt) (index : Nat) (result : StepResult) : Machine :=
  let machine := machine.project result
  match failureTerminal result.status with
  | some terminal =>
    (machine.failWith result.exception).endWith (.failed terminal result.exception)
  | none =>
    if result.status = .suspended then
      match humanAssistKind result with
      | none => machine.throw_ (.interpreter .executorStatusUnsupported
          s!"interpreter: step '{machine.nodeId}.{index}' status='suspended' 인데 challenge.type='{challengeText result}' (human-assist=captcha|mfa 아님)")
      | some challengeKind =>
        let context : SuspendContext :=
          { stepId := s!"{machine.nodeId}.{index}"
            resumeNodeId := machine.nodeId
            attempt := attempt.execCtx.attempt
            pageStateRef := result.pageStateAfter
            exception := result.exception
            kind := .challenge challengeKind }
        (machine.suspendWith context).endWith (.suspended context)
    else machine.throw_ (.interpreter .executorStatusUnsupported
      s!"interpreter: step '{machine.nodeId}.{index}' returned status '{result.status.text}' (challenge/uncertain/skipped 미지원)")

/-- The reply of the executor. -/
def stepDone (machine : Machine) (attempt : Attempt) (index : Nat) (result : StepResult) : Machine :=
  let machine := machine.record index result
  let attempt := attempt.recorded result
  if result.status = .success then
    machine.goTo (.acting
      { attempt with
        nodeCommittedSideEffect := attempt.nodeCommittedSideEffect || result.commits } (index + 1))
  else machine.stepFailed attempt index result

/-- The node is executed once more. -/
@[simp]
def heal (machine : Machine) (attempt : Attempt) : Machine :=
  (machine.spend.emit (.healed machine.nodeId)).goTo (.acting
    { selfHealCount := attempt.selfHealCount + 1
      execCtx := { machine.ctx with
        selfHealRetry := true
        attempt := machine.ctx.attempt + (attempt.selfHealCount + 1) } } 0)

/-- A criterion did not pass: the node is executed again, or the traversal fails. -/
def verifyFailed (verify : NodeVerify) (machine : Machine) (attempt : Attempt) : Machine :=
  if verify.onFail = "self_heal" ∧ attempt.nodeCommittedSideEffect = false ∧
      attempt.selfHealCount < verify.maxSelfHeal ∧ 0 < machine.state.budget then
    machine.heal attempt
  else machine.endWith .verifyFailed

/-- The reply of `executor.verify` to one criterion. -/
def verdict (node : ScenarioNode) (machine : Machine) (attempt : Attempt) (rest : List Json)
    (status : VerifyStatus) : Machine :=
  match node.verify with
  | none => machine
  | some verify =>
    if status = .pass then
      match rest with
      | criterion :: rest => machine.goTo (.verifying attempt criterion rest)
      | [] => machine.goTo (.flowing attempt.lastResult)
    else verifyFailed verify machine attempt

/-! ## Flows that read the page -/

@[simps]
def setPageState (machine : Machine) (pageState : PageState) : Machine :=
  { machine with ctx := { machine.ctx with pageState } }

@[simps]
def setLoopState (machine : Machine) (nodeId : NodeId) (iteration : Option Nat) : Machine :=
  { machine with
    state := { machine.state with
      loopState := Function.update machine.state.loopState nodeId iteration } }

def loopScope (iteration : Nat) : Json :=
  .obj [("iteration", .num iteration), ("page_count", .num iteration)]

def loopFlow (deps : Deps) (machine : Machine) (until_ : IrelNode) (bodyTarget exitTarget : NodeId)
    (maxIterations : Rat) (pageState : PageState) : Machine :=
  let machine := machine.setPageState pageState
  let iteration := (machine.state.loopState machine.nodeId).getD 0
  let scope := machine.scope deps pageState (some (loopScope iteration))
  let machine := machine.emit (.evaluated machine.nodeId scope)
  match evaluateCondition deps until_ scope with
  | .error thrown => machine.throw_ thrown
  | .ok done =>
    if done ∨ maxIterations ≤ iteration then
      (machine.setLoopState machine.nodeId none).leave (.exited machine.nodeId) exitTarget
    else
      (machine.setLoopState machine.nodeId (some (iteration + 1))).leave (.looped machine.nodeId) bodyTarget

/-- A page that wants a login and matches no branch wants a session. -/
def branchError (pageState : PageState) : Thrown → Thrown
  | .noBranchMatched nodeId =>
    if pageState.flags.lookup "login_required" = some true then .sessionRegistrationRequired nodeId
    else .noBranchMatched nodeId
  | thrown => thrown

def onFlow (deps : Deps) (machine : Machine) (branches : List OnBranch) (pageState : PageState) :
    Machine :=
  let machine := machine.setPageState pageState
  let scope := machine.scope deps pageState
  let machine := machine.emit (.evaluated machine.nodeId scope)
  match selectOnBranch deps machine.nodeId branches scope with
  | .error thrown => machine.throw_ (branchError pageState thrown)
  | .ok target => machine.moveTo target

def pageFlow (deps : Deps) (node : ScenarioNode) (machine : Machine) (pageState : PageState) : Machine :=
  match node.flow with
  | .loop until_ bodyTarget exitTarget maxIterations =>
    loopFlow deps machine until_ bodyTarget exitTarget maxIterations pageState
  | .on branches => onFlow deps machine branches pageState
  | _ => machine

/-- `advance_when` of the tier that ended. -/
def advanceFlow (deps : Deps) (machine : Machine) (terminal : String) (pageState : PageState) : Machine :=
  match machine.frames with
  | [] => machine
  | frame :: outer =>
    match frame.tier.advanceWhen, frame.rest with
    | some condition, next :: later =>
      let scope := machine.scope deps pageState
      let machine := machine.emit (.evaluated frame.nodeId scope)
      match evaluateCondition deps condition scope with
      | .error thrown => machine.throw_ thrown
      | .ok true => machine.startTier { frame with tier := next, rest := later } outer
      | .ok false => machine.adopt frame outer terminal
    | _, _ => machine

end Machine

/-! ## Replies -/

/-- What the interpreter goes on with.  An error is what the component threw. -/
inductive Input where
  | proceed
  | pause (reply : Except String (Option OperatorPauseDecision))
  | executed (reply : Except String StepResult)
  | verified (reply : Except String VerifyStatus)
  | resolved (reply : Except String PageState)

/-- One step.  A reply nobody waits for changes nothing. -/
def step (deps : Deps) (machine : Machine) (input : Input) : Machine :=
  let node := deps.scenario.node machine.nodeId
  match machine.control, input with
  | .entering cameFrom target, .proceed => machine.enter deps cameFrom target
  | .pausing, .pause (.ok (some pause)) =>
    let context := machine.pauseContext pause
    (machine.suspendWith context).endWith (.suspended context)
  | .pausing, .pause (.ok none) => machine.goTo (.acting { execCtx := machine.ctx } 0)
  | .acting attempt index, .proceed => (node.map fun node => machine.nextAction node attempt index).getD machine
  | .executing attempt index _, .executed (.ok result) => machine.stepDone attempt index result
  | .verifying attempt _ rest, .verified (.ok status) =>
    (node.map fun node => machine.verdict node attempt rest status).getD machine
  | .flowing lastResult, .proceed => (node.map fun node => machine.flow deps node lastResult).getD machine
  | .resolving, .resolved (.ok pageState) =>
    (node.map fun node => machine.pageFlow deps node pageState).getD machine
  | .returning terminal, .proceed => machine.return_ terminal
  | .advancing terminal, .resolved (.ok pageState) => machine.advanceFlow deps terminal pageState
  | .pausing, .pause (.error message)
  | .executing _ _ _, .executed (.error message)
  | .verifying _ _ _, .verified (.error message)
  | .resolving, .resolved (.error message)
  | .advancing _, .resolved (.error message) => machine.throw_ (.other message)
  | _, _ => machine

/-! ## Drives -/

/-- `interpreter.graph_max_steps`. -/
def defaultMaxSteps : Rat := 200

/-- What loops and tiers add to the budget. -/
def allowance (scenario : CompiledScenario) : Rat :=
  let nodeCount : Rat := scenario.ownNodes.length
  (scenario.ownNodes.map fun entry =>
    match entry.2.flow with
    | .loop _ _ _ maxIterations => maxIterations * nodeCount
    | .fallback tiers => tiers.length * nodeCount
    | _ => 0).sum

/-- `maxSteps` of `runScenario`. -/
def stepLimit (deps : Deps) : Rat :=
  deps.maxSteps.elim (defaultMaxSteps + allowance deps.scenario) fun steps => steps

/-- The first state of `runScenario`. -/
def runScenario (deps : Deps) (initialCtx : RunContext) (startNode : Option NodeId := none)
    (resumeNodeOutputs : List (String × Json) := []) : Machine :=
  let start := startNode.getD deps.scenario.start
  { state :=
      { nodeScope := resumeNodeOutputs
        budget := stepLimit deps }
    nodeId := start
    ctx := initialCtx
    control := .entering none start
    log := [.started start] }

/-- A drive up to the reply it has come to. -/
def drive (deps : Deps) (initialCtx : RunContext) (startNode : Option NodeId)
    (resumeNodeOutputs : List (String × Json)) (inputs : List Input) : Machine :=
  exec (step deps) (runScenario deps initialCtx startNode resumeNodeOutputs) inputs

end RpaEnterprise.Interpreter
