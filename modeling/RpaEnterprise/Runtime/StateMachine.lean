import Mathlib.Logic.Basic

/-!
# Run, workitem and human-task state machines

The three pure transition functions of `codegen/transitions.ts`, over the
states, events, guards and side effects of `ts/state-machine-types.ts`.  An
undefined combination of state, event and guard is an `IllegalTransition`;
there is no silent no-op.
-/

namespace RpaEnterprise.Runtime

inductive RunState where
  | queued | claimed | running | suspending | suspended | resumeRequested | resuming
  | completing | completed | aborting | cancelled | failedBusiness | failedSystem
deriving Repr, DecidableEq

inductive WorkitemState where
  | new | processing | successful | retry | failedBusiness | failedSystem | abandoned
deriving Repr, DecidableEq

inductive HumanTaskState where
  | opened | assigned | inProgress | resolved | expired | cancelled | escalated
deriving Repr, DecidableEq

inductive HumanTaskKind where
  | approval | validation | exception | captcha | mfa
deriving Repr, DecidableEq

inductive ExceptionClass where
  | business | system | challenge | security
deriving Repr, DecidableEq

/-- The kinds a challenge can ask a person for. -/
inductive ChallengeKind where
  | captcha | mfa
deriving Repr, DecidableEq

/-- The kinds an `@human_task` node can declare. -/
inductive HandlerTaskKind where
  | approval | validation | exception
deriving Repr, DecidableEq

inductive OnTimeout where
  | fail | escalate
deriving Repr, DecidableEq

inductive RunEvent where
  | workerClaimed | runStarted | initFailed
  | stepChallengeDetected (challengeKind : Option ChallengeKind)
  | humanTaskRequired (humanTaskKind : Option HandlerTaskKind)
  | operatorPauseRequested | abortRequested | lastNodeSuccess | unrecoverableException
  | businessException | securityException | bookmarkSaved | bookmarkFailed
  | humanTaskResolved | humanTaskExpired | humanTaskEscalated
  | restoreOk | restoreFailed | finalizeOk | finalizeFailed | drainOk | drainTimeout
deriving Repr, DecidableEq

inductive WorkitemEvent where
  | checkout | runSucceeded | businessException | systemException | checkoutExpired
  | runSuspended | runResumed | manualReplay
deriving Repr, DecidableEq

inductive HumanTaskEvent where
  | assign | start | resolve | timeout | escalate | cancel
deriving Repr, DecidableEq

/-- Guard fields are evaluated by the caller; an absent field is `none`. -/
structure RunGuard where
  leaseAcquired : Option Bool := none
  initOk : Option Bool := none
  initFailBelowThreshold : Option Bool := none
  flowTerminalReached : Option Bool := none
  exceptionClass : Option ExceptionClass := none
  resumeTokenIssued : Option Bool := none
  humanTaskValid : Option Bool := none
  restoreOk : Option Bool := none
  loginBypassPossible : Option Bool := none
  finalizeOk : Option Bool := none
  bookmarkCancelable : Option Bool := none
deriving Repr, DecidableEq

structure WorkitemGuard where
  uniqueReferenceFree : Option Bool := none
  sinkPolicyMet : Option Bool := none
  attemptsBelowMax : Option Bool := none
  backoffElapsed : Option Bool := none
  operatorAuthorized : Option Bool := none
deriving Repr, DecidableEq

structure HumanTaskGuard where
  onTimeout : Option OnTimeout := none
deriving Repr, DecidableEq

/-- The event types of the envelope that the modelled code emits. -/
inductive EventEnvelopeType where
  | runCreated | runStarted | runSuspended | runResumeRequested | runResumed | runCancelled
  | runCompleted | runFailedBusiness | runFailedSystem
  | humanTaskCreated | humanTaskResolved | humanTaskExpired | humanTaskEscalated
  | workitemCompleted | workitemDeadLettered
deriving Repr, DecidableEq

inductive LeaseKind where
  | browser | credential
deriving Repr, DecidableEq

inductive SetField where
  | runWorkerId | workitemCheckedOutBy | workitemCheckedOutAt | workitemAttempts
  | humanTaskAssignee
deriving Repr, DecidableEq

inductive SideEffectCmd where
  | emitEvent (event : EventEnvelopeType)
  | setField (field : SetField)
  | requeue | openCircuit | evaluateDeadLetter | createDeadLetter
  | createHumanTask (humanTaskKind : HumanTaskKind)
  | startBookmark | issueResumeToken | sseClose | browserDrain
  | releaseLease (lease : LeaseKind)
  | killLease (lease : LeaseKind)
  | restoreSession | flushArtifacts | finalizeOutputs | usageFlush | resetStepLoopCounters
  | pauseCheckoutTimer | resumeCheckoutTimer | reassignAssignee | captureFailureScreenshot
  | consistencyRecovery
  | rejectCommand (code : String) (httpStatus : Nat)
  | notify
deriving Repr, DecidableEq

inductive IllegalTransition where
  | run (state : RunState) (event : RunEvent)
  | workitem (state : WorkitemState) (event : WorkitemEvent)
  | humanTask (state : HumanTaskState) (event : HumanTaskEvent)
deriving Repr, DecidableEq

structure TransitionResult (State : Type) where
  next : State
  sideEffects : List SideEffectCmd
deriving Repr, DecidableEq

namespace RunState

/-- `RUN_TERMINAL`. -/
def terminal : RunState → Bool
  | .completed | .cancelled | .failedBusiness | .failedSystem => true
  | _ => false

end RunState

def ChallengeKind.taskKind : ChallengeKind → HumanTaskKind
  | .captcha => .captcha
  | .mfa => .mfa

def HandlerTaskKind.taskKind : HandlerTaskKind → HumanTaskKind
  | .approval => .approval
  | .validation => .validation
  | .exception => .exception

/-! ## Run -/

/-- `transitionRun`, rows R1 to R28. -/
def transitionRun (cur : RunState) (ev : RunEvent) (g : RunGuard) :
    Except IllegalTransition (TransitionResult RunState) :=
  let illegal : Except IllegalTransition (TransitionResult RunState) := .error (.run cur ev)
  match cur, ev with
  -- R1
  | .queued, .workerClaimed =>
    if g.leaseAcquired = some true then .ok ⟨.claimed, [.setField .runWorkerId]⟩ else illegal
  -- R2
  | .claimed, .runStarted =>
    if g.initOk = some true then .ok ⟨.running, [.emitEvent .runStarted]⟩ else illegal
  -- R3a, R3b
  | .claimed, .initFailed =>
    match g.initFailBelowThreshold with
    | some true => .ok ⟨.queued, [.requeue]⟩
    | some false => .ok ⟨.failedSystem, [.openCircuit, .evaluateDeadLetter, .emitEvent .runFailedSystem]⟩
    | none => illegal
  -- R4: the task kind is the challenge's, captcha when it is not given
  | .running, .stepChallengeDetected kind =>
    .ok ⟨.suspending, [.createHumanTask (kind.getD .captcha).taskKind, .startBookmark]⟩
  -- R5: the task kind is the handler's, exception when it is not given
  | .running, .humanTaskRequired kind =>
    .ok ⟨.suspending, [.createHumanTask (kind.getD .exception).taskKind, .startBookmark]⟩
  -- R5b
  | .running, .operatorPauseRequested => .ok ⟨.suspending, [.startBookmark]⟩
  -- R6
  | .running, .abortRequested => .ok ⟨.aborting, [.sseClose, .browserDrain]⟩
  -- R7
  | .running, .lastNodeSuccess =>
    if g.flowTerminalReached = some true then .ok ⟨.completing, [.finalizeOutputs]⟩ else illegal
  -- R8
  | .running, .unrecoverableException =>
    if g.exceptionClass = some .system then
      .ok ⟨.failedSystem, [.captureFailureScreenshot, .evaluateDeadLetter, .emitEvent .runFailedSystem]⟩
    else illegal
  -- R9
  | .running, .businessException =>
    if g.exceptionClass = some .business then .ok ⟨.failedBusiness, [.emitEvent .runFailedBusiness]⟩
    else illegal
  -- R10
  | .running, .securityException =>
    if g.exceptionClass = some .security then .ok ⟨.aborting, [.sseClose, .browserDrain, .notify]⟩
    else illegal
  -- R11
  | .suspending, .bookmarkSaved =>
    if g.resumeTokenIssued = some true then
      .ok ⟨.suspended, [.issueResumeToken, .releaseLease .browser, .emitEvent .runSuspended]⟩
    else illegal
  -- R12
  | .suspending, .bookmarkFailed =>
    .ok ⟨.failedSystem, [.consistencyRecovery, .emitEvent .runFailedSystem]⟩
  -- R26: without a cancelable bookmark the abort waits for `suspended`
  | .suspending, .abortRequested =>
    if g.bookmarkCancelable = some true then .ok ⟨.aborting, [.sseClose, .browserDrain]⟩ else illegal
  -- R13
  | .suspended, .humanTaskResolved =>
    if g.humanTaskValid = some true then .ok ⟨.resumeRequested, [.emitEvent .runResumeRequested]⟩
    else illegal
  -- R14
  | .suspended, .humanTaskExpired =>
    .ok ⟨.failedBusiness, [.evaluateDeadLetter, .notify, .emitEvent .runFailedBusiness]⟩
  -- R15
  | .suspended, .humanTaskEscalated => .ok ⟨.suspended, [.reassignAssignee]⟩
  -- R16
  | .suspended, .abortRequested => .ok ⟨.aborting, []⟩
  -- R17
  | .resumeRequested, .workerClaimed =>
    if g.leaseAcquired = some true then .ok ⟨.resuming, [.restoreSession]⟩ else illegal
  -- R28
  | .resumeRequested, .abortRequested => .ok ⟨.aborting, []⟩
  -- R18
  | .resuming, .restoreOk =>
    if g.restoreOk = some true then .ok ⟨.running, [.emitEvent .runResumed]⟩ else illegal
  -- R19, R20
  | .resuming, .restoreFailed =>
    match g.loginBypassPossible with
    | some true => .ok ⟨.running, [.emitEvent .runResumed]⟩
    | some false => .ok ⟨.failedSystem, [.emitEvent .runFailedSystem]⟩
    | none => illegal
  -- R27
  | .resuming, .abortRequested => .ok ⟨.aborting, [.sseClose, .browserDrain]⟩
  -- R21
  | .completing, .finalizeOk =>
    if g.finalizeOk = some true then
      .ok ⟨.completed, [.flushArtifacts, .finalizeOutputs, .usageFlush, .emitEvent .runCompleted]⟩
    else illegal
  -- R22
  | .completing, .finalizeFailed =>
    .ok ⟨.failedSystem, [.consistencyRecovery, .emitEvent .runFailedSystem]⟩
  -- R25
  | .completing, .abortRequested => .ok ⟨.completing, [.rejectCommand "RUN_ALREADY_TERMINAL" 409]⟩
  -- R23
  | .aborting, .drainOk => .ok ⟨.cancelled, [.releaseLease .browser, .emitEvent .runCancelled]⟩
  -- R24
  | .aborting, .drainTimeout => .ok ⟨.cancelled, [.killLease .browser, .emitEvent .runCancelled]⟩
  | _, _ => illegal

/-- A run that has ended takes no transition. -/
theorem transitionRun_terminal {cur : RunState} (ended : cur.terminal = true) (event : RunEvent)
    (guard : RunGuard) : ∃ error, transitionRun cur event guard = .error error := by
  cases cur <;> first | (cases ended; done) | (cases event <;> exact ⟨_, rfl⟩)

/-! ## Workitem -/

/-- `transitionWorkitem`, rows W1 to W11. -/
def transitionWorkitem (cur : WorkitemState) (ev : WorkitemEvent) (g : WorkitemGuard) :
    Except IllegalTransition (TransitionResult WorkitemState) :=
  let illegal : Except IllegalTransition (TransitionResult WorkitemState) := .error (.workitem cur ev)
  -- W4/W5 and W6/W7 share their branch on the attempts
  let bounded : Except IllegalTransition (TransitionResult WorkitemState) :=
    match g.attemptsBelowMax with
    | some true => .ok ⟨.retry, []⟩
    | some false => .ok ⟨.abandoned, [.createDeadLetter, .emitEvent .workitemDeadLettered]⟩
    | none => illegal
  match cur, ev with
  -- W1
  | .new, .checkout =>
    if g.uniqueReferenceFree = some true then
      .ok ⟨.processing, [.setField .workitemCheckedOutBy, .setField .workitemCheckedOutAt]⟩
    else illegal
  -- W2
  | .processing, .runSucceeded =>
    if g.sinkPolicyMet = some true then .ok ⟨.successful, [.emitEvent .workitemCompleted]⟩ else illegal
  -- W3
  | .processing, .businessException => .ok ⟨.failedBusiness, []⟩
  -- W4, W5
  | .processing, .systemException => bounded
  -- W6, W7
  | .processing, .checkoutExpired => bounded
  -- W9
  | .processing, .runSuspended => .ok ⟨.processing, [.pauseCheckoutTimer]⟩
  -- W11
  | .processing, .runResumed => .ok ⟨.processing, [.resumeCheckoutTimer]⟩
  -- W8
  | .retry, .checkout =>
    if g.backoffElapsed = some true then
      .ok ⟨.processing, [.resetStepLoopCounters, .setField .workitemCheckedOutBy,
        .setField .workitemCheckedOutAt]⟩
    else illegal
  -- W10
  | .abandoned, .manualReplay =>
    if g.operatorAuthorized = some true then .ok ⟨.new, [.setField .workitemAttempts]⟩ else illegal
  | _, _ => illegal

/-! ## Human task -/

/-- `timeoutBranch`, rows H4a and H4b. -/
def timeoutBranch (cur : HumanTaskState) (g : HumanTaskGuard) :
    Except IllegalTransition (TransitionResult HumanTaskState) :=
  match g.onTimeout with
  | some .fail => .ok ⟨.expired, [.emitEvent .humanTaskExpired]⟩
  | some .escalate => .ok ⟨.escalated, [.emitEvent .humanTaskEscalated]⟩
  | none => .error (.humanTask cur .timeout)

/-- `transitionHumanTask`, rows H1 to H8. -/
def transitionHumanTask (cur : HumanTaskState) (ev : HumanTaskEvent) (g : HumanTaskGuard) :
    Except IllegalTransition (TransitionResult HumanTaskState) :=
  let illegal : Except IllegalTransition (TransitionResult HumanTaskState) := .error (.humanTask cur ev)
  -- H5
  let escalation : TransitionResult HumanTaskState :=
    ⟨.escalated, [.emitEvent .humanTaskEscalated, .reassignAssignee]⟩
  match cur, ev with
  -- H7 holds in every state that is not terminal
  | .opened, .cancel | .assigned, .cancel | .inProgress, .cancel | .escalated, .cancel =>
    .ok ⟨.cancelled, []⟩
  -- H1
  | .opened, .assign => .ok ⟨.assigned, [.setField .humanTaskAssignee]⟩
  | .opened, .timeout => timeoutBranch cur g
  | .opened, .escalate => .ok escalation
  -- H2
  | .assigned, .start => .ok ⟨.inProgress, []⟩
  | .assigned, .timeout => timeoutBranch cur g
  | .assigned, .escalate => .ok escalation
  -- H3
  | .inProgress, .resolve => .ok ⟨.resolved, [.emitEvent .humanTaskResolved]⟩
  | .inProgress, .timeout => timeoutBranch cur g
  | .inProgress, .escalate => .ok escalation
  -- H6
  | .escalated, .assign => .ok ⟨.assigned, [.reassignAssignee, .setField .humanTaskAssignee]⟩
  -- H8
  | .escalated, .timeout => .ok ⟨.expired, [.emitEvent .humanTaskExpired]⟩
  | _, _ => illegal

end RpaEnterprise.Runtime
