import RpaEnterprise.Interpreter.Outcomes
import RpaEnterprise.Interpreter.Runs

/-!
# Committed side effects

An action that has committed a side effect is open until the run goes past its node.
The interpreter does not run a node again after a verification if one of its actions
has committed something.  A challenge, however, suspends the node wherever it comes up
among the actions, and the resumed drive runs all of them again.
-/

namespace RpaEnterprise.Interpreter

open Lib Irel
open Executor (PageState)

/-! ## Open actions -/

/-- The run goes past its node: along an edge, to the next tier or to an end.  After a
challenge or a pause the node is still to be done. -/
def Event.leaves : Event → Bool
  | .moved .. | .looped _ | .exited _ | .tierStarted .. => true
  | .ended _ (.suspended context) =>
    match context.kind with
    | .humanTask .. => true
    | .challenge _ | .operatorPause _ => false
  | .ended .. => true
  | .started _ | .visited .. | .executed .. | .healed _ | .evaluated .. => false

/-- The action of a node that was executed. -/
def Event.executedAt? : Event → Option (NodeId × Nat)
  | .executed nodeId index _ => some (nodeId, index)
  | _ => none

/-- The action that reported success and a committed side effect. -/
def Event.committedAt? : Event → Option (NodeId × Nat)
  | .executed nodeId index result =>
    if result.status = .success ∧ result.commits = true then some (nodeId, index) else none
  | _ => none

def openAfter (opened : List (NodeId × Nat)) (event : Event) : List (NodeId × Nat) :=
  if event.leaves then [] else event.committedAt?.toList ++ opened

/-- The actions that have committed a side effect at a node the run is still at. -/
def openCommits (log : List Event) : List (NodeId × Nat) := log.foldl openAfter []

@[simp]
theorem openCommits_concat (log : List Event) (event : Event) :
    openCommits (log ++ [event]) = openAfter (openCommits log) event := by
  simp [openCommits]

/-- No action is executed while it is open. -/
def NoDoubleCommit (log : List Event) : Prop :=
  ∀ position < log.length, ∀ action ∈ log[position]?.bind Event.executedAt?,
    action ∉ openCommits (log.take position)

instance (log : List Event) : Decidable (NoDoubleCommit log) :=
  inferInstanceAs (Decidable (∀ position < log.length, ∀ action ∈ log[position]?.bind Event.executedAt?,
    action ∉ openCommits (log.take position)))

theorem noDoubleCommit_concat {log : List Event} {event : Event} :
    NoDoubleCommit (log ++ [event]) ↔
      NoDoubleCommit log ∧ ∀ action, event.executedAt? = some action → action ∉ openCommits log := by
  unfold NoDoubleCommit
  rw [List.length_append, List.length_singleton, Nat.forall_lt_succ_right]
  refine and_congr (forall₂_congr fun position before => ?_) ?_
  · rw [List.getElem?_append_left before, List.take_append_of_le_length before.le]
  · simp

/-! ## What is open where -/

/-- Between nodes nothing is open; among the actions of a node only what it has executed
in this attempt, and the attempt knows of it. -/
def Control.Allows (opened : List (NodeId × Nat)) : Control → Prop
  | .acting attempt index | .executing attempt index _ =>
    ∀ action ∈ opened, action.2 < index ∧ attempt.nodeCommittedSideEffect = true
  | .verifying attempt _ _ => ∀ action ∈ opened, attempt.nodeCommittedSideEffect = true
  | .flowing _ | .resolving | .threw _ => True
  | .entering .. | .pausing | .returning _ | .advancing _ | .returned _ => opened = []

structure CommitsKept (machine : Machine) : Prop where
  once : NoDoubleCommit machine.log
  allowed : machine.control.Allows (openCommits machine.log)

section Steps

variable {deps : Deps} {machine after : Machine} {attempt : Attempt} {index : Nat} {action : Json}
  {result : StepResult}

/-- A reply to an action is recorded; the action itself was not open. -/
theorem CommitsKept.recorded (kept : CommitsKept machine)
    (control : machine.control = .executing attempt index action) :
    NoDoubleCommit (machine.record index result).log := by
  rw [Machine.record_log, noDoubleCommit_concat]
  refine ⟨kept.once, ?_⟩
  rintro _ ⟨⟩ opened
  have earlier := kept.allowed
  rw [control] at earlier
  exact absurd (earlier _ opened).1 (lt_irrefl index)

/-- A step that closes the node, or adds nothing and goes where nothing is said. -/
theorem CommitsKept.concat {before : Machine} {event : Event} (once : NoDoubleCommit before.log)
    (log : after.log = before.log ++ [event]) (idle : event.executedAt? = none)
    (allowed : after.control.Allows (openAfter (openCommits before.log) event)) : CommitsKept after where
  once := by simp [log, noDoubleCommit_concat, once, idle]
  allowed := by rwa [log, openCommits_concat]

theorem once_evaluating (once : NoDoubleCommit machine.log) (nodeId : NodeId) (scope : IrelScope) :
    NoDoubleCommit (machine.evaluating nodeId scope).log := by
  rw [Machine.evaluating, Machine.emit_log, noDoubleCommit_concat]
  exact ⟨once, by simp [Event.executedAt?]⟩

theorem CommitsKept.stepDone (kept : CommitsKept machine)
    (control : machine.control = .executing attempt index action)
    (harmless : result.status = .suspended → (humanAssistKind result).isSome = true →
      attempt.nodeCommittedSideEffect = false) :
    CommitsKept (machine.stepDone attempt index result) := by
  have once : NoDoubleCommit (machine.record index result).log := kept.recorded control
  have earlier := kept.allowed
  rw [control] at earlier
  unfold Machine.stepDone
  by_cases success : result.status = .success
  · rw [if_pos success]
    refine ⟨once, ?_⟩
    intro done opened
    simp only [Machine.goTo_log, Machine.record_log, openCommits_concat, openAfter, Event.leaves,
      Event.committedAt?, success, true_and, Bool.false_eq_true, if_false, List.mem_append,
      Option.mem_toList] at opened
    rcases opened with here | before
    · by_cases commits : result.commits = true
      · rw [if_pos commits] at here
        cases here
        simp [commits]
      · simp [commits] at here
    · have known := earlier done before
      exact ⟨Nat.lt_succ_of_lt known.1, by simp [Attempt.recorded, known.2]⟩
  · rw [if_neg success]
    have same : openCommits (machine.record index result).log = openCommits machine.log := by
      simp [openAfter, Event.leaves, Event.committedAt?, success]
    unfold Machine.stepFailed
    dsimp only
    split
    · exact .concat once rfl rfl (by simp [Control.Allows, openAfter, Event.leaves])
    · split
      · rename_i suspended
        split
        · exact ⟨once, trivial⟩
        · rename_i challengeKind isChallenge
          have nothing : openCommits machine.log = [] := by
            rw [List.eq_nil_iff_forall_not_mem]
            intro done opened
            exact absurd (earlier done opened).2 (by simp [harmless suspended (by simp [isChallenge])])
          refine .concat once rfl rfl ?_
          simp [Control.Allows, openAfter, Event.leaves, Event.committedAt?, success, nothing]
      · exact ⟨once, trivial⟩

/-- The executor reports a challenge for a person. -/
def RunInput.isChallenge : RunInput → Bool
  | .reply (.executed (.ok result)) => result.status = .suspended && (humanAssistKind result).isSome
  | _ => false

/-- An action is executed after another one of the same attempt that has committed a side
effect. -/
def Control.afterCommit : Control → Bool
  | .executing attempt _ _ => attempt.nodeCommittedSideEffect
  | _ => false

/-- No step answers with a challenge once an earlier action of the attempt has committed
a side effect. -/
def ChallengesFirst (machine : Machine) (input : RunInput) : Prop :=
  input.isChallenge = true → machine.control.afterCommit = false

instance (machine : Machine) (input : RunInput) : Decidable (ChallengesFirst machine input) :=
  inferInstanceAs (Decidable (input.isChallenge = true → machine.control.afterCommit = false))

theorem step_executing (control : machine.control = .executing attempt index action) (input : Input) :
    step deps machine input = machine ∨
      (∃ result, input = .executed (.ok result) ∧ step deps machine input = machine.stepDone attempt index result) ∨
      ∃ message, step deps machine input = machine.throw_ (.other message) := by
  unfold step
  rw [control]
  cases input with
  | executed reply =>
    cases reply with
    | ok result => exact .inr (.inl ⟨result, rfl, rfl⟩)
    | error message => exact .inr (.inr ⟨message, rfl⟩)
  | proceed | pause reply | verified reply | resolved reply => exact .inl rfl

theorem CommitsKept.executing (kept : CommitsKept machine)
    (control : machine.control = .executing attempt index action) (input : Input)
    (first : ChallengesFirst machine (.reply input)) : CommitsKept (step deps machine input) := by
  rcases step_executing control input with same | ⟨result, rfl, done⟩ | ⟨message, threw⟩
  · rwa [same]
  · rw [done]
    refine kept.stepDone control fun suspended isChallenge => ?_
    have harmless := first (by simp [RunInput.isChallenge, suspended, isChallenge])
    rwa [control] at harmless
  · rw [threw]
    exact ⟨kept.once, trivial⟩

/-- The other steps: a node is run again only if nothing is open, and whatever leaves a
node closes it. -/
theorem CommitsKept.moves (kept : CommitsKept machine)
    (idle : ∀ attempt index action, machine.control ≠ .executing attempt index action)
    (moves : Moves deps machine after) : CommitsKept after := by
  obtain ⟨once, allowed⟩ := kept
  cases moves with
  | succeeded attempt index action result control
  | failed attempt index action result terminal control
  | challenged attempt index action result context control
  | unsupported attempt index action result thrown control =>
    exact absurd control (idle attempt index action)
  | threw thrown | unknown cameFrom target control | asked lastResult control
  | verifiedAll attempt criterion control => exact ⟨once, trivial⟩
  | verifiedOne attempt criterion next rest control
  | dispatched node attempt index action dispatchAction control
  | returned terminal control
  | adopted terminal frame outer control
  | askedAdvance terminal frame outer control =>
    rw [control] at allowed
    exact ⟨once, allowed⟩
  | began control =>
    rw [control] at allowed
    exact ⟨once, by simp [Control.Allows, show openCommits machine.log = [] from allowed]⟩
  | acted node attempt index control found done after goesOn =>
    rw [control] at allowed
    rcases goesOn with ⟨criterion, rest, rfl⟩ | rfl
    · exact ⟨once, fun action opened => (allowed action opened).2⟩
    · exact ⟨once, trivial⟩
  | healed attempt criterion rest control harmless =>
    rw [control] at allowed
    have nothing : openCommits machine.log = [] := by
      rw [List.eq_nil_iff_forall_not_mem]
      exact fun done opened => absurd (allowed done opened) (by simp [harmless])
    exact .concat once rfl rfl (by simp [Control.Allows, openAfter, Event.leaves, Event.committedAt?, nothing])
  | visited cameFrom target control
  | paused pause control
  | adoptedWhen terminal frame outer scope control =>
    rw [control] at allowed
    have nothing : openCommits machine.log = [] := allowed
    exact .concat once rfl rfl (by
      simp [Control.Allows, openAfter, Event.leaves, Event.committedAt?, nothing, Machine.pauseContext])
  | handedOver node lastResult input returnNode task context control found flow resumes isTask =>
    exact .concat once rfl rfl (by simp [Control.Allows, openAfter, Event.leaves, isTask])
  | undecided ctx nodeId scope thrown => exact .concat once rfl rfl trivial
  | exited node until_ bodyTarget exitTarget maxIterations pageState scope
  | looped node until_ bodyTarget exitTarget maxIterations pageState scope
  | branched node branches branch pageState scope
  | advancedWhen terminal frame outer next later scope =>
    exact .concat (once_evaluating once _ scope) rfl rfl (by simp [Control.Allows, openAfter, Event.leaves])
  | _ => exact .concat once rfl rfl (by simp [Control.Allows, openAfter, Event.leaves])

theorem CommitsKept.resumed {context : SuspendContext} (kept : CommitsKept machine)
    (suspended : machine.suspension? = some context) (pageState : PageState) (rows : List ResolvedTask) :
    CommitsKept (driveResumedRun deps machine context pageState rows) := by
  obtain ⟨control, -⟩ := suspension?_eq_some suspended
  have nothing := kept.allowed
  rw [control] at nothing
  have closed : openCommits machine.log = [] := nothing
  exact .concat kept.once rfl rfl (by simp [runScenario, Control.Allows, openAfter, Event.leaves, Event.committedAt?, closed])

theorem commitsKept_claimedRun (deps : Deps) (pageState : PageState) :
    CommitsKept (claimedRun deps pageState) := by
  refine ⟨?_, rfl⟩
  intro position inLog action executed
  obtain rfl : position = 0 := by simpa [claimedRun, runScenario] using inLog
  cases executed

end Steps

/-! ## Runs -/

/-- In a run in which no step answers with a challenge after a commit of the same attempt,
no action is executed again between its commit and the end of its node. -/
theorem no_double_commit (deps : Deps) (pageState : PageState) (inputs : List RunInput)
    (first : Along (runStep deps) ChallengesFirst (claimedRun deps pageState) inputs) :
    Throughout (runStep deps) (fun machine => NoDoubleCommit machine.log)
      (claimedRun deps pageState) inputs := by
  have kept : Throughout (runStep deps) CommitsKept (claimedRun deps pageState) inputs := by
    refine run_keeps ?_ ?_ first (commitsKept_claimedRun deps pageState)
    · intro machine after input allowed done holds moves
      by_cases executing : ∃ attempt index action, machine.control = .executing attempt index action
      · obtain ⟨attempt, index, action, control⟩ := executing
        rw [← done]
        exact holds.executing control input allowed
      · refine holds.moves ?_ moves
        exact fun attempt index action control => executing ⟨attempt, index, action, control⟩
    · intro machine context pageState rows _ suspended holds
      exact holds.resumed suspended pageState rows
  exact fun some_ begins => (kept some_ begins).once

/-- A node that submits a form and then confirms it. -/
def orderForm : Deps where
  scenario :=
    { start := "order"
      nodes := [
        ("order",
          { what := [.obj [("type", .str "act"), ("instruction", .str "submit the order")],
              .obj [("type", .str "act"), ("instruction", .str "close the receipt")]]
            flow := .terminal "success" })] }

def submitted : StepResult where
  action := .act
  status := .success
  pageStateAfter := "ps_seed"
  sideEffect := some ⟨.submit, true⟩

def captchaShown : StepResult where
  action := .act
  status := .suspended
  pageStateAfter := "ps_seed"
  challenge := some ⟨.captcha, "dom", 1⟩

/-- A drive enters the node and executes its first action. -/
def firstAction (result : StepResult) : List RunInput :=
  [.reply .proceed, .reply (.pause (.ok none)), .reply .proceed, .reply (.executed (.ok result))]

/-- The next action, and the end of the drive. -/
def lastAction (result : StepResult) : List RunInput :=
  [.reply .proceed, .reply (.executed (.ok result)), .reply .proceed]

/-- A challenge before the order is submitted. -/
theorem no_double_commit_captcha_first :
    Throughout (runStep orderForm) (fun machine => NoDoubleCommit machine.log) (claimedRun orderForm blankPage)
      (firstAction captchaShown ++ [.reply .proceed, .resume blankPage []] ++ firstAction submitted) :=
  no_double_commit orderForm blankPage _ (by decide +kernel)

/-- The order is submitted, the second step meets a captcha, and the resumed drive submits
the order again. -/
theorem submitted_twice :
    ¬ NoDoubleCommit (exec (runStep orderForm) (claimedRun orderForm blankPage)
      (firstAction submitted ++ lastAction captchaShown ++ [.resume blankPage []] ++
        firstAction submitted)).log := by
  decide +kernel

end RpaEnterprise.Interpreter
