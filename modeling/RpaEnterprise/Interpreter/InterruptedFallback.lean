import RpaEnterprise.Interpreter.OperatorPause

/-!
# Fallbacks across suspensions

The fallbacks around a traversal are the call stack of the drive.  A suspension unwinds
it and the resumed drive starts without one, so the end of the interrupted tier is the
end of the drive: the tier after it is not tried.
-/

namespace RpaEnterprise.Interpreter

open Lib Ir Irel
open Executor (PageState)

/-- A run that was suspended inside a tier with another one to follow and no
`advance_when`, was resumed, and whose interrupted tier has then ended in a failure. -/
structure InterruptedTier (deps : Deps) where
  pageState : PageState
  /-- The run up to the end of the tier in a suspension. -/
  before : List RunInput
  /-- The replies until the drive returns. -/
  unwinding : List Input
  /-- What the resume reads. -/
  resumedPage : PageState
  rows : List ResolvedTask
  /-- The run from the resume to the end of the traversal. -/
  onward : List RunInput
  /-- The fallback of the tier, at any depth. -/
  frame : Frame
  next : CompiledFallbackTier
  later : List CompiledFallbackTier
  context : SuspendContext
  terminal : String
  suspends : (exec (runStep deps) (claimedRun deps pageState) before).control = .returning "suspend"
  inside : frame ∈ (exec (runStep deps) (claimedRun deps pageState) before).frames
  plain : frame.tier.advanceWhen = none
  more : frame.rest = next :: later
  returns : (exec (runStep deps) (claimedRun deps pageState)
    (before ++ unwinding.map .reply)).suspension? = some context
  failure : terminal = "fail_business" ∨ terminal = "fail_system"
  ends : (exec (runStep deps) (claimedRun deps pageState)
    (before ++ unwinding.map .reply ++ .resume resumedPage rows :: onward)).control = .returning terminal
  outermost : (exec (runStep deps) (claimedRun deps pageState)
      (before ++ unwinding.map .reply ++ .resume resumedPage rows :: onward)).frames.length =
    (exec (runStep deps) (claimedRun deps pageState)
      (before ++ unwinding.map .reply ++ [.resume resumedPage rows])).frames.length

namespace InterruptedTier

variable {deps : Deps}

/-- The run at the end of the interrupted tier. -/
def ended (run : InterruptedTier deps) : Machine :=
  exec (runStep deps) (claimedRun deps run.pageState)
    (run.before ++ run.unwinding.map .reply ++ .resume run.resumedPage run.rows :: run.onward)

/-- The next tier is tried after the interrupted one. -/
def GoesOn (run : InterruptedTier deps) : Prop :=
  ∃ inputs, .tierStarted run.frame.nodeId run.next ∈
    (exec (runStep deps) run.ended inputs).log.drop run.ended.log.length

theorem resumed_frames (run : InterruptedTier deps) :
    (exec (runStep deps) (claimedRun deps run.pageState)
      (run.before ++ run.unwinding.map .reply ++ [.resume run.resumedPage run.rows])).frames = [] := by
  rw [exec_append, exec_cons, exec_nil, runStep, run.returns]
  rfl

theorem ended_frames (run : InterruptedTier deps) : run.ended.frames = [] := by
  rw [← List.length_eq_zero_iff, ended, run.outermost, run.resumed_frames, List.length_nil]

end InterruptedTier

/-- A drive whose outermost traversal has ended, other than in a suspension. -/
structure Ended (terminal : String) (log : List Event) (machine : Machine) : Prop where
  control : machine.control = .returning terminal ∨ machine.control = .returned terminal
  frames : machine.frames = []
  log : machine.log = log

theorem Ended.runStep {deps : Deps} {terminal : String} {log : List Event} {machine : Machine}
    (goesOn : terminal ≠ "suspend") (ended : Ended terminal log machine) (input : RunInput) :
    Ended terminal log (runStep deps machine input) := by
  cases input with
  | reply input =>
    by_cases awaits : machine.Awaits input
    · rcases ended.control with returning | returned
      · cases input with
        | proceed =>
          have returns : step deps machine .proceed = machine.goTo (.returned terminal) := by
            simp [step, returning, Machine.return_, ended.frames]
          rw [Interpreter.runStep, returns]
          exact ⟨.inr rfl, ended.frames, ended.log⟩
        | _ => simp [Machine.Awaits, returning, Control.awaits] at awaits
      · simp [Machine.Awaits, returned, Control.awaits] at awaits
    · rwa [Interpreter.runStep, step_eq_self awaits]
  | resume pageState rows =>
    have unsuspended : machine.suspension? = none := by
      unfold Machine.suspension?
      rcases ended.control with same | same <;> simp [same, goesOn]
    simpa [Interpreter.runStep, unsuspended] using ended

theorem Ended.exec {deps : Deps} {terminal : String} {log : List Event} {machine : Machine}
    (goesOn : terminal ≠ "suspend") (ended : Ended terminal log machine) (inputs : List RunInput) :
    Ended terminal log (exec (Interpreter.runStep deps) machine inputs) :=
  @exec_invariant _ _ _ (Ended terminal log) (fun _ input ended => ended.runStep goesOn input) _ ended inputs

theorem InterruptedTier.not_goesOn {deps : Deps} (run : InterruptedTier deps) : ¬ run.GoesOn := by
  rintro ⟨inputs, member⟩
  have unsuspended : run.terminal ≠ "suspend" := by
    rcases run.failure with business | system
    · simp [business]
    · simp [system]
  have isOver : Ended run.terminal run.ended.log run.ended := ⟨.inl run.ends, run.ended_frames, rfl⟩
  rw [(isOver.exec unsuspended inputs).log, List.drop_length] at member
  cases member

/-- Without a suspension a tier that fails is followed by the next one; after one it
never is. -/
theorem interrupted_fallback_never_goes_on (deps : Deps) (run : InterruptedTier deps) :
    (∀ (machine : Machine) (outer : List Frame), machine.control = .returning run.terminal →
      machine.frames = run.frame :: outer →
      (step deps machine .proceed).log = machine.log ++ [.tierStarted run.frame.nodeId run.next]) ∧
    ¬ run.GoesOn := by
  constructor
  · intro machine outer control inside
    have failure : run.terminal ≠ "fail_security" ∧ isFailureTerminal run.terminal = true := by
      rcases run.failure with business | system
      · rw [business]
        decide
      · rw [system]
        decide
    simp [step, control, Machine.return_, inside, failure, run.more, run.plain]
  · exact run.not_goesOn

/-- Two ways to make an offer; the first fails. -/
def failingOfferScenario : IrScenario where
  start := "offer"
  nodes := [
    ("offer", .obj [("fallback_chain", .arr [
      .obj [("tier", .str "T0"), ("entry_node", .str "quick")],
      .obj [("tier", .str "T1"), ("entry_node", .str "careful")]])]),
    ("quick", .obj [("terminal", .str "fail_business")]),
    ("careful", .obj [("terminal", .str "success")])]

/-- The operator pauses the run in the first tier. -/
def pauseInQuick : List RunInput := (toQuick ++ [Input.pause (.ok (some offerPause))]).map .reply

def quickUnwinds : List Input := [.proceed, .proceed]

/-- The resumed drive goes to the end of the tier. -/
def quickFails : List RunInput := [Input.proceed, .pause (.ok none), .proceed, .proceed].map .reply

/-- The operator's pause takes the second tier from the run: it ends in `fail_business`. -/
theorem second_tier_never_tried :
    ∃ deps compiledAst, CompilesTo failingOfferScenario none compiledAst ∧
      compiledScenarioFrom plainHost failingOfferScenario compiledAst deps.params = .ok deps.scenario ∧
      ∃ run : InterruptedTier deps, run.terminal = "fail_business" ∧ ¬ run.GoesOn := by
  have stages : (drivesOf failingOfferScenario).map (fun deps =>
      let start := claimedRun deps blankPage
      let suspended := exec (runStep deps) start pauseInQuick
      let returned := exec (runStep deps) start (pauseInQuick ++ quickUnwinds.map .reply)
      let ended := exec (runStep deps) start
        (pauseInQuick ++ quickUnwinds.map .reply ++ .resume blankPage [] :: quickFails)
      (suspended.control matches .returning "suspend") && (ended.control matches .returning "fail_business") &&
        ended.frames.isEmpty && returned.suspension?.isSome &&
        suspended.frames.any fun frame => frame.tier.advanceWhen.isNone && !frame.rest.isEmpty) = some true := by
    decide +kernel
  obtain ⟨deps, drives, all⟩ := Option.map_eq_some_iff.mp stages
  obtain ⟨compiledAst, compiles, translated⟩ := drivesOf_eq_some drives
  simp only [Bool.and_eq_true, List.any_eq_true, Option.isNone_iff_eq_none, List.isEmpty_iff] at all
  obtain ⟨⟨⟨⟨suspends, ends⟩, outermost⟩, returns⟩, frame, inside, plain, more⟩ := all
  obtain ⟨context, isContext⟩ := Option.isSome_iff_exists.mp returns
  obtain ⟨next, later, more⟩ : ∃ next later, frame.rest = next :: later := by
    cases rest : frame.rest with
    | nil => simp [rest] at more
    | cons next later => exact ⟨next, later, rfl⟩
  let run : InterruptedTier deps :=
    { pageState := blankPage, before := pauseInQuick, unwinding := quickUnwinds, resumedPage := blankPage
      rows := [], onward := quickFails, frame, next, later, context, terminal := "fail_business"
      suspends := by
        split at suspends
        · assumption
        · cases suspends
      inside, plain, more
      returns := isContext
      failure := .inl rfl
      ends := by
        split at ends
        · assumption
        · cases ends
      outermost := by
        rw [outermost, exec_append, exec_cons, exec_nil, runStep, isContext]
        rfl }
  exact ⟨deps, compiledAst, compiles, translated, run, rfl, run.not_goesOn⟩

end RpaEnterprise.Interpreter
