import RpaEnterprise.Interpreter.StepBudget

/-!
# Operator pauses inside fallbacks

A pause ends the innermost traversal with `suspend`.  A fallback around it takes that
for the end of its tier: on a tier that is not the last and has an `advance_when`, the
condition decides over what the interrupted tier left, and a further tier may run.
-/

namespace RpaEnterprise.Interpreter

open Lib Ir Irel
open Executor (PageState)

def Event.startsTier : Event → Bool
  | .tierStarted .. => true
  | _ => false

/-- The drive returned `suspend` with this context and started so many tiers. -/
structure SuspendedWith (context : SuspendContext) (tiers : Nat) (last : Machine) : Prop where
  returns : last.control = .returned "suspend"
  context : last.state.suspendBox = some context
  tiers : last.log.countP Event.startsTier = tiers

/-- The page states the resolver answered with, in order. -/
def resolvedPages (inputs : List Input) : List (Except String PageState) :=
  inputs.filterMap fun input => match input with
    | .resolved reply => some reply
    | _ => none

/-- Each fallback, from the innermost on, is at its last tier or has no `advance_when` at
its tier, or the resolver answers and the condition is false.  The fallbacks inside have
their outputs by then. -/
def LetThrough (deps : Deps) : List (String × Json) → List Frame → List (Except String PageState) → Prop
  | _, [], _ => True
  | nodeScope, frame :: outer, pages =>
    let adopted := setOutput frame.nodeId
      [("status", .str (terminalToStatus "suspend").text), ("tier", .str frame.tier.tier)] nodeScope
    match frame.rest, frame.tier.advanceWhen with
    | _ :: _, some condition =>
      match pages with
      | .ok pageState :: later =>
        evaluateCondition deps condition
          { params := deps.params, node := some (.obj nodeScope)
            flags := some (Machine.flagsJson pageState.flags) } = .ok false ∧
          LetThrough deps adopted outer later
      | _ => False
    | _, _ => LetThrough deps adopted outer pages

section Unwinding

variable {deps : Deps} {machine : Machine}

/-- A step adds to the log. -/
theorem log_prefix_step (input : Input) : machine.log <+: (step deps machine input).log := by
  rcases step_moves deps machine input with same | moves
  · rw [same]
  · generalize step deps machine input = after at moves
    cases moves <;> simp [List.append_assoc]

theorem log_prefix_exec (inputs : List Input) : machine.log <+: (exec (step deps) machine inputs).log := by
  induction inputs generalizing machine with
  | nil => exact List.prefix_rfl
  | cons input rest ih => exact (log_prefix_step input).trans ih

/-- A settled drive takes no reply. -/
theorem eq_nil_of_settled {inputs : List Input} (settled : machine.Settled)
    (awaited : Along (step deps) Machine.Awaits machine inputs) :
    inputs = [] := by
  cases inputs with
  | nil => rfl
  | cons input rest =>
    have awaits := awaited.1
    unfold Machine.Settled Control.settled at settled
    split at settled <;> simp_all [Machine.Awaits, Control.awaits]

/-- A drive that has started one more tier ends with more tiers. -/
theorem not_suspendedWith_of_tier {context : SuspendContext} {tiers : Nat} (inputs : List Input)
    (more : tiers < machine.log.countP Event.startsTier) :
    ¬ SuspendedWith context tiers (exec (step deps) machine inputs) := by
  intro suspended
  have grows : machine.log.countP Event.startsTier ≤
      (exec (step deps) machine inputs).log.countP Event.startsTier :=
    (log_prefix_exec inputs).sublist.countP_le
  exact absurd suspended.tiers (by omega)

/-- A drive that threw did not suspend. -/
theorem not_suspendedWith_of_threw {context : SuspendContext} {tiers : Nat} {thrown : Thrown}
    {inputs : List Input} (threw : machine.control = .threw thrown)
    (awaited : Along (step deps) Machine.Awaits machine inputs) :
    ¬ SuspendedWith context tiers (exec (step deps) machine inputs) := by
  obtain rfl := eq_nil_of_settled (by simp [Machine.Settled, Control.settled, threw]) awaited
  intro suspended
  have returns := suspended.returns
  rw [exec_nil, threw] at returns
  cases returns

/-- The end of a traversal that is on its way out of the fallbacks around it. -/
structure Unwinding (context : SuspendContext) (tiers : Nat) (frames : List Frame) (machine : Machine) :
    Prop where
  control : machine.control = .returning "suspend"
  frames : machine.frames = frames
  context : machine.state.suspendBox = some context
  tiers : machine.log.countP Event.startsTier = tiers

theorem Unwinding.adopt {context : SuspendContext} {tiers : Nat} {frame : Frame} {outer : List Frame}
    (box : machine.state.suspendBox = some context)
    (count : machine.log.countP Event.startsTier = tiers) :
    Unwinding context tiers outer (machine.adopt frame outer "suspend") :=
  ⟨rfl, rfl, box, count⟩

/-- The next reply at the end of a traversal. -/
theorem Unwinding.proceeds {context : SuspendContext} {tiers : Nat} {frames : List Frame}
    {inputs : List Input} (unwinding : Unwinding context tiers frames machine)
    (awaited : Along (step deps) Machine.Awaits machine inputs)
    (settled : (exec (step deps) machine inputs).Settled) :
    ∃ rest, inputs = .proceed :: rest := by
  cases inputs with
  | nil => simp [Machine.Settled, Control.settled, unwinding.control] at settled
  | cons input rest =>
    have awaits := awaited.1
    rw [Machine.Awaits, unwinding.control] at awaits
    cases input with
    | proceed => exact ⟨rest, rfl⟩
    | _ => cases awaits

/-- The next reply where `advance_when` waits for the page. -/
theorem exists_resolved {terminal : String} {inputs : List Input}
    (control : machine.control = .advancing terminal)
    (awaited : Along (step deps) Machine.Awaits machine inputs)
    (settled : (exec (step deps) machine inputs).Settled) :
    ∃ reply rest, inputs = .resolved reply :: rest := by
  cases inputs with
  | nil => simp [Machine.Settled, Control.settled, control] at settled
  | cons input rest =>
    have awaits := awaited.1
    rw [Machine.Awaits, control] at awaits
    cases input with
    | resolved reply => exact ⟨reply, rest, rfl⟩
    | _ => cases awaits

/-- A fallback whose `advance_when` is asked lets the suspension through exactly if the
condition is false; the fallbacks outside are then asked in turn. -/
theorem suspendedWith_advancing_iff {context : SuspendContext} {tiers : Nat} {frame : Frame}
    {outer : List Frame} {next : CompiledFallbackTier} {later : List CompiledFallbackTier}
    {condition : IrelNode} {reply : Except String PageState} {rest : List Input}
    (unwinding : Unwinding context tiers (frame :: outer) machine) (more : frame.rest = next :: later)
    (asks : frame.tier.advanceWhen = some condition)
    (awaited : Along (step deps) Machine.Awaits (machine.goTo (.advancing "suspend")) (.resolved reply :: rest))
    (settled : (exec (step deps) (machine.goTo (.advancing "suspend")) (.resolved reply :: rest)).Settled)
    (outside : ∀ {machine : Machine} {inputs : List Input}, Unwinding context tiers outer machine →
      Along (step deps) Machine.Awaits machine inputs → (exec (step deps) machine inputs).Settled →
      (SuspendedWith context tiers (exec (step deps) machine inputs) ↔
        LetThrough deps machine.state.nodeScope outer (resolvedPages inputs))) :
    SuspendedWith context tiers
        (exec (step deps) (machine.goTo (.advancing "suspend")) (.resolved reply :: rest)) ↔
      LetThrough deps machine.state.nodeScope (frame :: outer) (resolvedPages (.resolved reply :: rest)) := by
  have pages : resolvedPages (.resolved reply :: rest) = reply :: resolvedPages rest := rfl
  have awaited := awaited.2
  rw [exec_cons] at settled ⊢
  simp only [LetThrough, more, asks, pages]
  cases reply with
  | error message => exact iff_of_false (not_suspendedWith_of_threw rfl awaited) id
  | ok pageState =>
    simp only [step, Machine.goTo_control, Machine.advanceFlow, Machine.goTo_frames, unwinding.frames,
      asks, more] at awaited settled ⊢
    -- the pause leaves the node outputs as they are
    have sees : (machine.goTo (.advancing "suspend")).scope deps pageState =
      { params := deps.params, node := some (.obj machine.state.nodeScope)
        flags := some (Machine.flagsJson pageState.flags) } := rfl
    rw [← sees]
    cases decided : evaluateCondition deps condition
      ((machine.goTo (.advancing "suspend")).scope deps pageState) with
    | error thrown =>
      simp only [decided] at awaited settled ⊢
      exact iff_of_false (not_suspendedWith_of_threw rfl awaited) (by simp)
    | ok advance =>
      cases advance with
      | true =>
        simp only [decided] at awaited settled ⊢
        refine iff_of_false (not_suspendedWith_of_tier rest ?_) (by simp)
        simp [← unwinding.tiers, Event.startsTier]
      | false =>
        simp only [decided, true_and] at awaited settled ⊢
        refine outside (.adopt unwinding.context ?_) awaited settled
        simp [unwinding.tiers, Event.startsTier]

/-- The drive suspends exactly if every fallback lets it through. -/
theorem suspendedWith_iff {context : SuspendContext} {tiers : Nat} {frames : List Frame}
    {inputs : List Input} (unwinding : Unwinding context tiers frames machine)
    (awaited : Along (step deps) Machine.Awaits machine inputs)
    (settled : (exec (step deps) machine inputs).Settled) :
    SuspendedWith context tiers (exec (step deps) machine inputs) ↔
      LetThrough deps machine.state.nodeScope frames (resolvedPages inputs) := by
  induction frames generalizing machine inputs with
  | nil =>
    obtain ⟨rest, rfl⟩ := unwinding.proceeds awaited settled
    have returned : step deps machine .proceed = machine.goTo (.returned "suspend") := by
      simp [step, unwinding.control, Machine.return_, unwinding.frames]
    have awaited := awaited.2
    rw [returned] at awaited
    obtain rfl := eq_nil_of_settled (by simp [Machine.Settled, Control.settled]) awaited
    rw [exec_cons, exec_nil, returned]
    exact ⟨fun _ => trivial, fun _ => ⟨rfl, unwinding.context, unwinding.tiers⟩⟩
  | cons frame outer ih =>
    obtain ⟨rest, rfl⟩ := unwinding.proceeds awaited settled
    have onward : step deps machine .proceed = machine.return_ "suspend" := by
      simp [step, unwinding.control]
    have awaited := awaited.2
    rw [onward] at awaited
    rw [exec_cons, onward] at settled ⊢
    have pages : resolvedPages (.proceed :: rest) = resolvedPages rest := rfl
    rw [pages]
    have adopted : Unwinding context tiers outer (machine.adopt frame outer "suspend") :=
      .adopt unwinding.context unwinding.tiers
    have continues : ¬ ("suspend" = "fail_security") ∧ isFailureTerminal "suspend" = false := by decide
    cases more : frame.rest with
    | nil =>
      simp only [Machine.return_, unwinding.frames, continues.1, if_false, more] at awaited settled ⊢
      simp only [LetThrough, more]
      exact ih adopted awaited settled
    | cons next later =>
      cases asks : frame.tier.advanceWhen with
      | none =>
        simp only [Machine.return_, unwinding.frames, continues, if_false, more, asks,
          Bool.false_eq_true] at awaited settled ⊢
        simp only [LetThrough, more, asks]
        exact ih adopted awaited settled
      | some condition =>
        simp only [Machine.return_, unwinding.frames, continues.1, if_false, more, asks] at awaited settled ⊢
        obtain ⟨reply, rest, rfl⟩ := exists_resolved rfl awaited settled
        exact suspendedWith_advancing_iff unwinding more asks awaited settled ih

end Unwinding

/-! ## Pauses -/

/-- An operator's pause is reported at a visit, and the questions after it are answered.
The drive then comes to an end, and it is the suspension of that visit, without a further
tier, exactly if the fallbacks around the visit let it through. -/
theorem operator_pause_wins_iff (deps : Deps) (machine : Machine) (pause : OperatorPauseDecision)
    (replies : ℕ → Input) (visiting : machine.control = .pausing)
    (answered : Answered (step deps) Machine.Settled Machine.Awaits
      (step deps machine (.pause (.ok (some pause)))) replies) :
    ∃ count, (exec (step deps) machine
        (.pause (.ok (some pause)) :: (List.range count).map replies)).Settled ∧
      (SuspendedWith (machine.pauseContext pause) (machine.log.countP Event.startsTier)
          (exec (step deps) machine (.pause (.ok (some pause)) :: (List.range count).map replies)) ↔
        LetThrough deps machine.state.nodeScope machine.frames
          (resolvedPages ((List.range count).map replies))) := by
  have paused : step deps machine (.pause (.ok (some pause))) =
      (machine.suspendWith (machine.pauseContext pause)).endWith
        (.suspended (machine.pauseContext pause)) := by
    simp [step, visiting]
  simp only [exec_cons, paused] at answered ⊢
  obtain ⟨count, settled, awaited⟩ := exists_complete answered (settles (by trivial) answered)
  refine ⟨count, settled, suspendedWith_iff ⟨rfl, rfl, rfl, ?_⟩ awaited settled⟩
  simp [Event.startsTier]

/-- Two ways to make an offer; the second is tried if the page is blocked. -/
def offerScenario : IrScenario where
  start := "offer"
  nodes := [
    ("offer", .obj [("fallback_chain", .arr [
      .obj [("tier", .str "T0"), ("entry_node", .str "quick"), ("advance_when", .str "flags.blocked")],
      .obj [("tier", .str "T1"), ("entry_node", .str "careful")]])]),
    ("quick", .obj [("terminal", .str "success")]),
    ("careful", .obj [("terminal", .str "success")])]

/-- The drive comes to the first node of the first tier. -/
def toQuick : List Input := [.proceed, .pause (.ok none), .proceed, .proceed, .proceed]

def offerPause : OperatorPauseDecision := ⟨"pause-1", none⟩

/-- The page is asked for once, after the tier. -/
def offerReplies (blocked : Bool) : ℕ → Input
  | 1 => .resolved (.ok { blankPage with flags := [("blocked", blocked)] })
  | _ => .proceed

/-- The drive at the visit of the first tier. -/
def atQuick (deps : Deps) : Machine := drive deps { nodeId := "offer", pageState := blankPage } none [] toQuick

theorem settled_step (deps : Deps) (machine : Machine) (input : Input) (settled : machine.Settled) :
    (step deps machine input).Settled := by
  have ignored : ¬ machine.Awaits input := by
    intro awaits
    have none := @eq_nil_of_settled deps machine [input] settled ⟨awaits, trivial⟩
    cases none
  rwa [step_eq_self ignored]

/-- On a page that is not blocked the fallback lets the pause through. -/
theorem operator_pause_wins_iff_offer :
    ∃ deps compiledAst, CompilesTo offerScenario none compiledAst ∧
      compiledScenarioFrom plainHost offerScenario compiledAst deps.params = .ok deps.scenario ∧
      ∃ count, (exec (step deps) (atQuick deps)
          (.pause (.ok (some offerPause)) :: (List.range count).map (offerReplies false))).Settled ∧
        (SuspendedWith ((atQuick deps).pauseContext offerPause) ((atQuick deps).log.countP Event.startsTier)
            (exec (step deps) (atQuick deps)
              (.pause (.ok (some offerPause)) :: (List.range count).map (offerReplies false))) ↔
          LetThrough deps (atQuick deps).state.nodeScope (atQuick deps).frames
            (resolvedPages ((List.range count).map (offerReplies false)))) := by
  have runs : (drivesOf offerScenario).map (fun deps =>
      let paused := step deps (atQuick deps) (.pause (.ok (some offerPause)))
      let replies := (List.range 3).map (offerReplies false)
      ((atQuick deps).control matches .pausing) &&
        decide (Along (step deps) Machine.Awaits paused replies ∧
          (exec (step deps) paused replies).Settled)) = some true := by decide +kernel
  obtain ⟨deps, drives, all⟩ := Option.map_eq_some_iff.mp runs
  obtain ⟨compiledAst, compiles, translated⟩ := drivesOf_eq_some drives
  rw [Bool.and_eq_true, decide_eq_true_iff] at all
  obtain ⟨visits, awaited, settled⟩ := all
  have visiting : (atQuick deps).control = .pausing := by
    split at visits
    · assumption
    · cases visits
  exact ⟨deps, compiledAst, compiles, translated, operator_pause_wins_iff deps (atQuick deps) offerPause
    (offerReplies false) visiting (answered_of_complete (settled_step deps) awaited settled)⟩

/-- What a drive has returned. -/
def Control.outcome : Control → Option String
  | .returned terminal => some terminal
  | _ => none

theorem Control.eq_returned {control : Control} {terminal : String} (outcome : control.outcome = some terminal) :
    control = .returned terminal := by
  unfold Control.outcome at outcome
  split at outcome
  · rw [Option.some.inj outcome]
  · cases outcome

/-- On a blocked page the second tier runs after the pause, and the drive returns
`success`. -/
theorem pause_runs_next_tier :
    ∃ deps compiledAst, CompilesTo offerScenario none compiledAst ∧
      compiledScenarioFrom plainHost offerScenario compiledAst deps.params = .ok deps.scenario ∧
      (atQuick deps).control = .pausing ∧
      (exec (step deps) (atQuick deps) (.pause (.ok (some offerPause)) ::
        ((List.range 3).map (offerReplies true) ++
          [.pause (.ok none), .proceed, .proceed, .proceed, .proceed]))).control = .returned "success" := by
  have runs : (drivesOf offerScenario).map (fun deps =>
      ((atQuick deps).control matches .pausing) &&
      decide ((exec (step deps) (atQuick deps) (.pause (.ok (some offerPause)) ::
        ((List.range 3).map (offerReplies true) ++
          [.pause (.ok none), .proceed, .proceed, .proceed, .proceed]))).control.outcome = some "success")) =
      some true := by decide +kernel
  obtain ⟨deps, drives, all⟩ := Option.map_eq_some_iff.mp runs
  obtain ⟨compiledAst, compiles, translated⟩ := drivesOf_eq_some drives
  rw [Bool.and_eq_true, decide_eq_true_iff] at all
  obtain ⟨visits, returns⟩ := all
  refine ⟨deps, compiledAst, compiles, translated, ?_, Control.eq_returned returns⟩
  split at visits
  · assumption
  · cases visits

end RpaEnterprise.Interpreter
