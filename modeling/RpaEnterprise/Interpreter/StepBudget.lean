import Mathlib
import RpaEnterprise.Interpreter.LoopBound
import RpaEnterprise.Lib.Descent

/-!
# The step budget

Every visit of a node and every self-heal retry is paid from one budget that all
traversals share.  Between two payments the procedure only goes down: through the
actions and the criteria of a node, to its flow, and out of the fallbacks that end
with it.  So a drive whose questions are answered comes to an end.
-/

namespace RpaEnterprise.Interpreter

open Lib Ir Irel
open Executor (PageState)

/-! ## Questions and ends -/

/-- The reply the procedure goes on with. -/
def Control.awaits : Control → Input → Bool
  | .entering .., .proceed | .acting .., .proceed | .flowing _, .proceed | .returning _, .proceed
  | .pausing, .pause _ | .executing .., .executed _ | .verifying .., .verified _
  | .resolving, .resolved _ | .advancing _, .resolved _ => true
  | _, _ => false

def Machine.Awaits (machine : Machine) (input : Input) : Prop := machine.control.awaits input = true

instance (machine : Machine) (input : Input) : Decidable (machine.Awaits input) :=
  inferInstanceAs (Decidable (_ = true))

def Control.settled : Control → Bool
  | .returned _ | .threw _ => true
  | _ => false

/-- The promise of `runScenario` is settled. -/
def Machine.Settled (machine : Machine) : Prop := machine.control.settled = true

instance (machine : Machine) : Decidable machine.Settled := inferInstanceAs (Decidable (_ = true))

def Event.isRetry : Event → Bool
  | .healed _ => true
  | _ => false

/-- The visits of nodes and the self-heal retries. -/
def Machine.taken (machine : Machine) : Nat :=
  machine.state.visited.length + machine.log.countP Event.isRetry

/-! ## Going down -/

/-- The node suits the question that is asked at it. -/
def Machine.Poised (deps : Deps) (machine : Machine) : Prop :=
  match machine.control with
  | .pausing | .acting .. | .flowing _ => ∃ node, deps.scenario.node machine.nodeId = some node
  | .executing _ index _ =>
    ∃ node, deps.scenario.node machine.nodeId = some node ∧ index < node.what.length
  | .verifying .. => ∃ node verify, deps.scenario.node machine.nodeId = some node ∧ node.verify = some verify
  | .resolving => ∃ node, deps.scenario.node machine.nodeId = some node ∧
      ((∃ branches, node.flow = .on branches) ∨
        ∃ until_ bodyTarget exitTarget maxIterations, node.flow = .loop until_ bodyTarget exitTarget maxIterations)
  | .advancing _ => ∃ frame outer condition next later, machine.frames = frame :: outer ∧
      frame.tier.advanceWhen = some condition ∧ frame.rest = next :: later
  | _ => True

/-- What is still to be done before the next payment. -/
def Machine.level (deps : Deps) (machine : Machine) : Nat :=
  let node := deps.scenario.node machine.nodeId
  let actions := ((node.map ScenarioNode.what).getD []).length
  let criteria := (((node.bind ScenarioNode.verify).map NodeVerify.criteria).getD []).length
  let enclosing := 2 * machine.frames.length
  match machine.control with
  | .returned _ | .threw _ => 0
  | .entering .. => 1
  | .advancing _ => enclosing + 1
  | .returning _ => enclosing + 2
  | .resolving => enclosing + 3
  | .flowing _ => enclosing + 4
  | .verifying _ _ rest => enclosing + 5 + rest.length
  | .executing _ index _ => enclosing + 5 + criteria + 2 * (actions - index)
  | .acting _ index => enclosing + 6 + criteria + 2 * (actions - index)
  | .pausing => enclosing + 7 + criteria + 2 * actions

/-- A step pays, or goes down for nothing. -/
inductive Drops (deps : Deps) (machine after : Machine) : Prop where
  | pays (affords : 0 < machine.state.budget) (paid : after.state.budget = machine.state.budget - 1)
      (took : after.taken ≤ machine.taken + 1)
  | lowers (kept : after.state.budget = machine.state.budget) (same : after.taken = machine.taken)
      (lower : after.level deps < machine.level deps)

structure Descends (deps : Deps) (machine after : Machine) : Prop where
  poised : after.Poised deps
  drops : Drops deps machine after

section Stages

variable {deps : Deps} {machine : Machine}

/-- A step that leaves the budget, the visits and the log alone. -/
theorem Descends.silent {after : Machine} (kept : after.state.budget = machine.state.budget)
    (visits : after.state.visited = machine.state.visited)
    (retries : after.log.countP Event.isRetry = machine.log.countP Event.isRetry)
    (lower : after.level deps < machine.level deps) (poised : after.Poised deps) :
    Descends deps machine after := by
  refine ⟨poised, .lowers kept ?_ lower⟩
  rw [Machine.taken, Machine.taken, visits, retries]

theorem Descends.threw {after : Machine} {thrown : Thrown} (kept : after.state.budget = machine.state.budget)
    (visits : after.state.visited = machine.state.visited)
    (retries : after.log.countP Event.isRetry = machine.log.countP Event.isRetry)
    (busy : 0 < machine.level deps) : Descends deps machine (after.throw_ thrown) :=
  .silent kept visits retries busy trivial

theorem level_pos {input : Input} (awaits : machine.Awaits input) : 0 < machine.level deps := by
  unfold Machine.Awaits Control.awaits at awaits
  unfold Machine.level
  split at awaits <;> simp_all

theorem enter_descends {cameFrom : Option NodeId} {target : NodeId}
    (control : machine.control = .entering cameFrom target) :
    Descends deps machine (machine.enter deps cameFrom target) := by
  unfold Machine.enter
  by_cases spent : machine.state.budget ≤ 0
  · rw [if_pos spent]
    exact .threw rfl rfl rfl (by simp [Machine.level, control])
  · rw [if_neg spent]
    have affords := Rat.not_le.mp spent
    by_cases isEnd : target = Ir.endNoDataTarget
    · rw [if_pos isEnd]
      exact ⟨trivial, .pays affords rfl (by simp [Machine.taken, Event.isRetry])⟩
    · rw [if_neg isEnd]
      cases found : deps.scenario.node target with
      | none => exact ⟨trivial, .pays affords rfl (by simp [Machine.taken])⟩
      | some node =>
        refine ⟨⟨node, found⟩, .pays affords rfl ?_⟩
        simp [Machine.taken, Event.isRetry, Nat.add_right_comm]

theorem nextAction_descends {node : ScenarioNode} {attempt : Attempt} {index : Nat}
    (control : machine.control = .acting attempt index)
    (found : deps.scenario.node machine.nodeId = some node) :
    Descends deps machine (machine.nextAction node attempt index) := by
  unfold Machine.nextAction
  cases planned : node.what[index]? with
  | none =>
    dsimp only [Machine.actionsDone]
    split
    · rename_i criterion rest criteria
      obtain ⟨verify, verifies, listed⟩ := Option.map_eq_some_iff.mp criteria
      refine .silent rfl rfl rfl ?_ ⟨node, verify, found, verifies⟩
      simp [Machine.level, control, found, verifies, listed]
      omega
    all_goals
      refine .silent rfl rfl rfl ?_ ⟨node, found⟩
      simp [Machine.level, control]
      omega
  | some action =>
    dsimp only
    cases resolveActionValueFromNode action machine.state.nodeScope with
    | error message => exact .threw rfl rfl rfl (by simp [Machine.level, control])
    | ok dispatchAction =>
      refine .silent rfl rfl rfl ?_ ⟨node, found, (List.getElem?_eq_some_iff.mp planned).1⟩
      simp [Machine.level, control]

theorem stepDone_descends {attempt : Attempt} {index : Nat} {action : Json}
    (control : machine.control = .executing attempt index action) (poised : machine.Poised deps)
    (result : StepResult) : Descends deps machine (machine.stepDone attempt index result) := by
  simp only [Machine.Poised, control] at poised
  obtain ⟨node, found, below⟩ := poised
  have kept : (machine.log ++ [Event.executed machine.nodeId index result]).countP Event.isRetry =
      machine.log.countP Event.isRetry := by simp [Event.isRetry]
  unfold Machine.stepDone
  dsimp only
  split
  · refine .silent rfl rfl kept ?_ ⟨node, found⟩
    simp [Machine.level, control, found]
    omega
  · unfold Machine.stepFailed
    dsimp only
    split
    · refine .silent rfl rfl (by simp [Event.isRetry]) ?_ trivial
      simp [Machine.level, control]
      omega
    · split
      · split
        · exact .threw rfl rfl kept (by simp [Machine.level, control])
        · refine .silent rfl rfl (by simp [Event.isRetry]) ?_ trivial
          simp [Machine.level, control]
          omega
      · exact .threw rfl rfl kept (by simp [Machine.level, control])

theorem verdict_descends {node : ScenarioNode} {verify : NodeVerify} {attempt : Attempt} {criterion : Json}
    {rest : List Json} (control : machine.control = .verifying attempt criterion rest)
    (found : deps.scenario.node machine.nodeId = some node) (verifies : node.verify = some verify)
    (status : VerifyStatus) : Descends deps machine (machine.verdict node attempt rest status) := by
  simp only [Machine.verdict, verifies]
  split
  · cases rest with
    | nil =>
      refine .silent rfl rfl rfl ?_ ⟨node, found⟩
      simp [Machine.level, control]
    | cons next rest =>
      refine .silent rfl rfl rfl ?_ ⟨node, verify, found, verifies⟩
      simp [Machine.level, control]
  · unfold Machine.verifyFailed
    split
    · rename_i allowed
      exact ⟨⟨node, found⟩, .pays allowed.2.2.2 rfl (by simp [Machine.taken, Event.isRetry]; omega)⟩
    · refine .silent rfl rfl (by simp [Event.isRetry]) ?_ trivial
      simp [Machine.level, control]
      omega

theorem flow_descends {node : ScenarioNode} {lastResult : Option StepResult}
    (control : machine.control = .flowing lastResult)
    (found : deps.scenario.node machine.nodeId = some node) :
    Descends deps machine (machine.flow deps node lastResult) := by
  have busy : 0 < machine.level deps := by simp [Machine.level, control]
  unfold Machine.flow
  cases flow : node.flow with
  | terminal terminal | next target =>
    refine .silent rfl rfl (by simp [Event.isRetry]) ?_ trivial
    simp [Machine.level, control]
  | on branches =>
    refine .silent rfl rfl rfl ?_ ⟨node, found, .inl ⟨_, flow⟩⟩
    simp [Machine.level, control]
  | loop until_ bodyTarget exitTarget maxIterations =>
    refine .silent rfl rfl rfl ?_ ⟨node, found, .inr ⟨_, _, _, _, flow⟩⟩
    simp [Machine.level, control]
  | fallback tiers =>
    cases tiers with
    | nil => exact .threw rfl rfl rfl busy
    | cons tier rest =>
      refine .silent rfl rfl (by simp [Event.isRetry]) ?_ trivial
      simp [Machine.level, control]
  | reservedHandler handler input returnNode =>
    cases handler with
    | challenge => exact .threw rfl rfl rfl busy
    | humanTask =>
      dsimp only
      cases parseHumanTaskInput machine.nodeId input deps.params with
      | error message => exact .threw rfl rfl rfl busy
      | ok task =>
        refine .silent rfl rfl (by simp [Event.isRetry]) ?_ trivial
        simp [Machine.level, control]

theorem pageFlow_descends {node : ScenarioNode} (control : machine.control = .resolving)
    (poised : machine.Poised deps) (found : deps.scenario.node machine.nodeId = some node)
    (pageState : PageState) : Descends deps machine (machine.pageFlow deps node pageState) := by
  simp only [Machine.Poised, control, found, Option.some.injEq, exists_eq_left'] at poised
  unfold Machine.pageFlow
  rcases poised with ⟨branches, flow⟩ | ⟨until_, bodyTarget, exitTarget, maxIterations, flow⟩
  · simp only [flow, Machine.onFlow]
    split
    · exact .threw rfl rfl (by simp [Event.isRetry]) (by simp [Machine.level, control])
    · refine .silent rfl rfl (by simp [Event.isRetry]) ?_ trivial
      simp [Machine.level, control]
  · simp only [flow, Machine.loopFlow]
    split
    · exact .threw rfl rfl (by simp [Event.isRetry]) (by simp [Machine.level, control])
    · split
      all_goals
        refine .silent rfl rfl (by simp [Event.isRetry]) ?_ trivial
        simp [Machine.level, control]

theorem return_descends {terminal : String} (control : machine.control = .returning terminal) :
    Descends deps machine (machine.return_ terminal) := by
  unfold Machine.return_
  cases inside : machine.frames with
  | nil => exact .silent rfl rfl rfl (by simp [Machine.level, control]) trivial
  | cons frame outer =>
    have adopts : Descends deps machine (machine.adopt frame outer terminal) := by
      refine .silent rfl rfl rfl ?_ trivial
      simp [Machine.level, control, inside]
    dsimp only
    split
    · exact adopts
    · cases more : frame.rest with
      | nil => exact adopts
      | cons next later =>
        dsimp only
        cases asks : frame.tier.advanceWhen with
        | some condition =>
          refine .silent rfl rfl rfl ?_ ⟨frame, outer, condition, next, later, inside, asks, more⟩
          simp [Machine.level, control]
        | none =>
          dsimp only
          split
          · refine .silent rfl rfl (by simp [Event.isRetry]) ?_ trivial
            simp [Machine.level, control]
          · exact adopts

theorem advanceFlow_descends {terminal : String} (control : machine.control = .advancing terminal)
    (poised : machine.Poised deps) (pageState : PageState) :
    Descends deps machine (machine.advanceFlow deps terminal pageState) := by
  simp only [Machine.Poised, control] at poised
  obtain ⟨frame, outer, condition, next, later, inside, asks, more⟩ := poised
  simp only [Machine.advanceFlow, inside, asks, more]
  split
  · exact .threw rfl rfl (by simp [Event.isRetry]) (by simp [Machine.level, control])
  · refine .silent rfl rfl (by simp [Event.isRetry]) ?_ trivial
    simp [Machine.level, control, inside]
  · refine .silent rfl rfl (by simp [Event.isRetry]) ?_ trivial
    simp [Machine.level, control, inside, Nat.mul_add]

/-- An awaited reply brings the procedure down. -/
theorem step_descends {input : Input} (poised : machine.Poised deps)
    (awaits : machine.Awaits input) : Descends deps machine (step deps machine input) := by
  have busy : 0 < machine.level deps := level_pos awaits
  have stands := poised
  unfold Machine.Awaits Control.awaits at awaits
  split at awaits <;> rename_i control
  · simpa only [step, control] using enter_descends control
  · simp only [Machine.Poised, control] at stands
    obtain ⟨node, found⟩ := stands
    simpa [step, control, found] using nextAction_descends control found
  · simp only [Machine.Poised, control] at stands
    obtain ⟨node, found⟩ := stands
    simpa [step, control, found] using flow_descends control found
  · simpa only [step, control] using return_descends control
  · rename_i reply
    simp only [step, control]
    rcases reply with message | _ | pause
    · exact .threw rfl rfl rfl busy
    · refine .silent rfl rfl rfl ?_ (by simpa [Machine.Poised, control] using poised)
      simp [Machine.level, control]
    · refine .silent rfl rfl (by simp [Event.isRetry]) ?_ trivial
      simp [Machine.level, control]
      omega
  · rename_i reply
    rcases reply with message | result
    · simpa only [step, control] using .threw rfl rfl rfl busy
    · simpa only [step, control] using stepDone_descends control poised result
  · rename_i reply
    simp only [Machine.Poised, control] at stands
    obtain ⟨node, verify, found, verifies⟩ := stands
    rcases reply with message | status
    · simpa only [step, control] using .threw rfl rfl rfl busy
    · simpa [step, control, found] using verdict_descends control found verifies status
  · rename_i reply
    simp only [Machine.Poised, control] at stands
    obtain ⟨node, found, -⟩ := stands
    rcases reply with message | pageState
    · simpa only [step, control] using .threw rfl rfl rfl busy
    · simpa [step, control, found] using pageFlow_descends control poised found pageState
  · rename_i reply
    rcases reply with message | pageState
    · simpa only [step, control] using .threw rfl rfl rfl busy
    · simpa only [step, control] using advanceFlow_descends control poised pageState
  · cases awaits

/-- A reply nobody waits for changes nothing. -/
theorem step_eq_self {input : Input} (ignored : ¬ machine.Awaits input) :
    step deps machine input = machine := by
  unfold Machine.Awaits Control.awaits at ignored
  unfold step
  dsimp only
  split <;> simp_all

end Stages

/-! ## Payments -/

/-- The visits and retries are paid for, and none was made on an empty budget. -/
structure PaidFor (deps : Deps) (machine : Machine) : Prop where
  poised : machine.Poised deps
  paid : machine.taken + machine.state.budget ≤ stepLimit deps
  afforded : machine.taken = 0 ∨ -1 < machine.state.budget

section Payments

variable {deps : Deps} {machine : Machine}

theorem PaidFor.step (inv : PaidFor deps machine) (input : Input) : PaidFor deps (step deps machine input) := by
  by_cases awaits : machine.Awaits input
  · obtain ⟨poised, drops⟩ := step_descends inv.poised awaits
    refine ⟨poised, ?_, ?_⟩
    · cases drops with
      | pays affords paid took =>
        have took : ((Interpreter.step deps machine input).taken : Rat) ≤ machine.taken + 1 := mod_cast took
        linarith [inv.paid]
      | lowers kept same lower => rw [kept, same]; exact inv.paid
    · cases drops with
      | pays affords paid took => exact .inr (by linarith)
      | lowers kept same lower => rw [kept, same]; exact inv.afforded
  · rwa [step_eq_self awaits]

theorem PaidFor.exec (inv : PaidFor deps machine) (inputs : List Input) :
    PaidFor deps (exec (Interpreter.step deps) machine inputs) :=
  @exec_invariant _ _ _ (PaidFor deps) (fun _ input paid => paid.step input) _ inv inputs

/-- No more visits and retries than the limit rounded up. -/
theorem PaidFor.taken_le (inv : PaidFor deps machine) : machine.taken ≤ ⌈stepLimit deps⌉₊ := by
  rcases inv.afforded with none | above
  · simp [none]
  · have below : (machine.taken : Rat) - 1 < stepLimit deps := by linarith [inv.paid]
    by_cases none : machine.taken = 0
    · simp [none]
    · have : machine.taken - 1 < ⌈stepLimit deps⌉₊ := by
        rw [Nat.lt_ceil, Nat.cast_sub (by omega)]
        simpa using below
      omega

theorem paidFor_runScenario (deps : Deps) (initialCtx : RunContext) (startNode : Option NodeId)
    (resumeNodeOutputs : List (String × Json)) :
    PaidFor deps (runScenario deps initialCtx startNode resumeNodeOutputs) where
  poised := trivial
  paid := by simp [runScenario, Machine.taken, Event.isRetry]
  afforded := .inl (by simp [runScenario, Machine.taken, Event.isRetry])

/-- The budget first, then what is to be done before the next payment. -/
def Machine.rank (deps : Deps) (machine : Machine) : ℕ ×ₗ ℕ :=
  toLex (⌈machine.state.budget⌉₊, machine.level deps)

theorem Drops.rank_lt {after : Machine} (drops : Drops deps machine after) :
    after.rank deps < machine.rank deps := by
  rw [Machine.rank, Machine.rank, Prod.Lex.toLex_lt_toLex]
  cases drops with
  | pays affords paid took =>
    have positive : 0 < ⌈machine.state.budget⌉₊ := Nat.ceil_pos.mpr affords
    left
    rw [paid, Nat.ceil_sub_one]
    omega
  | lowers kept same lower => exact .inr ⟨by rw [kept], lower⟩

/-- A drive whose questions are all answered is settled at some point. -/
theorem settles (start : machine.Poised deps) {replies : ℕ → Input}
    (answered : Answered (step deps) Machine.Settled Machine.Awaits machine replies) :
    ∃ count, (after (step deps) machine replies count).Settled := by
  refine rests_of_descends (Machine.rank deps) ?_ start answered
  intro machine input poised awaits
  obtain ⟨stands, drops⟩ := step_descends poised awaits
  exact ⟨stands, drops.rank_lt⟩

end Payments

/-! ## The limit of an accepted scenario -/

/-- Loops and tiers of an accepted scenario add a natural number to the limit. -/
theorem allowance_whole {scenario : CompiledScenario} (distinct : (scenario.nodes.map Prod.fst).Nodup)
    (whole : WholeBounds scenario) : ∃ count : ℕ, (count : Rat) = allowance scenario := by
  suffices listed : allowance scenario ∈ AddMonoidHom.mrange (Nat.castAddMonoidHom Rat) from listed
  refine list_sum_mem fun amount member => ?_
  obtain ⟨entry, own, rfl⟩ := List.mem_map.mp member
  have found : scenario.node entry.1 = some entry.2 :=
    (lookup_of_mem_distinct distinct).mpr (List.mem_filter.mp own).1
  split
  · rename_i until_ bodyTarget exitTarget maxIterations flow
    obtain ⟨count, same⟩ := whole entry.1
    rw [maxIterationsOf_loop found flow] at same
    exact ⟨count * scenario.ownNodes.length, by simp [same]⟩
  · rename_i tiers flow
    exact ⟨tiers.length * scenario.ownNodes.length, by simp⟩
  · exact ⟨0, by simp⟩

/-- The limit of a drive is a natural number. -/
theorem stepLimit_whole {deps : Deps} {host : Host} {ir : IrScenario} {signedCommandRefs : Option (List String)}
    {compiledAst : CompiledScenarioAst} (compiles : CompilesTo ir signedCommandRefs compiledAst)
    (translated : compiledScenarioFrom host ir compiledAst deps.params = .ok deps.scenario) :
    ∃ count : ℕ, stepLimit deps = count := by
  unfold stepLimit
  cases deps.maxSteps with
  | some steps => exact ⟨steps, rfl⟩
  | none =>
    obtain ⟨count, whole⟩ := allowance_whole (translated_ids translated ▸ ir.distinct)
      (wholeBounds_of_translated compiles.facts translated)
    exact ⟨200 + count, by simp [defaultMaxSteps, ← whole]⟩

/-! ## Drives -/

/-- A drive takes no more visits and self-heal retries than its limit rounded up; where the
scenario was compiled the limit is a natural number and bounds the drive itself.  With an
executor and a resolver that answer, the drive comes to an end. -/
theorem runScenario_within_budget (deps : Deps) (initialCtx : RunContext) (startNode : Option NodeId)
    (resumeNodeOutputs : List (String × Json)) :
    (∀ inputs, (drive deps initialCtx startNode resumeNodeOutputs inputs).taken ≤ ⌈stepLimit deps⌉₊) ∧
    (∀ host ir signedCommandRefs compiledAst, CompilesTo ir signedCommandRefs compiledAst →
      compiledScenarioFrom host ir compiledAst deps.params = .ok deps.scenario →
      ∀ inputs, ((drive deps initialCtx startNode resumeNodeOutputs inputs).taken : Rat) ≤ stepLimit deps) ∧
    ∀ replies, Answered (step deps) Machine.Settled Machine.Awaits
        (runScenario deps initialCtx startNode resumeNodeOutputs) replies →
      ∃ count, (after (step deps) (runScenario deps initialCtx startNode resumeNodeOutputs) replies
        count).Settled := by
  have start := paidFor_runScenario deps initialCtx startNode resumeNodeOutputs
  have bounded : ∀ inputs,
      (drive deps initialCtx startNode resumeNodeOutputs inputs).taken ≤ ⌈stepLimit deps⌉₊ := by
    intro inputs
    exact (start.exec inputs).taken_le
  refine ⟨bounded, ?_, fun replies answered => settles start.poised answered⟩
  intro host ir signedCommandRefs compiledAst compiles translated inputs
  obtain ⟨count, limit⟩ := stepLimit_whole compiles translated
  have taken := bounded inputs
  rw [limit, Nat.ceil_natCast] at taken
  rw [limit]
  exact_mod_cast taken

end RpaEnterprise.Interpreter
