import RpaEnterprise.Interpreter.StepBudget
import RpaEnterprise.Lib.Json

/-!
# How loops are entered

The counter of a loop is kept under the id of its node in a map that all traversals
share, and only the exit edge of the loop removes it.  So a loop that is left in
another way, by an edge out of its body or by the end of a tier, is entered the next time
with the count of the passes before.

What belongs to the body of a loop is left open; the results hold for every choice.
-/

namespace RpaEnterprise.Interpreter

open Lib Ir Irel
open Executor (PageState)

/-! ## Passes through bodies -/

/-- For every loop, the nodes of its body. -/
abbrev Bodies := NodeId → List NodeId

/-- The passes of loops that a drive is in. -/
structure Passes where
  /-- The loops whose body the current traversal is in. -/
  underWay : List NodeId := []
  /-- The node, if it was reached by completing its own body. -/
  completed : Option NodeId := none
  /-- The loops whose pass ended with a traversal. -/
  cutOff : List NodeId := []

def Passes.after (bodies : Bodies) (passes : Passes) : Event → Passes
  | .started _ => {}
  | .visited _ nodeId =>
    { underWay := passes.underWay.filter fun loop => loop ≠ nodeId ∧ nodeId ∈ bodies loop
      completed := if nodeId ∈ passes.underWay then some nodeId else none }
  | .looped nodeId => { passes with underWay := nodeId :: passes.underWay, completed := none }
  | .exited _ => { passes with completed := none }
  | .tierStarted .. => { cutOff := passes.underWay ++ passes.completed.toList ++ passes.cutOff }
  | _ => passes

def passes (bodies : Bodies) (log : List Event) : Passes := log.foldl (Passes.after bodies) {}

@[simp]
theorem passes_append (bodies : Bodies) (log events : List Event) :
    passes bodies (log ++ events) = events.foldl (Passes.after bodies) (passes bodies log) :=
  List.foldl_append

/-- The loops that are left when the drive goes to a node: those whose body the node is
not in, and those whose pass was cut off. -/
def Passes.leaves (bodies : Bodies) (passes : Passes) (target loop : NodeId) : Prop :=
  (loop ∈ passes.underWay ∧ loop ≠ target ∧ target ∉ bodies loop) ∨ loop ∈ passes.cutOff

/-! ## Fresh entries -/

/-- The `loop` of the scope that an `until` is evaluated in. -/
def Event.loopScope? : Event → Option Json
  | .evaluated _ scope => scope.loop
  | _ => none

/-- Whenever a loop has been reached otherwise than by completing its own body, its
`until` is evaluated in the first iteration. -/
def EntersAfresh (bodies : Bodies) (log : List Event) : Prop :=
  ∀ before event after, log = before ++ event :: after → (passes bodies before).completed = none →
    ∀ loop, event.loopScope? = some loop → loop = Machine.loopScope 0

theorem EntersAfresh.concat {bodies : Bodies} {log : List Event} {event : Event}
    (afresh : EntersAfresh bodies log)
    (last : (passes bodies log).completed = none → ∀ loop, event.loopScope? = some loop →
      loop = Machine.loopScope 0) : EntersAfresh bodies (log ++ [event]) := by
  intro before other after split
  rcases List.eq_nil_or_concat after with rfl | ⟨rest, final, rfl⟩
  · obtain ⟨rfl, same⟩ := List.append_inj' split rfl
    cases same
    exact last
  · rw [List.concat_eq_append, ← List.cons_append, ← List.append_assoc] at split
    obtain ⟨rfl, -⟩ := List.append_inj' split rfl
    exact afresh before other rest rfl

theorem EntersAfresh.append {bodies : Bodies} {log events : List Event} (afresh : EntersAfresh bodies log)
    (silent : ∀ event ∈ events, event.loopScope? = none) : EntersAfresh bodies (log ++ events) := by
  induction events generalizing log with
  | nil => rwa [List.append_nil]
  | cons event rest ih =>
    rw [List.append_cons]
    refine ih (afresh.concat fun _ loop evaluates => ?_) fun other listed => silent other (List.mem_cons_of_mem _ listed)
    rw [silent event List.mem_cons_self] at evaluates
    cases evaluates

/-- A tier to come can reach the node. -/
def InLaterTier (scenario : CompiledScenario) (frames : List Frame) (nodeId : NodeId) : Prop :=
  ∃ frame ∈ frames, ∃ tier ∈ frame.rest, Reaches scenario tier.entryNode nodeId

/-- A loop that is left is left for good: the drive cannot come to it again. -/
def LeavesForGood (deps : Deps) (bodies : Bodies) (machine : Machine) (_ : Input) : Prop :=
  ∀ cameFrom target, machine.control = .entering cameFrom target →
    ∀ loop, (passes bodies machine.log).leaves bodies target loop →
      ¬ Reaches deps.scenario target loop ∧ ¬ InLaterTier deps.scenario machine.frames loop

/-! ## What a step evaluates -/

/-- The step evaluates no `until`. -/
def Silent (machine after : Machine) : Prop :=
  ∃ events, after.log = machine.log ++ events ∧ ∀ event ∈ events, event.loopScope? = none

section Silent

variable {deps : Deps} {machine : Machine} (node : ScenarioNode)

theorem Silent.same {after : Machine} (log : after.log = machine.log) : Silent machine after :=
  ⟨[], by simp [log], by simp⟩

theorem Silent.one {after : Machine} (event : Event) (log : after.log = machine.log ++ [event])
    (quiet : event.loopScope? = none) : Silent machine after :=
  ⟨[event], log, by simp [quiet]⟩

theorem Silent.two {after : Machine} (first second : Event) (log : after.log = machine.log ++ [first] ++ [second])
    (quiet : first.loopScope? = none) (quietToo : second.loopScope? = none) : Silent machine after :=
  ⟨[first, second], by simp [log], by simp [quiet, quietToo]⟩

theorem enter_silent (cameFrom : Option NodeId) (target : NodeId) :
    Silent machine (machine.enter deps cameFrom target) := by
  unfold Machine.enter
  split
  · exact .same rfl
  · split
    · exact .one _ rfl rfl
    · split
      · exact .same rfl
      · exact .one _ rfl rfl

theorem nextAction_silent (attempt : Attempt) (index : Nat) :
    Silent machine (machine.nextAction node attempt index) := by
  unfold Machine.nextAction
  split
  · unfold Machine.actionsDone
    dsimp only
    split <;> exact .same rfl
  · split <;> exact .same rfl

theorem stepDone_silent (attempt : Attempt) (index : Nat) (result : StepResult) :
    Silent machine (machine.stepDone attempt index result) := by
  unfold Machine.stepDone Machine.stepFailed
  dsimp only
  split
  · exact .one _ rfl rfl
  · split
    · exact .two _ _ rfl rfl rfl
    · split
      · split
        · exact .one _ rfl rfl
        · exact .two _ _ rfl rfl rfl
      · exact .one _ rfl rfl

theorem verdict_silent (attempt : Attempt) (rest : List Json) (status : VerifyStatus) :
    Silent machine (machine.verdict node attempt rest status) := by
  unfold Machine.verdict Machine.verifyFailed
  split
  · exact .same rfl
  · split
    · split <;> exact .same rfl
    · split <;> exact .one _ rfl rfl

theorem flow_silent (lastResult : Option StepResult) : Silent machine (machine.flow deps node lastResult) := by
  unfold Machine.flow
  split
  · exact .one _ rfl rfl
  · exact .one _ rfl rfl
  · exact .same rfl
  · exact .same rfl
  · exact .same rfl
  · exact .one _ rfl rfl
  · exact .same rfl
  · split
    · exact .same rfl
    · exact .one _ rfl rfl

theorem onFlow_silent (branches : List OnBranch) (pageState : PageState) :
    Silent machine (machine.onFlow deps branches pageState) := by
  unfold Machine.onFlow
  dsimp only
  split
  · exact .one _ rfl rfl
  · exact .two _ _ rfl rfl rfl

theorem return_silent (terminal : String) : Silent machine (machine.return_ terminal) := by
  unfold Machine.return_
  split
  · exact .same rfl
  · split
    · exact .same rfl
    · split
      · exact .same rfl
      · split
        · exact .same rfl
        · split
          · exact .one _ rfl rfl
          · exact .same rfl

theorem advanceFlow_silent (terminal : String) (pageState : PageState) :
    Silent machine (machine.advanceFlow deps terminal pageState) := by
  unfold Machine.advanceFlow
  split
  · exact .same rfl
  · split
    · dsimp only
      split
      · exact .one _ rfl rfl
      · exact .two _ _ rfl rfl rfl
      · exact .one _ rfl rfl
    · exact .same rfl

/-- The `until` of the current loop, with its counter. -/
def EvaluatesUntil (machine after : Machine) : Prop :=
  machine.control = .resolving ∧ ∃ scope rest,
    after.log = machine.log ++ [.evaluated machine.nodeId scope] ++ rest ∧
    scope.loop = some (Machine.loopScope ((machine.state.loopState machine.nodeId).getD 0)) ∧
    ∀ event ∈ rest, event.loopScope? = none

theorem loopFlow_evaluates (control : machine.control = .resolving) (until_ : IrelNode)
    (bodyTarget exitTarget : NodeId) (maxIterations : Rat) (pageState : PageState) :
    EvaluatesUntil machine (machine.loopFlow deps until_ bodyTarget exitTarget maxIterations pageState) := by
  unfold Machine.loopFlow
  dsimp only
  split
  · exact ⟨control, _, [], (List.append_nil _).symm, rfl, by simp⟩
  · split
    · exact ⟨control, _, [_], rfl, rfl, by simp [Event.loopScope?]⟩
    · exact ⟨control, _, [_], rfl, rfl, by simp [Event.loopScope?]⟩

theorem step_silent_or_evaluates (input : Input) :
    Silent machine (step deps machine input) ∨ EvaluatesUntil machine (step deps machine input) := by
  have atNode : ∀ {change : ScenarioNode → Machine},
      (∀ node, Silent machine (change node) ∨ EvaluatesUntil machine (change node)) →
      Silent machine (((deps.scenario.node machine.nodeId).map change).getD machine) ∨
        EvaluatesUntil machine (((deps.scenario.node machine.nodeId).map change).getD machine) := by
    intro change each
    cases deps.scenario.node machine.nodeId with
    | none => exact .inl (.same rfl)
    | some node => exact each node
  unfold step
  dsimp only
  split
  · exact .inl (enter_silent _ _)
  · exact .inl (.one _ rfl rfl)
  · exact .inl (.same rfl)
  · exact atNode fun node => .inl (nextAction_silent node _ _)
  · exact .inl (stepDone_silent _ _ _)
  · exact atNode fun node => .inl (verdict_silent node _ _ _)
  · exact atNode fun node => .inl (flow_silent node _)
  · rename_i control
    refine atNode fun node => ?_
    unfold Machine.pageFlow
    split
    · exact .inr (loopFlow_evaluates control _ _ _ _ _)
    · exact .inl (onFlow_silent _ _)
    · exact .inl (.same rfl)
  · exact .inl (return_silent _)
  · exact .inl (advanceFlow_silent _ _)
  all_goals exact .inl (.same rfl)

end Silent

/-! ## Counters -/

/-- The drive can still come to a node, from where it is or in a tier to come. -/
def Machine.MayReach (scenario : CompiledScenario) (machine : Machine) (nodeId : NodeId) : Prop :=
  match machine.control with
  | .returned _ | .threw _ => False
  | .returning _ | .advancing _ => InLaterTier scenario machine.frames nodeId
  | .entering _ target => Reaches scenario target nodeId ∨ InLaterTier scenario machine.frames nodeId
  | _ => Reaches scenario machine.nodeId nodeId ∨ InLaterTier scenario machine.frames nodeId

/-- The pass of a loop is known. -/
def Passes.know (passes : Passes) (loop : NodeId) : Control → Prop
  | .entering .. => loop ∈ passes.underWay ∨ loop ∈ passes.cutOff
  | _ => loop ∈ passes.underWay ∨ passes.completed = some loop ∨ loop ∈ passes.cutOff

/-- The counters that are set belong to passes that are known, as far as their loops can
be reached. -/
structure CountersKnown (deps : Deps) (bodies : Bodies) (machine : Machine) : Prop where
  loops : ∀ nodeId node, machine.state.loopState nodeId ≠ none → deps.scenario.node nodeId = some node →
    ∃ until_ bodyTarget exitTarget maxIterations, node.flow = .loop until_ bodyTarget exitTarget maxIterations
  atNode : machine.control.atNode = true → machine.nodeId ∉ (passes bodies machine.log).underWay ∧
    (passes bodies machine.log).cutOff = [] ∧
    ∀ nodeId, (passes bodies machine.log).completed = some nodeId → nodeId = machine.nodeId
  known : ∀ loop, machine.state.loopState loop ≠ none → machine.MayReach deps.scenario loop →
    (passes bodies machine.log).know loop machine.control

section Counters

variable {deps : Deps} {bodies : Bodies} {machine after : Machine}

/-- A step that goes to no node. -/
theorem CountersKnown.kept (counters : CountersKnown deps bodies machine)
    (sameState : after.state.loopState = machine.state.loopState)
    (samePasses : passes bodies after.log = passes bodies machine.log)
    (stays : after.control.atNode = true → machine.control.atNode = true ∧ after.nodeId = machine.nodeId)
    (goesNowhere : ∀ cameFrom target, after.control ≠ .entering cameFrom target)
    (reaches : ∀ loop, after.MayReach deps.scenario loop → machine.MayReach deps.scenario loop) :
    CountersKnown deps bodies after where
  loops := sameState ▸ counters.loops
  atNode := by
    intro inside
    obtain ⟨before, sameNode⟩ := stays inside
    rw [samePasses, sameNode]
    exact counters.atNode before
  known := by
    intro loop set_ may
    have known := counters.known loop (sameState ▸ set_) (reaches loop may)
    rw [samePasses]
    unfold Passes.know at known ⊢
    split
    · rename_i entering
      exact absurd entering (goesNowhere _ _)
    · split at known
      · exact known.imp_right .inr
      · exact known

/-- At a node, a counter that matters belongs to a pass under way or to the node. -/
theorem CountersKnown.underWay_or_here (counters : CountersKnown deps bodies machine)
    (here : machine.control.atNode = true) {loop : NodeId} (set_ : machine.state.loopState loop ≠ none)
    (may : Reaches deps.scenario machine.nodeId loop ∨ InLaterTier deps.scenario machine.frames loop) :
    loop ∈ (passes bodies machine.log).underWay ∨
      loop = machine.nodeId ∧ (passes bodies machine.log).completed = some loop := by
  obtain ⟨-, noneCutOff, completed⟩ := counters.atNode here
  have reach : machine.MayReach deps.scenario loop := by
    unfold Machine.MayReach
    split <;> simp_all [Control.atNode]
  have known := counters.known loop set_ reach
  unfold Passes.know at known
  split at known
  · simp_all [Control.atNode]
  · rcases known with underWay | here | cutOff
    · exact .inl underWay
    · exact .inr ⟨completed loop here, here⟩
    · rw [noneCutOff] at cutOff
      cases cutOff

/-- A step from a node to another one.  The counter of the node itself is none, or its
pass is under way. -/
theorem CountersKnown.left (counters : CountersKnown deps bodies machine) {node : ScenarioNode} {target : NodeId}
    (here : machine.control.atNode = true) (found : deps.scenario.node machine.nodeId = some node)
    (isTarget : target ∈ node.flow.targets)
    (control : after.control = .entering (some machine.nodeId) target)
    (sameFrames : after.frames = machine.frames)
    (elsewhere : ∀ loop, loop ≠ machine.nodeId → after.state.loopState loop = machine.state.loopState loop)
    (underWay : ∀ loop ∈ (passes bodies machine.log).underWay, loop ∈ (passes bodies after.log).underWay)
    (settled : after.state.loopState machine.nodeId ≠ none →
      machine.nodeId ∈ (passes bodies after.log).underWay ∧ ∃ until_ bodyTarget exitTarget maxIterations,
        node.flow = .loop until_ bodyTarget exitTarget maxIterations) : CountersKnown deps bodies after where
  loops := by
    intro nodeId other set_ there
    by_cases same : nodeId = machine.nodeId
    · subst same
      cases found.symm.trans there
      exact (settled set_).2
    · rw [elsewhere nodeId same] at set_
      exact counters.loops nodeId other set_ there
  atNode := by simp [control, Control.atNode]
  known := by
    intro loop set_ may
    simp only [Machine.MayReach, control, sameFrames] at may
    simp only [Passes.know, control]
    by_cases same : loop = machine.nodeId
    · exact .inl (same ▸ (settled (same ▸ set_)).1)
    · rw [elsewhere loop same] at set_
      have edge : ScenarioEdge deps.scenario machine.nodeId target := ⟨node, found, isTarget⟩
      rcases counters.underWay_or_here here set_ (may.imp_left fun reaches => .head edge reaches) with
        listed | ⟨isHere, -⟩
      · exact .inl (underWay loop listed)
      · exact absurd isHere same

/-- A tier is started: all passes are cut off. -/
theorem CountersKnown.startedTier (counters : CountersKnown deps bodies machine) {frame : Frame} {outer : List Frame}
    {log : List Event} (samePasses : passes bodies log = passes bodies machine.log)
    (reaches : ∀ loop, Reaches deps.scenario frame.tier.entryNode loop ∨
      InLaterTier deps.scenario (frame :: outer) loop → machine.MayReach deps.scenario loop) :
    CountersKnown deps bodies ({ machine with log }.startTier frame outer) where
  loops := counters.loops
  atNode := by simp [Control.atNode]
  known := by
    intro loop set_ may
    have known := counters.known loop set_ (reaches loop may)
    simp only [Passes.know, Machine.startTier_control, Machine.startTier_log, passes_append, samePasses,
      List.foldl_cons, List.foldl_nil, Passes.after, List.mem_append, Option.mem_toList]
    right
    unfold Passes.know at known
    split at known
    · rcases known with underWay | cutOff
      · exact .inl (.inl underWay)
      · exact .inr cutOff
    · rcases known with underWay | completed | cutOff
      · exact .inl (.inl underWay)
      · exact .inl (.inr completed)
      · exact .inr cutOff

/-- The next node is visited. -/
theorem CountersKnown.visit (counters : CountersKnown deps bodies machine) {cameFrom : Option NodeId}
    {target : NodeId} (control : machine.control = .entering cameFrom target)
    (leaves : ∀ loop, (passes bodies machine.log).leaves bodies target loop →
      ¬ Reaches deps.scenario target loop ∧ ¬ InLaterTier deps.scenario machine.frames loop) :
    CountersKnown deps bodies (machine.visit cameFrom target) where
  loops := counters.loops
  atNode := by
    intro _
    simp only [Machine.visit_log, passes_append, List.foldl_cons, List.foldl_nil, Passes.after, Machine.visit_nodeId]
    refine ⟨by simp, trivial, fun nodeId completed => ?_⟩
    split at completed
    · exact (Option.some.inj completed).symm
    · cases completed
  known := by
    intro loop set_ may
    simp only [Machine.MayReach, Machine.visit_control, Machine.visit_nodeId, Machine.visit_frames] at may
    have known := counters.known loop set_ (by simpa [Machine.MayReach, control] using may)
    have stays : ¬ (passes bodies machine.log).leaves bodies target loop := fun left =>
      may.elim (leaves loop left).1 (leaves loop left).2
    simp only [Passes.know, control] at known
    simp only [Passes.leaves, not_or, not_and, not_not] at stays
    simp only [Passes.know, Machine.visit_control, Machine.visit_log, passes_append, List.foldl_cons,
      List.foldl_nil, Passes.after, List.mem_filter, decide_eq_true_eq]
    have underWay := known.resolve_right stays.2
    by_cases here : loop = target
    · right
      left
      rw [← here, if_pos underWay]
    · exact .inl ⟨underWay, here, stays.1 underWay here⟩

/-- What the next tier and those after it can reach. -/
theorem laterTier_of_next {frame : Frame} {outer : List Frame} {next : CompiledFallbackTier}
    {later : List CompiledFallbackTier} {loop : NodeId} (inside : machine.frames = frame :: outer)
    (more : frame.rest = next :: later)
    (reaches : Reaches deps.scenario next.entryNode loop ∨
      InLaterTier deps.scenario ({ frame with tier := next, rest := later } :: outer) loop) :
    InLaterTier deps.scenario machine.frames loop := by
  rw [inside]
  rcases reaches with first | ⟨other, member, tier, among, reaches⟩
  · exact ⟨frame, List.mem_cons_self, next, more ▸ List.mem_cons_self, first⟩
  · rcases List.mem_cons.mp member with rfl | outside
    · exact ⟨frame, List.mem_cons_self, tier, more ▸ List.mem_cons_of_mem _ among, reaches⟩
    · exact ⟨other, List.mem_cons_of_mem _ outside, tier, among, reaches⟩

theorem CountersKnown.moves (counters : CountersKnown deps bodies machine) {input : Input}
    (leaves : LeavesForGood deps bodies machine input) (moves : Moves deps machine after) :
    CountersKnown deps bodies after := by
  cases moves with
  | visited cameFrom target control isNode found affords =>
    exact counters.visit control (leaves cameFrom target control)
  | next node lastResult target control found flow =>
    refine counters.left (by simp [control, Control.atNode]) found (by simp [flow, NodeFlow.targets]) rfl rfl
      (fun _ _ => rfl) (by simp [Passes.after]) fun set_ => ?_
    obtain ⟨until_, bodyTarget, exitTarget, maxIterations, isLoop⟩ := counters.loops _ node set_ found
    rw [flow] at isLoop
    cases isLoop
  | branched node branches branch pageState scope control found flow member sees =>
    refine counters.left (by simp [control, Control.atNode]) found ?_ rfl rfl (fun _ _ => rfl)
      (by simp [Passes.after]) fun set_ => ?_
    · rw [flow]
      exact List.mem_map_of_mem member
    · obtain ⟨until_, bodyTarget, exitTarget, maxIterations, isLoop⟩ := counters.loops _ node set_ found
      rw [flow] at isLoop
      cases isLoop
  | exited node until_ bodyTarget exitTarget maxIterations pageState scope control found flow sees =>
    refine counters.left (by simp [control, Control.atNode]) found (by simp [flow, NodeFlow.targets]) rfl rfl
      ?_ (by simp [Passes.after]) (by simp)
    intro loop other
    simp [Function.update_of_ne other]
  | looped node until_ bodyTarget exitTarget maxIterations pageState scope control found flow sees below =>
    refine counters.left (by simp [control, Control.atNode]) found (by simp [flow, NodeFlow.targets]) rfl rfl
      ?_ ?_ fun _ => ⟨by simp [Passes.after], until_, bodyTarget, exitTarget, maxIterations, flow⟩
    · intro loop other
      simp [Function.update_of_ne other]
    · intro loop listed
      simpa [Passes.after] using .inr listed
  | fallback node lastResult tier rest control found flow =>
    refine counters.startedTier rfl fun loop reaches => ?_
    have edge : ∀ other ∈ tier :: rest, ScenarioEdge deps.scenario machine.nodeId other.entryNode :=
      fun other member => ⟨node, found, by rw [flow]; exact List.mem_map_of_mem member⟩
    simp only [Machine.MayReach, control]
    rcases reaches with first | ⟨frame, member, other, among, later⟩
    · exact .inl (.head (edge tier List.mem_cons_self) first)
    · rcases List.mem_cons.mp member with rfl | outside
      · exact .inl (.head (edge other (List.mem_cons_of_mem _ among)) later)
      · exact .inr ⟨frame, outside, other, among, later⟩
  | advanced terminal frame outer next later control inside more failure =>
    refine counters.startedTier rfl fun loop reaches => ?_
    simp only [Machine.MayReach, control]
    exact laterTier_of_next inside more reaches
  | advancedWhen terminal frame outer next later scope control inside more sees =>
    refine counters.startedTier (by simp [Passes.after]) fun loop reaches => ?_
    simp only [Machine.MayReach, control]
    exact laterTier_of_next inside more reaches
  | adopted terminal frame outer control inside
  | adoptedWhen terminal frame outer scope control inside =>
    refine counters.kept rfl (by simp [Passes.after]) (by simp [Control.atNode]) (by simp) fun loop reaches => ?_
    obtain ⟨other, member, tier, among, later⟩ := reaches
    simp only [Machine.MayReach, control]
    exact ⟨other, inside ▸ List.mem_cons_of_mem _ member, tier, among, later⟩
  | askedAdvance terminal frame outer control inside =>
    refine counters.kept rfl rfl (by simp [Control.atNode]) (by simp) fun loop reaches => ?_
    simpa [Machine.MayReach, control] using reaches
  | endedNoData cameFrom control affords =>
    refine counters.kept rfl (by simp [Passes.after]) (by simp [Control.atNode]) (by simp) fun loop reaches => ?_
    simp only [Machine.MayReach, control]
    exact .inr reaches
  | acted node attempt index control found done after goesOn =>
    rcases goesOn with ⟨criterion, rest, rfl⟩ | rfl
    · refine counters.kept rfl rfl (by simp [control, Control.atNode]) (by simp) fun loop reaches => ?_
      simpa [Machine.MayReach, control] using reaches
    · refine counters.kept rfl rfl (by simp [control, Control.atNode]) (by simp) fun loop reaches => ?_
      simpa [Machine.MayReach, control] using reaches
  | began control
  | dispatched _ _ _ _ _ control
  | succeeded _ _ _ _ control
  | verifiedOne _ _ _ _ control
  | verifiedAll _ _ control
  | healed _ _ _ control
  | asked _ control =>
    refine counters.kept rfl (by simp [Passes.after]) (by simp [control, Control.atNode]) (by simp) fun loop reaches => ?_
    simpa [Machine.MayReach, control] using reaches
  | paused _ control
  | failed _ _ _ _ _ control
  | challenged _ _ _ _ _ control
  | verifyFailed _ _ _ control
  | terminal _ _ _ control
  | handedOver _ _ _ _ _ _ control =>
    refine counters.kept rfl (by simp [Passes.after]) (by simp [Control.atNode]) (by simp) fun loop reaches => ?_
    simp only [Machine.MayReach, control]
    exact .inr reaches
  | threw | unknown | undecided | unsupported | returned =>
    exact counters.kept rfl (by simp [Passes.after]) (by simp [Control.atNode]) (by simp) fun loop reaches =>
      reaches.elim

theorem countersKnown_runScenario (deps : Deps) (bodies : Bodies) (initialCtx : RunContext)
    (startNode : Option NodeId) (resumeNodeOutputs : List (String × Json)) :
    CountersKnown deps bodies (runScenario deps initialCtx startNode resumeNodeOutputs) where
  loops := fun _ _ set_ => absurd rfl set_
  atNode := by simp [runScenario, Control.atNode]
  known := fun _ set_ => absurd rfl set_

/-- At a loop that was not reached by completing its body, the counter is not set. -/
theorem CountersKnown.fresh (counters : CountersKnown deps bodies machine)
    (here : machine.control.atNode = true) (fresh : (passes bodies machine.log).completed = none) :
    machine.state.loopState machine.nodeId = none := by
  by_contra set_
  rcases counters.underWay_or_here here set_ (.inl .refl) with underWay | ⟨-, completed⟩
  · exact (counters.atNode here).1 underWay
  · rw [fresh] at completed
    cases completed

theorem CountersKnown.entersAfresh (counters : CountersKnown deps bodies machine)
    (afresh : EntersAfresh bodies machine.log) (input : Input) :
    EntersAfresh bodies (step deps machine input).log := by
  rcases @step_silent_or_evaluates deps machine input with
    ⟨events, log, silent⟩ | ⟨control, scope, rest, log, counts, silent⟩
  · rw [log]
    exact afresh.append silent
  · rw [log]
    refine (afresh.concat fun fresh loop evaluates => ?_).append silent
    rw [Event.loopScope?, counts, counters.fresh (by simp [control, Control.atNode]) fresh] at evaluates
    exact (Option.some.inj evaluates).symm

end Counters

/-- In every execution that leaves loops only for good, loops are entered afresh. -/
theorem loops_entered_afresh (deps : Deps) (bodies : Bodies) (initialCtx : RunContext) (startNode : Option NodeId)
    (resumeNodeOutputs : List (String × Json)) (inputs : List Input)
    (leaves : Along (step deps) (LeavesForGood deps bodies)
      (runScenario deps initialCtx startNode resumeNodeOutputs) inputs) :
    Throughout (step deps) (fun machine => EntersAfresh bodies machine.log)
      (runScenario deps initialCtx startNode resumeNodeOutputs) inputs := by
  have both : Throughout (step deps)
      (fun machine => CountersKnown deps bodies machine ∧ EntersAfresh bodies machine.log)
      (runScenario deps initialCtx startNode resumeNodeOutputs) inputs := by
    refine throughout_keeps ?_ leaves ⟨countersKnown_runScenario deps bodies initialCtx startNode _, ?_⟩
    · rintro machine input allowed ⟨counters, afresh⟩
      refine ⟨?_, counters.entersAfresh afresh input⟩
      rcases step_moves deps machine input with same | moves
      · rwa [same]
      · exact counters.moves allowed moves
    · have nothing : EntersAfresh bodies [] := fun before event after split => by simp at split
      exact nothing.concat fun _ loop evaluates => nomatch evaluates
  exact fun some_ begins => (both some_ begins).2

/-- No loop is left at all. -/
def StaysInside (bodies : Bodies) (machine : Machine) (_ : Input) : Bool :=
  match machine.control with
  | .entering _ target =>
    (passes bodies machine.log).cutOff.isEmpty &&
      (passes bodies machine.log).underWay.all fun loop => loop = target || target ∈ bodies loop
  | _ => true

theorem leavesForGood_of_staysInside (deps : Deps) (bodies : Bodies) (machine : Machine) (input : Input)
    (stays : StaysInside bodies machine input = true) : LeavesForGood deps bodies machine input := by
  intro cameFrom target entering loop leaves
  simp only [StaysInside, entering, Bool.and_eq_true, List.isEmpty_iff, List.all_eq_true, Bool.or_eq_true,
    decide_eq_true_eq] at stays
  rcases leaves with ⟨underWay, other, outside⟩ | cutOff
  · exact absurd (stays.2 loop underWay) (not_or.mpr ⟨other, outside⟩)
  · rw [stays.1] at cutOff
    cases cutOff

/-- A visit of a node without actions, up to its flow. -/
def pass : List Input := [.proceed, .pause (.ok none), .proceed, .proceed]

theorem loops_entered_afresh_paging :
    ∃ deps compiledAst, CompilesTo pagingScenario none compiledAst ∧
      compiledScenarioFrom plainHost pagingScenario compiledAst deps.params = .ok deps.scenario ∧
      Throughout (step deps) (fun machine => EntersAfresh (fun _ => ["collect"]) machine.log)
        (runScenario deps firstContext)
        (pass ++ .resolved (.ok morePages) :: pass ++ pass ++ [.resolved (.ok morePages)]) := by
  have stays : (drivesOf pagingScenario).map (fun deps => decide (Along (step deps)
      (fun machine input => StaysInside (fun _ => ["collect"]) machine input = true) (runScenario deps firstContext)
      (pass ++ .resolved (.ok morePages) :: pass ++ pass ++ [.resolved (.ok morePages)]))) = some true := by
    decide +kernel
  obtain ⟨deps, drives, inside⟩ := Option.map_eq_some_iff.mp stays
  obtain ⟨compiledAst, compiles, translated⟩ := drivesOf_eq_some drives
  refine ⟨deps, compiledAst, compiles, translated, ?_⟩
  exact loops_entered_afresh deps _ firstContext none [] _
    (along_mono _ (leavesForGood_of_staysInside deps _) (of_decide_eq_true inside))

/-! ## A loop that is entered late -/

/-- The `until` of a loop is evaluated in a later iteration. -/
def Event.late (event : Event) : Bool := event.loopScope?.any fun loop => decide (loop ≠ Machine.loopScope 0)

/-- An event is late, and no loop has gone round before. -/
def lateBeforeTurn : List Event → Bool
  | [] => false
  | .looped _ :: _ => false
  | event :: rest => event.late || lateBeforeTurn rest

/-- The same after the start of a tier. -/
def lateAfterTier : List Event → Bool
  | [] => false
  | .tierStarted .. :: rest => lateBeforeTurn rest || lateAfterTier rest
  | _ :: rest => lateAfterTier rest

/-- No pass is under way and none was completed. -/
def Passes.idle (passes : Passes) : Prop := passes.underWay = [] ∧ passes.completed = none

theorem Passes.idle.after {passes : Passes} {event : Event} (bodies : Bodies) (idle : passes.idle)
    (still : ∀ nodeId, event ≠ .looped nodeId) : (passes.after bodies event).idle := by
  cases event <;> simp_all [Passes.after, Passes.idle]

theorem not_entersAfresh_of_lateBeforeTurn {bodies : Bodies} {before rest : List Event}
    (idle : (passes bodies before).idle) (late : lateBeforeTurn rest = true) :
    ¬ EntersAfresh bodies (before ++ rest) := by
  induction rest generalizing before with
  | nil => cases late
  | cons event rest ih =>
    intro afresh
    by_cases turns : ∃ nodeId, event = .looped nodeId
    · obtain ⟨nodeId, rfl⟩ := turns
      cases late
    · push Not at turns
      have split : event.late = true ∨ lateBeforeTurn rest = true := by
        cases event with
        | looped nodeId => exact absurd rfl (turns nodeId)
        | _ => simpa [lateBeforeTurn] using late
      rcases split with here | later
      · simp only [Event.late, Option.any_eq_true, decide_eq_true_eq] at here
        obtain ⟨loop, evaluates, other⟩ := here
        exact other (afresh before event rest rfl idle.2 loop evaluates)
      · rw [List.append_cons] at afresh
        refine ih ?_ later afresh
        simpa using idle.after bodies turns

/-- A tier that comes to a loop late, whatever belongs to the bodies. -/
theorem not_entersAfresh_of_lateAfterTier {log : List Event} (late : lateAfterTier log = true) (bodies : Bodies) :
    ¬ EntersAfresh bodies log := by
  have found : ∀ before rest, lateAfterTier rest = true → ¬ EntersAfresh bodies (before ++ rest) := by
    intro before rest late
    induction rest generalizing before with
    | nil => cases late
    | cons event rest ih =>
      rw [List.append_cons]
      by_cases starts : ∃ nodeId tier, event = .tierStarted nodeId tier
      · obtain ⟨nodeId, tier, rfl⟩ := starts
        rw [lateAfterTier, Bool.or_eq_true] at late
        rcases late with soon | later
        · exact not_entersAfresh_of_lateBeforeTurn (by simp [Passes.after, Passes.idle]) soon
        · exact ih _ later
      · refine ih _ ?_
        cases event <;> simp_all [lateAfterTier]
  exact found [] log late

/-- Pages are collected in two ways; the collection may be refused. -/
def twoWaysScenario : IrScenario where
  start := "ways"
  nodes := [
    ("ways", .obj [("fallback_chain", .arr [
      .obj [("tier", .str "T0"), ("entry_node", .str "pages")],
      .obj [("tier", .str "T1"), ("entry_node", .str "again")]])]),
    ("again", .obj [("next", .str "pages")]),
    ("pages", pagingLoop "collect" "done"),
    ("collect", .obj [("on", .arr [branchTo "refused" "flags.blocked" 2, branchTo "pages" "true" 1])]),
    ("refused", .obj [("terminal", .str "fail_business")]),
    ("done", .obj [("terminal", .str "success")])]

/-- The page refuses to be collected. -/
def blockedPage : PageState := { blankPage with flags := [("blocked", true)] }

/-- The first tier goes round once and is refused in the body; the second comes to the loop. -/
def refusedThenAgain : List Input :=
  pass ++ pass ++ .resolved (.ok morePages) :: pass ++ .resolved (.ok blockedPage) :: pass ++ [.proceed] ++ pass ++
    pass ++ [.resolved (.ok morePages)]

/-- The second tier comes to the loop for the first time, in the iteration after the one in
which the first tier ended. -/
theorem second_tier_enters_late :
    ∃ deps compiledAst, CompilesTo twoWaysScenario none compiledAst ∧
      compiledScenarioFrom plainHost twoWaysScenario compiledAst deps.params = .ok deps.scenario ∧
      ∀ bodies, ¬ EntersAfresh bodies (drive deps firstContext none [] refusedThenAgain).log := by
  have late : (drivesOf twoWaysScenario).map (fun deps =>
      lateAfterTier (drive deps firstContext none [] refusedThenAgain).log) = some true := by decide +kernel
  obtain ⟨deps, drives, late⟩ := Option.map_eq_some_iff.mp late
  obtain ⟨compiledAst, compiles, translated⟩ := drivesOf_eq_some drives
  exact ⟨deps, compiledAst, compiles, translated, not_entersAfresh_of_lateAfterTier late⟩

end RpaEnterprise.Interpreter
