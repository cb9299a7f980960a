import RpaEnterprise.Interpreter.ExtractMerge
import RpaEnterprise.Interpreter.LoopBound
import RpaEnterprise.Lib.Json

/-!
# Node outputs across suspensions

A resumed drive starts with the answers of the resolved human tasks and with nothing
else: the outputs of the nodes before the suspension, the tier it was inside and the
extracted pages are gone.  Beside the run we carry what it would have had without the
suspensions, and compare the two wherever a condition is about to be evaluated.
-/

namespace RpaEnterprise.Interpreter

open Lib Ir Irel Relation
open Executor (PageState)

/-! ## Conditions -/

/-- The conditions of a flow: `on[].when`, the `until` of a loop, `advance_when` of tiers. -/
def NodeFlow.conditions : NodeFlow → List IrelNode
  | .on branches => branches.map OnBranch.when_
  | .loop until_ _ _ _ => [until_]
  | .fallback tiers => tiers.filterMap CompiledFallbackTier.advanceWhen
  | .terminal _ | .next _ | .reservedHandler .. => []

/-- The conditions that are evaluated with the next page state. -/
def Machine.conditions (deps : Deps) (machine : Machine) : List IrelNode :=
  match machine.control with
  | .resolving => ((deps.scenario.node machine.nodeId).map fun node => node.flow.conditions).getD []
  | .advancing _ => (machine.frames.head?.bind fun frame => frame.tier.advanceWhen).toList
  | _ => []

/-- `node.<id>.<field>…` is read by a condition of the node. -/
def ReadAt (scenario : CompiledScenario) (reader nodeId field : String) (rest : List String) : Prop :=
  ∃ node condition, scenario.node reader = some node ∧ condition ∈ node.flow.conditions ∧
    "node" :: nodeId :: field :: rest ∈ condition.paths

/-! ## What the run would have -/

/-- A run with what it would have if no drive had lost anything. -/
structure Tracked where
  machine : Machine
  /-- The outputs of all nodes executed so far. -/
  outputs : NodeId → Option Json := fun _ => none
  /-- The extracted pages of all drives. -/
  pages : List ExtractResultPage := []
  /-- The tier the traversal of the drive belongs to, lost with the last suspension. -/
  lostTier : Option String := none
  /-- The tier of the traversal that was last at a node. -/
  tier : Option String := none

/-- An output of the drive, in the tier it was resumed in. -/
def inTier (lostTier : Option String) : Option Json → Option Json
  | some (.obj fields) =>
    match lostTier, Json.lookup "tier" fields with
    | some tier, none => some (.obj (Json.assign "tier" (.str tier) fields))
    | _, _ => some (.obj fields)
  | output => output

/-- The answer of a person joins the output of its node. -/
def withAnswer (output answer : Option Json) : Option Json :=
  match answer, output with
  | some (.obj fields), some (.obj others) => some (.obj (fields ++ others))
  | some answer, _ => some answer
  | none, output => output

def Tracked.reply (run : Tracked) (after : Machine) : Tracked where
  machine := after
  outputs nodeId :=
    let output := Json.lookup nodeId after.state.nodeScope
    if output = Json.lookup nodeId run.machine.state.nodeScope then run.outputs nodeId
    else inTier run.lostTier output
  pages := run.pages ++ after.state.extractPages.drop run.machine.state.extractPages.length
  lostTier := run.lostTier
  tier := if run.machine.control.atNode then run.machine.currentTier.or run.lostTier else run.tier

def Tracked.resume (run : Tracked) (after : Machine) : Tracked where
  machine := after
  outputs nodeId := withAnswer (run.outputs nodeId) (Json.lookup nodeId after.state.nodeScope)
  pages := run.pages
  lostTier := run.tier
  tier := run.tier

def trackedStep (deps : Deps) (run : Tracked) : RunInput → Tracked
  | .reply input => run.reply (step deps run.machine input)
  | .resume pageState rows =>
    match run.machine.suspension? with
    | some context => run.resume (driveResumedRun deps run.machine context pageState rows)
    | none => run

def trackedRun (deps : Deps) (pageState : PageState) : Tracked where
  machine := claimedRun deps pageState

/-- Every field of a node output that a condition is about to read is there as without the
suspensions, and the merge at the end of the run is over the pages of all drives. -/
structure Survives (deps : Deps) (run : Tracked) : Prop where
  reads : ∀ condition ∈ run.machine.conditions deps, ∀ nodeId field rest,
    "node" :: nodeId :: field :: rest ∈ condition.paths →
      ownPath (Json.lookup nodeId run.machine.state.nodeScope) (field :: rest) =
        ownPath (run.outputs nodeId) (field :: rest)
  merged : ∀ platform terminal, run.machine.control = .returned terminal → run.machine.suspension? = none →
    ExtractDedupe.mergeExtractOutputs platform
        (run.machine.state.extractPages.map ExtractResultPage.output) none =
      ExtractDedupe.mergeExtractOutputs platform (run.pages.map ExtractResultPage.output) none

/-- What a resume must find: the conditions ahead read nothing of the outputs so far but
what the resolved tasks answer, and no `tier` if the drive was inside one; and no page
was extracted. -/
def NothingLost (deps : Deps) (run : Tracked) : RunInput → Prop
  | .reply _ => True
  | .resume _ rows => ∀ context, run.machine.suspension? = some context →
      (∀ reader nodeId field rest, Reaches deps.scenario context.resumeNodeId reader →
        ReadAt deps.scenario reader nodeId field rest →
        (run.tier.isSome → field ≠ "tier") ∧
          (ownPath (run.outputs nodeId) (field :: rest) = none ∨
            (ownPath (Json.lookup nodeId (loadResolvedHumanTaskNodeOutputs rows)) (field :: rest)).isSome)) ∧
      run.pages = []

/-! ## Conditions ahead -/

/-- The tiers of the fallbacks around a traversal are those of their nodes. -/
def TiersListed (scenario : CompiledScenario) (machine : Machine) : Prop :=
  ∀ frame ∈ machine.frames, ∃ node tiers, scenario.node frame.nodeId = some node ∧
    node.flow = .fallback tiers ∧ ∀ tier ∈ frame.tier :: frame.rest, tier ∈ tiers

section Conditions

variable {deps : Deps} {machine after : Machine}

theorem TiersListed.later {frame : Frame} {outer : List Frame} {next : CompiledFallbackTier}
    {later : List CompiledFallbackTier} {other : Machine} (listed : TiersListed deps.scenario machine)
    (inside : machine.frames = frame :: outer) (more : frame.rest = next :: later)
    (frames : other.frames = { frame with tier := next, rest := later } :: outer) :
    TiersListed deps.scenario other := by
  intro one member
  rw [frames] at member
  rcases List.mem_cons.mp member with rfl | outside
  · obtain ⟨node, tiers, found, flow, among⟩ := listed frame (by simp [inside])
    refine ⟨node, tiers, found, flow, fun tier isTier => among tier ?_⟩
    rw [more]
    exact List.mem_cons_of_mem _ isTier
  · exact listed one (by simp [inside, outside])

theorem TiersListed.moves (listed : TiersListed deps.scenario machine) (moves : Moves deps machine after) :
    TiersListed deps.scenario after := by
  cases moves with
  | fallback node lastResult tier rest control found flow =>
    intro frame member
    rcases List.mem_cons.mp member with rfl | outside
    · exact ⟨node, tier :: rest, found, flow, fun _ isTier => isTier⟩
    · exact listed frame outside
  | adopted terminal frame outer control inside
  | adoptedWhen terminal frame outer scope control inside =>
    exact fun other member => listed other (by rw [inside]; exact List.mem_cons_of_mem _ member)
  | advanced terminal frame outer next later control inside more
  | advancedWhen terminal frame outer next later scope control inside more =>
    exact listed.later inside more rfl
  | _ => exact listed

/-- A condition that is about to be evaluated belongs to a node ahead. -/
theorem readAt_of_mem_conditions (listed : TiersListed deps.scenario machine) {condition : IrelNode}
    (member : condition ∈ machine.conditions deps) {nodeId field : String} {rest : List String}
    (read : "node" :: nodeId :: field :: rest ∈ condition.paths) :
    ∃ reader, Ahead deps.scenario machine reader ∧ ReadAt deps.scenario reader nodeId field rest := by
  unfold Machine.conditions at member
  split at member
  · cases found : deps.scenario.node machine.nodeId with
    | none => simp [found] at member
    | some node =>
      rw [found] at member
      exact ⟨machine.nodeId, .here, node, condition, found, member, read⟩
  · obtain ⟨frame, first, asks⟩ : ∃ frame, machine.frames.head? = some frame ∧
        frame.tier.advanceWhen = some condition := by
      simpa [Option.bind_eq_some_iff] using member
    have inside := List.mem_of_mem_head? first
    obtain ⟨node, tiers, found, flow, among⟩ := listed frame inside
    refine ⟨frame.nodeId, .frame inside, node, condition, found, ?_, read⟩
    rw [flow]
    exact List.mem_filterMap.mpr ⟨frame.tier, among _ List.mem_cons_self, asks⟩
  · cases member

theorem pages_prefix (moves : Moves deps machine after) :
    machine.state.extractPages <+: after.state.extractPages := by
  cases moves <;> simp

end Conditions

/-! ## Reading outputs -/

theorem inTier_none (output : Option Json) : inTier none output = output := by
  rcases output with _ | _ | _ | _ | _ | _ | fields <;> rfl

/-- The lost tier is seen in the field `tier` only. -/
theorem ownPath_inTier (lostTier : Option String) (output : Option Json) {field : String}
    (rest : List String) (other : lostTier.isSome → field ≠ "tier") :
    ownPath (inTier lostTier output) (field :: rest) = ownPath output (field :: rest) := by
  unfold inTier
  split
  · split
    · rename_i tier missing
      simp [ownPath, Json.lookup_assign, other rfl]
    · rfl
  · rfl

theorem lookup_append_left {key : String} {fields others : List (String × Json)} {value : Json}
    (found : Json.lookup key fields = some value) : Json.lookup key (fields ++ others) = some value := by
  induction fields with
  | nil => cases found
  | cons entry rest ih =>
    obtain ⟨name, held⟩ := entry
    simp only [Json.lookup, List.cons_append] at found ⊢
    split
    · rwa [if_pos ‹_›] at found
    · rw [if_neg ‹_›] at found
      exact ih found

theorem lookup_append_right {key : String} {fields : List (String × Json)} (others : List (String × Json))
    (missing : Json.lookup key fields = none) :
    Json.lookup key (fields ++ others) = Json.lookup key others := by
  induction fields with
  | nil => rfl
  | cons entry rest ih =>
    obtain ⟨name, held⟩ := entry
    simp only [Json.lookup, List.cons_append] at missing ⊢
    split at missing
    · cases missing
    · rw [if_neg ‹_›]
      exact ih missing

/-- An answer is read first, and the rest of the output is still there. -/
theorem ownPath_withAnswer {output answer : Option Json} {field : String} {rest : List String}
    (answered : ownPath output (field :: rest) = none ∨ (ownPath answer (field :: rest)).isSome) :
    ownPath answer (field :: rest) = ownPath (withAnswer output answer) (field :: rest) := by
  unfold withAnswer
  split
  · rename_i fields others
    cases found : Json.lookup field fields with
    | some value => simp only [ownPath, found, lookup_append_left found]
    | none =>
      have gone : ownPath (some (.obj fields)) (field :: rest) = none := by simp [ownPath, found]
      have missing : ownPath (some (.obj others)) (field :: rest) = none := by
        simpa [gone] using answered
      rw [gone, ← missing]
      simp only [ownPath, lookup_append_right others found]
  · rfl
  · have missing : ownPath output (field :: rest) = none := by simpa [ownPath] using answered
    rw [missing]
    rfl

/-! ## Runs -/

/-- The conditions ahead read what they would read, and the pages are those of the drive. -/
structure Tracked.Sound (deps : Deps) (run : Tracked) : Prop where
  placed : ∃ start, Placed deps.scenario start run.machine
  listed : TiersListed deps.scenario run.machine
  reads : ∀ reader nodeId field rest, Ahead deps.scenario run.machine reader →
    ReadAt deps.scenario reader nodeId field rest →
    (run.lostTier.isSome → field ≠ "tier") ∧
      ownPath (Json.lookup nodeId run.machine.state.nodeScope) (field :: rest) =
        ownPath (run.outputs nodeId) (field :: rest)
  pages : run.machine.state.extractPages = run.pages

section Runs

variable {deps : Deps} {run : Tracked}

theorem Tracked.Sound.survives (sound : run.Sound deps) : Survives deps run where
  reads := by
    intro condition member nodeId field rest read
    obtain ⟨reader, ahead, isRead⟩ := readAt_of_mem_conditions sound.listed member read
    exact (sound.reads reader nodeId field rest ahead isRead).2
  merged := by
    intro platform terminal returned ended
    rw [sound.pages]

theorem Tracked.Sound.reply (sound : run.Sound deps) (input : Input) :
    (run.reply (step deps run.machine input)).Sound deps := by
  obtain ⟨start, placed⟩ := sound.placed
  obtain ⟨placedAfter, listed, ⟨more, grows⟩, behind⟩ :
      Placed deps.scenario start (step deps run.machine input) ∧
      TiersListed deps.scenario (step deps run.machine input) ∧
      run.machine.state.extractPages <+: (step deps run.machine input).state.extractPages ∧
      ∀ reader, Ahead deps.scenario (step deps run.machine input) reader →
        Ahead deps.scenario run.machine reader := by
    rcases step_moves deps run.machine input with same | moves
    · rw [same]
      exact ⟨placed, sound.listed, List.prefix_rfl, fun _ ahead => ahead⟩
    · exact ⟨placed.moves moves, sound.listed.moves moves, pages_prefix moves, fun _ => placed.ahead moves⟩
  refine ⟨⟨start, placedAfter⟩, listed, ?_, ?_⟩
  · intro reader nodeId field rest ahead isRead
    obtain ⟨untiered, same⟩ := sound.reads reader nodeId field rest (behind reader ahead) isRead
    refine ⟨untiered, ?_⟩
    dsimp only [Tracked.reply]
    split
    · rename_i unchanged
      rw [unchanged, same]
    · rw [ownPath_inTier _ _ _ untiered]
  · simp [Tracked.reply, ← grows, ← sound.pages]

theorem Tracked.Sound.resume (sound : run.Sound deps) {context : SuspendContext} (pageState : PageState)
    (rows : List ResolvedTask) (suspended : run.machine.suspension? = some context)
    (kept : NothingLost deps run (.resume pageState rows)) :
    (run.resume (driveResumedRun deps run.machine context pageState rows)).Sound deps := by
  obtain ⟨start, placed⟩ := sound.placed
  obtain ⟨reads, noPages⟩ := kept context suspended
  refine ⟨⟨_, placed.resumed context pageState rows⟩, ?_, ?_, ?_⟩
  · simp [TiersListed, Tracked.resume, runScenario]
  · intro reader nodeId field rest ahead isRead
    have reaches : Reaches deps.scenario context.resumeNodeId reader := by
      simpa [Ahead, Tracked.resume, runScenario] using ahead
    obtain ⟨untiered, answered⟩ := reads reader nodeId field rest reaches isRead
    exact ⟨untiered, ownPath_withAnswer answered⟩
  · simp [Tracked.resume, runScenario, noPages]

theorem sound_trackedRun (deps : Deps) (pageState : PageState) : (trackedRun deps pageState).Sound deps where
  placed := ⟨_, placed_runScenario deps _ none []⟩
  listed := by simp [TiersListed, trackedRun, claimedRun, runScenario]
  reads := by simp [trackedRun, claimedRun, runScenario, ownPath, Json.lookup]
  pages := rfl

/-- If no resume loses what is read later, every condition of every drive sees the outputs
it would see without the suspensions, and the merge is over the pages of all drives. -/
theorem outputs_survive_suspensions (deps : Deps) (pageState : PageState) (inputs : List RunInput)
    (meets : Along (trackedStep deps) (NothingLost deps) (trackedRun deps pageState) inputs) :
    Throughout (trackedStep deps) (Survives deps) (trackedRun deps pageState) inputs := by
  have sound : Throughout (trackedStep deps) (Tracked.Sound deps) (trackedRun deps pageState) inputs := by
    refine throughout_keeps ?_ meets (sound_trackedRun deps pageState)
    intro run input kept sound
    cases input with
    | reply input => exact sound.reply input
    | resume pageState rows =>
      cases suspended : run.machine.suspension? with
      | none => simpa [trackedStep, suspended] using sound
      | some context => simpa [trackedStep, suspended] using sound.resume pageState rows suspended kept
  exact fun first begins => (sound first begins).survives

end Runs

/-! ## A condition on an earlier node -/

/-- The list is looked at, and the outcome decides where to go. -/
def lookScenario : IrScenario where
  start := "look"
  nodes := [
    ("look", .obj [("what", .arr [.obj [("action", .str "observe"), ("instruction", .str "look at the list")]]),
      ("next", .str "decide")]),
    ("decide", .obj [("on", .arr [branchTo "done" "node.look.status == \"success\"" 2, branchTo "done" "true" 1])]),
    ("done", .obj [("terminal", .str "success")])]

def looked : StepResult := { action := .observe, status := .success, pageStateAfter := "ps_list" }

/-- The first node is visited and executed. -/
def lookOnce : List RunInput :=
  [.reply .proceed, .reply (.pause (.ok none)), .reply .proceed, .reply (.executed (.ok looked)),
    .reply .proceed, .reply .proceed]

/-- The branching node is visited and asks for the page. -/
def askPage : List RunInput := [.reply .proceed, .reply (.pause (.ok none)), .reply .proceed, .reply .proceed]

/-- The first drive has lost nothing. -/
theorem outputs_firstDrive (deps : Deps) (pageState : PageState) {inputs : List RunInput}
    (replies : ∀ input ∈ inputs, ∃ reply, input = .reply reply) :
    (exec (trackedStep deps) (trackedRun deps pageState) inputs).lostTier = none ∧
      ∀ nodeId, (exec (trackedStep deps) (trackedRun deps pageState) inputs).outputs nodeId =
        Json.lookup nodeId
          (exec (trackedStep deps) (trackedRun deps pageState) inputs).machine.state.nodeScope := by
  have along : Along (trackedStep deps) (fun _ input => ∃ reply, input = .reply reply)
      (trackedRun deps pageState) inputs :=
    along_of_mem _ (fun input member _ => replies input member) _
  refine @exec_keeps _ _ _ _ (fun run => run.lostTier = none ∧
    ∀ nodeId, run.outputs nodeId = Json.lookup nodeId run.machine.state.nodeScope) ?_ _ _ along ⟨rfl, fun _ => rfl⟩
  rintro run _ ⟨reply, rfl⟩ ⟨none, same⟩
  refine ⟨none, fun nodeId => ?_⟩
  dsimp only [trackedStep, Tracked.reply]
  split
  · rename_i unchanged
    rw [unchanged, same]
  · rw [none, inTier_none]

/-- A pause before the first node loses nothing. -/
theorem outputs_survive_suspensions_look :
    ∃ deps compiledAst, CompilesTo lookScenario none compiledAst ∧
      compiledScenarioFrom plainHost lookScenario compiledAst deps.params = .ok deps.scenario ∧
      Throughout (trackedStep deps) (Survives deps) (trackedRun deps blankPage)
        (pauseAndResume ++ lookOnce ++ askPage) := by
  have fresh : (drivesOf lookScenario).map (fun deps =>
      let run := exec (trackedStep deps) (trackedRun deps blankPage) (pauseAndResume.take 3)
      run.machine.state.nodeScope.isEmpty && run.tier.isNone && run.pages.isEmpty) = some true := by
    decide +kernel
  obtain ⟨deps, drives, empty⟩ := Option.map_eq_some_iff.mp fresh
  obtain ⟨compiledAst, compiles, translated⟩ := drivesOf_eq_some drives
  simp only [Bool.and_eq_true, List.isEmpty_iff, Option.isNone_iff_eq_none] at empty
  obtain ⟨⟨noOutput, noTier⟩, noPages⟩ := empty
  refine ⟨deps, compiledAst, compiles, translated, outputs_survive_suspensions deps blankPage _ ?_⟩
  have replies : ∀ input ∈ pauseAndResume.take 3, ∃ reply, input = .reply reply := by
    simp [pauseAndResume]
  have outputs := (outputs_firstDrive deps blankPage replies).2
  rw [noOutput] at outputs
  have parts : pauseAndResume ++ lookOnce ++ askPage =
      pauseAndResume.take 3 ++ (.resume blankPage [] :: (lookOnce ++ askPage)) := rfl
  rw [parts, along_append]
  refine ⟨along_of_mem _ ?_ _, ?_, along_of_mem _ ?_ _⟩
  · simp [pauseAndResume, NothingLost]
  · intro context suspended
    refine ⟨fun reader nodeId field rest reaches isRead => ?_, noPages⟩
    rw [noTier, outputs]
    exact ⟨by simp, .inl rfl⟩
  · simp [lookOnce, askPage, NothingLost]

/-- The list was looked at, the operator pauses the run before the decision, and the
condition on the look finds no output. -/
theorem condition_misses_output :
    ∃ deps compiledAst, CompilesTo lookScenario none compiledAst ∧
      compiledScenarioFrom plainHost lookScenario compiledAst deps.params = .ok deps.scenario ∧
      ¬ Survives deps (exec (trackedStep deps) (trackedRun deps blankPage)
        (lookOnce ++ pauseAndResume ++ askPage)) := by
  have misses : (drivesOf lookScenario).map (fun deps =>
      let run := exec (trackedStep deps) (trackedRun deps blankPage) (lookOnce ++ pauseAndResume ++ askPage)
      decide (∃ condition ∈ run.machine.conditions deps, ["node", "look", "status"] ∈ condition.paths) &&
        decide (ownPath (Json.lookup "look" run.machine.state.nodeScope) ["status"] ≠
          ownPath (run.outputs "look") ["status"])) = some true := by decide +kernel
  obtain ⟨deps, drives, both⟩ := Option.map_eq_some_iff.mp misses
  obtain ⟨compiledAst, compiles, translated⟩ := drivesOf_eq_some drives
  rw [Bool.and_eq_true, decide_eq_true_iff, decide_eq_true_iff] at both
  obtain ⟨⟨condition, member, read⟩, differs⟩ := both
  exact ⟨deps, compiledAst, compiles, translated, fun survives =>
    differs (survives.reads condition member "look" "status" [] read)⟩

end RpaEnterprise.Interpreter
