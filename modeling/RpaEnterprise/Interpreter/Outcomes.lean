import Mathlib.Data.List.Induction
import RpaEnterprise.Interpreter.ExtractMerge
import RpaEnterprise.Interpreter.Moves
import RpaEnterprise.Lib.Json

/-!
# Outcomes of drives

The suspension and the failure of a drive travel in two boxes that all
sub-traversals share and nobody empties.  What the outcome holds is therefore the
last suspension and the last exception of any traversal, also of a tier that the
fallback has left behind.  The extracted pages are appended while a node is executed
and nobody takes them back when its verification fails.
-/

namespace RpaEnterprise.Interpreter

open Lib

structure FailureReason where
  code : String
  message : String
deriving Repr, DecidableEq

structure ScenarioOutcome where
  terminal : String
  visited : List NodeId
  steps : List InterpreterStep
  artifacts : List String
  extractPages : Option (List ExtractResultPage)
  mergedExtract : Option MergedExtractResult
  suspend : Option SuspendContext
  failureReason : Option FailureReason

/-- What `runScenario` returns. -/
def Machine.outcome? (platform : ExtractDedupe.Platform) (machine : Machine) : Option ScenarioOutcome :=
  match machine.control with
  | .returned terminal =>
    let pages := machine.state.extractPages
    some
      { terminal
        visited := machine.state.visited
        steps := machine.state.steps
        artifacts := machine.state.artifacts
        extractPages := if pages.isEmpty then none else some pages
        mergedExtract :=
          if pages.isEmpty then none else some (ExtractDedupe.mergeExtractOutputs platform (pages.map (·.output)) none)
        suspend := machine.state.suspendBox
        failureReason := machine.state.failureBox.map fun exception => ⟨exception.code, ""⟩ }
  | _ => none

/-! ## Endings -/

def Event.ending? : Event → Option Ending
  | .ended _ ending => some ending
  | _ => none

/-- How the traversals of a drive ended, in order; the last one gave the terminal. -/
def Machine.endings (machine : Machine) : List Ending := machine.log.filterMap Event.ending?

@[simp]
theorem endings_endWith (machine : Machine) (ending : Ending) :
    (machine.endWith ending).endings = machine.endings ++ [ending] := by
  simp [Machine.endings, Event.ending?]

def Ending.context? : Ending → Option SuspendContext
  | .suspended context => some context
  | _ => none

def Ending.exception? : Ending → Option ClassifiedException
  | .failed _ exception => exception
  | _ => none

/-- The terminal a traversal is returning. -/
def Control.result? : Control → Option String
  | .returning terminal | .advancing terminal | .returned terminal => some terminal
  | _ => none

/-- The boxes hold the last suspension and the last exception, and the terminal is
that of the last ending. -/
structure Boxed (machine : Machine) : Prop where
  suspend : machine.state.suspendBox = (machine.endings.filterMap Ending.context?).getLast?
  failure : machine.state.failureBox = (machine.endings.filterMap Ending.exception?).getLast?
  terminal : ∀ terminal, machine.control.result? = some terminal →
    machine.endings.getLast?.map Ending.terminal = some terminal
  failures : ∀ terminal exception, Ending.failed terminal exception ∈ machine.endings →
    isFailureTerminal terminal = true

theorem isFailureTerminal_of_failureTerminal {status : StepStatus} {terminal : String}
    (failure : failureTerminal status = some terminal) : isFailureTerminal terminal = true := by
  cases status <;> simp [failureTerminal] at failure <;> subst failure <;> decide

/-- An ending that leaves its mark in the boxes. -/
theorem Boxed.ended {machine after : Machine} {ending : Ending} (boxed : Boxed machine)
    (endings : after.endings = machine.endings ++ [ending])
    (suspend : after.state.suspendBox = ending.context?.or machine.state.suspendBox)
    (failure : after.state.failureBox = ending.exception?.or machine.state.failureBox)
    (terminal : after.control = .returning ending.terminal)
    (fails : ∀ terminal exception, ending = .failed terminal exception →
      isFailureTerminal terminal = true) : Boxed after where
  suspend := by
    rw [suspend, endings, boxed.suspend]
    cases found : ending.context? <;> simp [found]
  failure := by
    rw [failure, endings, boxed.failure]
    cases found : ending.exception? <;> simp [found]
  terminal := by
    intro result returns
    rw [terminal] at returns
    simpa [endings, Control.result?] using returns
  failures := by
    intro terminal exception member
    rw [endings, List.mem_append, List.mem_singleton] at member
    rcases member with before | here
    · exact boxed.failures terminal exception before
    · exact fails terminal exception here.symm

/-- A step that ends no traversal. -/
theorem Boxed.kept {machine after : Machine} (boxed : Boxed machine)
    (endings : after.endings = machine.endings)
    (suspend : after.state.suspendBox = machine.state.suspendBox)
    (failure : after.state.failureBox = machine.state.failureBox)
    (terminal : ∀ terminal, after.control.result? = some terminal →
      machine.control.result? = some terminal) : Boxed after where
  suspend := by rw [suspend, endings, boxed.suspend]
  failure := by rw [failure, endings, boxed.failure]
  terminal := by
    intro result returns
    rw [endings]
    exact boxed.terminal result (terminal result returns)
  failures := by
    rw [endings]
    exact boxed.failures

theorem Boxed.moves {deps : Deps} {machine after : Machine} (boxed : Boxed machine)
    (moves : Moves deps machine after) : Boxed after := by
  cases moves with
  | endedNoData | paused | verifyFailed | terminal | handedOver =>
    refine boxed.ended (endings_endWith _ _) ?_ ?_ ?_ ?_ <;> simp [Ending.context?, Ending.exception?]
  | challenged attempt index action result context =>
    have recorded : (machine.record index result).endings = machine.endings := by
      simp [Machine.endings, Event.ending?]
    refine boxed.ended ((endings_endWith _ _).trans (congrArg (· ++ [_]) recorded)) ?_ ?_ ?_ ?_ <;>
      simp [Ending.context?, Ending.exception?]
  | failed attempt index action result terminal control failure =>
    have recorded : (machine.record index result).endings = machine.endings := by
      simp [Machine.endings, Event.ending?]
    refine boxed.ended ((endings_endWith _ _).trans (congrArg (· ++ [_]) recorded)) ?_ ?_ ?_ ?_
    · simp [Ending.context?]
    · simp [Ending.exception?]
    · simp
    · rintro _ _ ⟨⟩
      exact isFailureTerminal_of_failureTerminal failure
  | acted node attempt index control found done after goesOn =>
    refine boxed.kept ?_ ?_ ?_ ?_ <;> simp [Machine.endings]
    rcases goesOn with ⟨criterion, rest, rfl⟩ | rfl <;> simp [Control.result?]
  | _ => refine boxed.kept ?_ ?_ ?_ ?_ <;> simp [Machine.endings, Event.ending?, Control.result?, *]

theorem boxed_runScenario (deps : Deps) (initialCtx : RunContext) (startNode : Option NodeId)
    (resumeNodeOutputs : List (String × Json)) :
    Boxed (runScenario deps initialCtx startNode resumeNodeOutputs) := by
  refine ⟨rfl, rfl, ?_, ?_⟩
  · intro terminal returns
    simp [runScenario, Control.result?] at returns
  · intro terminal exception member
    simp [runScenario, Machine.endings, Event.ending?] at member

/-! ## The outcome and the last ending -/

/-- The outcome has a suspension exactly when its terminal is `suspend`, a failure
reason only when it is a failure, and both are those of the step that gave the
terminal. -/
def Faithful (machine : Machine) (outcome : ScenarioOutcome) : Prop :=
  (outcome.suspend.isSome ↔ outcome.terminal = "suspend") ∧
    (∀ context, outcome.suspend = some context →
      machine.endings.getLast? = some (.suspended context)) ∧
    ∀ reason, outcome.failureReason = some reason → isFailureTerminal outcome.terminal = true ∧
      ∃ exception, machine.endings.getLast? = some (.failed outcome.terminal (some exception)) ∧
        reason = ⟨exception.code, ""⟩

/-- A tier that was left behind in a suspension, or with an exception, is followed
by an ending of its kind, and no terminal node is called `suspend`. -/
def LeavesNoTrace (machine : Machine) : Prop :=
  ∀ earlier last, machine.endings = earlier ++ [last] →
    (∀ ending ∈ earlier, ending.context?.isSome → last.context?.isSome) ∧
      (∀ ending ∈ earlier, ending.exception?.isSome → last.exception?.isSome) ∧
      last ≠ .terminalNode "suspend"

section LastEnding

variable {machine : Machine} {outcome : ScenarioOutcome} {earlier : List Ending} {last : Ending}

theorem getLast?_filterMap_append {Value : Type} (read : Ending → Option Value) :
    ((earlier ++ [last]).filterMap read).getLast? = (read last).or (earlier.filterMap read).getLast? := by
  cases found : read last <;> simp [found]

theorem isSome_getLast?_filterMap {Value : Type} (read : Ending → Option Value) :
    ((earlier.filterMap read).getLast?).isSome ↔ ∃ ending ∈ earlier, (read ending).isSome := by
  rw [Option.isSome_iff_ne_none, ne_eq, List.getLast?_eq_none_iff, List.filterMap_eq_nil_iff]
  simp [Option.ne_none_iff_isSome]

/-- The outcome of a drive whose last ending is known. -/
structure OutcomeOf (machine : Machine) (outcome : ScenarioOutcome) (earlier : List Ending) (last : Ending) :
    Prop where
  endings : machine.endings = earlier ++ [last]
  terminal : outcome.terminal = last.terminal
  suspend : outcome.suspend = last.context?.or (earlier.filterMap Ending.context?).getLast?
  failureReason : outcome.failureReason =
    (last.exception?.or (earlier.filterMap Ending.exception?).getLast?).map fun exception =>
      ⟨exception.code, ""⟩
  failures : ∀ terminal exception, last = .failed terminal exception → isFailureTerminal terminal = true

theorem Boxed.outcomeOf {platform : ExtractDedupe.Platform} (boxed : Boxed machine)
    (returned : machine.outcome? platform = some outcome) :
    ∃ earlier last, OutcomeOf machine outcome earlier last := by
  unfold Machine.outcome? at returned
  split at returned
  · rename_i terminal control
    cases returned
    have ends := boxed.terminal terminal (by simp [control, Control.result?])
    rw [Option.map_eq_some_iff] at ends
    obtain ⟨last, isLast, same⟩ := ends
    obtain ⟨earlier, endings⟩ := List.getLast?_eq_some_iff.mp isLast
    refine ⟨earlier, last, endings, same.symm, ?_, ?_, ?_⟩
    · rw [boxed.suspend, endings, getLast?_filterMap_append]
    · rw [boxed.failure, endings, getLast?_filterMap_append]
    · rintro terminal exception rfl
      exact boxed.failures terminal exception (by simp [endings])
  · cases returned

theorem OutcomeOf.getLast? (known : OutcomeOf machine outcome earlier last) :
    machine.endings.getLast? = some last := by
  simp [known.endings]

/-- Only a suspension, or a node called so, ends in `suspend`. -/
theorem OutcomeOf.suspends_iff (known : OutcomeOf machine outcome earlier last) :
    outcome.terminal = "suspend" ↔ last.context?.isSome ∨ last = .terminalNode "suspend" := by
  rw [known.terminal]
  cases last with
  | failed terminal exception =>
    have failure := known.failures terminal exception rfl
    simp only [Ending.terminal, Ending.context?, Option.isSome_none, Bool.false_eq_true, reduceCtorEq,
      or_self, iff_false]
    rintro rfl
    exact absurd failure (by decide)
  | _ => simp [Ending.terminal, Ending.context?]

theorem OutcomeOf.faithful (known : OutcomeOf machine outcome earlier last)
    (clean : LeavesNoTrace machine) : Faithful machine outcome := by
  obtain ⟨suspensions, exceptions, notNamed⟩ := clean earlier last known.endings
  refine ⟨?_, ?_, ?_⟩
  · rw [known.suspends_iff, known.suspend]
    cases found : last.context? with
    | some context => simp
    | none =>
      simp only [Option.isSome_none, Bool.false_eq_true, notNamed, or_self, iff_false,
        Option.none_or, isSome_getLast?_filterMap]
      rintro ⟨ending, member, suspends⟩
      simpa [found] using suspensions ending member suspends
  · intro context holds
    rw [known.suspend] at holds
    cases found : last.context? with
    | some own =>
      rw [known.getLast?]
      cases last <;> simp_all [Ending.context?]
    | none =>
      have earlierOne : ((earlier.filterMap Ending.context?).getLast?).isSome := by
        simpa [found] using congrArg Option.isSome holds
      obtain ⟨ending, member, suspends⟩ := (isSome_getLast?_filterMap _).mp earlierOne
      simpa [found] using suspensions ending member suspends
  · intro reason holds
    rw [known.failureReason] at holds
    cases found : last.exception? with
    | some exception =>
      cases last with
      | failed terminal own =>
        simp only [Ending.exception?] at found
        subst found
        simp only [Ending.exception?, Option.some_or, Option.map_some,
          Option.some.injEq] at holds
        have same := known.terminal
        simp only [Ending.terminal] at same
        rw [same, known.getLast?]
        exact ⟨known.failures terminal _ rfl, exception, rfl, holds.symm⟩
      | _ => simp [Ending.exception?] at found
    | none =>
      have earlierOne : ((earlier.filterMap Ending.exception?).getLast?).isSome := by
        simpa [found] using congrArg Option.isSome holds
      obtain ⟨ending, member, fails⟩ := (isSome_getLast?_filterMap _).mp earlierOne
      simpa [found] using exceptions ending member fails

theorem OutcomeOf.leavesNoTrace (known : OutcomeOf machine outcome earlier last)
    (faithful : Faithful machine outcome) : LeavesNoTrace machine := by
  obtain ⟨suspendIff, suspension, failure⟩ := faithful
  intro others final endings
  rw [known.endings] at endings
  obtain ⟨rfl, same⟩ := List.append_inj' endings rfl
  cases same
  refine ⟨?_, ?_, ?_⟩
  · intro ending member suspends
    cases found : last.context? with
    | some context => rfl
    | none =>
      have isSome := (isSome_getLast?_filterMap Ending.context?).mpr ⟨ending, member, suspends⟩
      obtain ⟨context, held⟩ := Option.isSome_iff_exists.mp isSome
      have lastOne := suspension context (by simp [known.suspend, found, held])
      rw [known.getLast?] at lastOne
      cases lastOne
      simp [Ending.context?] at found
  · intro ending member fails
    cases found : last.exception? with
    | some exception => rfl
    | none =>
      have isSome := (isSome_getLast?_filterMap Ending.exception?).mpr ⟨ending, member, fails⟩
      obtain ⟨exception, held⟩ := Option.isSome_iff_exists.mp isSome
      obtain ⟨-, own, lastOne, -⟩ := failure ⟨exception.code, ""⟩ (by simp [known.failureReason, found, held])
      rw [known.getLast?] at lastOne
      cases lastOne
      simp [Ending.exception?] at found
  · rintro rfl
    have suspends := suspendIff.mpr (known.suspends_iff.mpr (.inr rfl))
    obtain ⟨context, held⟩ := Option.isSome_iff_exists.mp suspends
    have lastOne := suspension context held
    rw [known.getLast?] at lastOne
    cases lastOne

end LastEnding

/-- The outcome of a drive describes the step that ended it exactly when no
abandoned tier has left a suspension or an exception behind that this step does not
replace. -/
theorem outcome_faithful_iff (platform : ExtractDedupe.Platform) (deps : Deps) (initialCtx : RunContext) (startNode : Option NodeId)
    (resumeNodeOutputs : List (String × Json)) (inputs : List Input) (outcome : ScenarioOutcome)
    (returned : (drive deps initialCtx startNode resumeNodeOutputs inputs).outcome? platform = some outcome) :
    Faithful (drive deps initialCtx startNode resumeNodeOutputs inputs) outcome ↔
      LeavesNoTrace (drive deps initialCtx startNode resumeNodeOutputs inputs) := by
  have boxed : Boxed (drive deps initialCtx startNode resumeNodeOutputs inputs) :=
    drive_invariant Boxed.moves (boxed_runScenario deps initialCtx startNode resumeNodeOutputs) inputs
  obtain ⟨earlier, last, known⟩ := boxed.outcomeOf returned
  exact ⟨known.leavesNoTrace, known.faithful⟩

/-! ## A tier that fails before one that succeeds -/

def blankPage : Executor.PageState where
  urlPattern := "about:blank"
  structuralHash := "seed"
  landmarks := []
  auth := .anonymous
  flags := []

def firstContext : RunContext where
  nodeId := "try"
  pageState := blankPage

/-- A node with one action. -/
def actNode (flow : NodeFlow) : ScenarioNode where
  what := [.obj [("type", .str "act"), ("instruction", .str "press the button")]]
  flow := flow

def twoTiers : Deps where
  scenario :=
    { start := "try"
      nodes := [
        ("try", { what := [], flow := .fallback [⟨"T0", "first", none⟩, ⟨"T1", "second", none⟩] }),
        ("first", actNode (.terminal "success")),
        ("second", { what := [], flow := .terminal "success" })] }

def failedStep : StepResult where
  action := .act
  status := .failedSystem
  pageStateAfter := "ps_seed"
  exception := some ⟨.system, "ELEMENT_NOT_FOUND", "no such element"⟩

/-- The replies up to the tier `second`, which succeeds without an action. -/
def failThenSucceed : List Input :=
  [.proceed, .pause (.ok none), .proceed, .proceed,
    .proceed, .pause (.ok none), .proceed, .executed (.ok failedStep), .proceed,
    .proceed, .pause (.ok none), .proceed, .proceed, .proceed, .proceed]

def failedThenSucceeded : Machine := drive twoTiers firstContext none [] failThenSucceed

/-- The drive succeeds with the exception of the tier it has left behind. -/
theorem success_with_failureReason :
    ∃ outcome, failedThenSucceeded.outcome? ExtractDedupe.plainPlatform = some outcome ∧ outcome.terminal = "success" ∧
      outcome.failureReason = some ⟨"ELEMENT_NOT_FOUND", ""⟩ ∧ ¬ Faithful failedThenSucceeded outcome := by
  have ends : (failedThenSucceeded.outcome? ExtractDedupe.plainPlatform |>.map fun outcome => (outcome.terminal, outcome.failureReason)) =
      some ("success", some ⟨"ELEMENT_NOT_FOUND", ""⟩) := by decide +kernel
  obtain ⟨outcome, returned, same⟩ := Option.map_eq_some_iff.mp ends
  simp only [Prod.mk.injEq] at same
  refine ⟨outcome, returned, same.1, same.2, fun faithful => ?_⟩
  have failure := (faithful.2.2 _ same.2).1
  rw [same.1] at failure
  exact absurd failure (by decide)

theorem outcome_faithful_iff_two_tiers :
    ∃ outcome, (drive twoTiers firstContext none [] failThenSucceed).outcome? ExtractDedupe.plainPlatform = some outcome ∧
      (Faithful (drive twoTiers firstContext none [] failThenSucceed) outcome ↔
        LeavesNoTrace (drive twoTiers firstContext none [] failThenSucceed)) := by
  have ends : ((drive twoTiers firstContext none [] failThenSucceed).outcome? ExtractDedupe.plainPlatform |>.isSome) = true := by
    decide +kernel
  obtain ⟨outcome, returned⟩ := Option.isSome_iff_exists.mp ends
  exact ⟨outcome, returned,
    outcome_faithful_iff _ twoTiers firstContext none [] failThenSucceed outcome returned⟩

/-! ## Rejected extractions -/

/-- The page an execution extracted. -/
def Event.page? : Event → Option ExtractResultPage
  | .executed nodeId index result => Machine.extractPage nodeId s!"{nodeId}.{index}" result
  | _ => none

/-- The verification of the attempt before this event did not pass. -/
def Event.rejects : Event → Bool
  | .healed _ | .ended _ .verifyFailed => true
  | _ => false

/-- The pages of the attempts that are over and were not rejected, and the pages of the
attempt that goes on. -/
structure PageLedger where
  kept : List ExtractResultPage := []
  attempt : List ExtractResultPage := []

def PageLedger.after (ledger : PageLedger) (event : Event) : PageLedger :=
  if event.rejects then { kept := ledger.kept }
  else
    match event with
    | .executed .. => { ledger with attempt := ledger.attempt ++ event.page?.toList }
    | _ => { kept := ledger.kept ++ ledger.attempt }

def pageLedger (log : List Event) : PageLedger := log.foldl PageLedger.after {}

/-- The pages the outcome should have: those of the last attempt of every visit, and none
of an attempt whose verification did not pass. -/
def acceptedPages (log : List Event) : List ExtractResultPage :=
  (pageLedger log).kept ++ (pageLedger log).attempt

def extractedPages (log : List Event) : List ExtractResultPage := log.filterMap Event.page?

@[simp]
theorem pageLedger_concat (log : List Event) (event : Event) :
    pageLedger (log ++ [event]) = (pageLedger log).after event := by
  simp [pageLedger]

theorem PageLedger.after_accepted (ledger : PageLedger) {event : Event} (accepted : event.rejects = false) :
    (ledger.after event).kept ++ (ledger.after event).attempt =
      ledger.kept ++ ledger.attempt ++ event.page?.toList := by
  unfold PageLedger.after
  cases event with
  | executed nodeId index result => simp [Event.rejects]
  | _ => simp [accepted, Event.page?]

theorem PageLedger.after_rejected (ledger : PageLedger) {event : Event} (rejected : event.rejects = true) :
    ledger.after event = { kept := ledger.kept } := if_pos rejected

theorem Event.page?_rejects {event : Event} (rejected : event.rejects = true) : event.page? = none := by
  cases event with
  | executed nodeId index result => cases rejected
  | _ => rfl

theorem extractedPages_concat (log : List Event) (event : Event) :
    extractedPages (log ++ [event]) = extractedPages log ++ event.page?.toList := by
  unfold extractedPages
  rw [List.filterMap_append]
  cases page : event.page? <;> simp [page]

/-- Nothing is accepted that was not extracted. -/
theorem acceptedPages_sublist (log : List Event) : (acceptedPages log).Sublist (extractedPages log) := by
  induction log using List.reverseRecOn with
  | nil => exact .slnil
  | append_singleton log event ih =>
    unfold acceptedPages at ih ⊢
    rw [pageLedger_concat, extractedPages_concat]
    cases rejected : event.rejects with
    | false =>
      rw [PageLedger.after_accepted _ rejected]
      exact ih.append (.refl _)
    | true =>
      rw [PageLedger.after_rejected _ rejected]
      simpa [Event.page?_rejects rejected] using (List.sublist_append_left _ _).trans ih

/-- An event keeps the extracted and the accepted pages the same, unless it rejects an
attempt that has extracted something; and pages once apart stay apart. -/
theorem accepted_concat_iff (log : List Event) (event : Event) :
    extractedPages (log ++ [event]) = acceptedPages (log ++ [event]) ↔
      extractedPages log = acceptedPages log ∧ (event.rejects = true → (pageLedger log).attempt = []) := by
  rw [extractedPages_concat]
  cases rejected : event.rejects with
  | false =>
    have accepted : acceptedPages (log ++ [event]) = acceptedPages log ++ event.page?.toList := by
      rw [acceptedPages, pageLedger_concat, PageLedger.after_accepted _ rejected, acceptedPages]
    simp [accepted]
  | true =>
    have accepted : acceptedPages (log ++ [event]) = (pageLedger log).kept := by
      rw [acceptedPages, pageLedger_concat, PageLedger.after_rejected _ rejected]
      simp
    rw [accepted, Event.page?_rejects rejected, Option.toList_none, List.append_nil]
    constructor
    · intro same
      have shorter := (acceptedPages_sublist log).length_le
      rw [same, acceptedPages, List.length_append] at shorter
      have nothing : (pageLedger log).attempt = [] := List.eq_nil_of_length_eq_zero (by omega)
      exact ⟨by rw [same, acceptedPages, nothing, List.append_nil], fun _ => nothing⟩
    · rintro ⟨same, nothing⟩
      rw [same, acceptedPages, nothing rfl, List.append_nil]

theorem accepted_append_iff (log events : List Event) (accepted : ∀ event ∈ events, event.rejects = false) :
    extractedPages (log ++ events) = acceptedPages (log ++ events) ↔
      extractedPages log = acceptedPages log := by
  induction events using List.reverseRecOn with
  | nil => simp
  | append_singleton events event ih =>
    rw [← List.append_assoc, accepted_concat_iff, ih fun other member => accepted other (by simp [member])]
    simp [accepted event (by simp)]

/-- The verifier answers that a criterion of the node did not pass. -/
def Machine.rejectedBy (deps : Deps) (machine : Machine) (input : Input) : Bool :=
  match machine.control, input with
  | .verifying .., .verified (.ok status) =>
    decide (status ≠ .pass) && ((deps.scenario.node machine.nodeId).bind ScenarioNode.verify).isSome
  | _, _ => false

/-- An attempt that is rejected has extracted nothing. -/
def RejectsNoPage (deps : Deps) (machine : Machine) (input : Input) : Prop :=
  machine.rejectedBy deps input = true → (pageLedger machine.log).attempt = []

section Pages

variable {deps : Deps} {machine after : Machine} {input : Input}

/-- A step that rejects nothing. -/
structure Appends (machine after : Machine) (events : List Event) : Prop where
  log : after.log = machine.log ++ events
  pages : after.state.extractPages = machine.state.extractPages ++ extractedPages events
  accepted : ∀ event ∈ events, event.rejects = false

theorem Appends.recorded {index : Nat} {result : StepResult} {events : List Event}
    (log : after.log = (machine.record index result).log ++ events)
    (pages : after.state.extractPages = (machine.record index result).state.extractPages)
    (idle : ∀ event ∈ events, event.rejects = false ∧ event.page? = none) :
    Appends machine after (.executed machine.nodeId index result :: events) where
  log := by simp [log]
  pages := by
    have nothing : events.filterMap Event.page? = [] :=
      List.filterMap_eq_nil_iff.mpr fun event member => (idle event member).2
    rw [pages, Machine.record_state_extractPages, extractedPages, List.filterMap_cons, nothing]
    simp only [Event.page?]
    cases Machine.extractPage machine.nodeId s!"{machine.nodeId}.{index}" result <;> rfl
  accepted := by
    rintro event (_ | ⟨_, member⟩)
    · rfl
    · exact (idle event member).1

/-- A step that extracts nothing and rejects nothing. -/
theorem Appends.idle {events : List Event} (log : after.log = machine.log ++ events)
    (pages : after.state.extractPages = machine.state.extractPages)
    (idle : ∀ event ∈ events, event.rejects = false ∧ event.page? = none) : Appends machine after events where
  log := log
  pages := by
    have nothing : extractedPages events = [] :=
      List.filterMap_eq_nil_iff.mpr fun event member => (idle event member).2
    rw [pages, nothing, List.append_nil]
  accepted event member := (idle event member).1

theorem appends_of_moves (moves : Moves deps machine after)
    (passes : ∀ attempt criterion rest, machine.control ≠ .verifying attempt criterion rest) :
    ∃ events, Appends machine after events := by
  cases moves with
  | healed attempt criterion rest control
  | verifyFailed attempt criterion rest control
  | verifiedOne attempt criterion next rest control
  | verifiedAll attempt criterion control => exact absurd control (passes _ _ _)
  | succeeded attempt index action result
  | unsupported attempt index action result thrown =>
    exact ⟨_, @Appends.recorded _ _ index result [] (by simp) rfl (by simp)⟩
  | failed attempt index action result terminal
  | challenged attempt index action result context =>
    exact ⟨_, @Appends.recorded _ _ index result [_] rfl rfl (by simp [Event.rejects, Event.page?])⟩
  | threw thrown | unknown cameFrom target control | began control
  | dispatched node attempt index action dispatchAction control
  | acted node attempt index control found done after goesOn
  | asked lastResult control | returned terminal control | adopted terminal frame outer control
  | askedAdvance terminal frame outer control =>
    exact ⟨[], .idle (by simp) rfl (by simp)⟩
  | undecided ctx nodeId scope thrown
  | adoptedWhen terminal frame outer scope control =>
    exact ⟨[_], .idle rfl rfl (by simp [Event.rejects, Event.page?])⟩
  | exited node until_ bodyTarget exitTarget maxIterations pageState scope
  | looped node until_ bodyTarget exitTarget maxIterations pageState scope
  | branched node branches branch pageState scope
  | advancedWhen terminal frame outer next later scope =>
    exact ⟨[_] ++ [_], .idle (List.append_assoc ..) rfl (by simp [Event.rejects, Event.page?])⟩
  | _ => exact ⟨[_], .idle rfl rfl (by simp [Event.rejects, Event.page?])⟩

/-- A verdict rejects the attempt, or leaves no trace in the log. -/
theorem verdict_appends {node : ScenarioNode} {attempt : Attempt} {rest : List Json} (status : VerifyStatus) :
    ((node.verify.isSome = true ∧ status ≠ .pass) ∧ ∃ event, event.rejects = true ∧
      (machine.verdict node attempt rest status).log = machine.log ++ [event] ∧
      (machine.verdict node attempt rest status).state.extractPages = machine.state.extractPages) ∨
    ((node.verify = none ∨ status = .pass) ∧ Appends machine (machine.verdict node attempt rest status) []) := by
  unfold Machine.verdict
  cases node.verify with
  | none => exact .inr ⟨.inl rfl, .idle (by simp) rfl (by simp)⟩
  | some verify =>
    dsimp only
    by_cases pass : status = .pass
    · rw [if_pos pass]
      refine .inr ⟨.inr pass, ?_⟩
      cases rest <;> exact .idle (by simp) rfl (by simp)
    · rw [if_neg pass]
      refine .inl ⟨⟨rfl, pass⟩, ?_⟩
      unfold Machine.verifyFailed
      split
      · exact ⟨.healed machine.nodeId, rfl, rfl, rfl⟩
      · exact ⟨.ended machine.nodeId .verifyFailed, rfl, rfl, rfl⟩

/-- A step rejects an attempt if the verifier does. -/
theorem step_appends (deps : Deps) (machine : Machine) (input : Input) :
    (machine.rejectedBy deps input = true ∧ ∃ event, event.rejects = true ∧
      (step deps machine input).log = machine.log ++ [event] ∧
      (step deps machine input).state.extractPages = machine.state.extractPages) ∨
    (machine.rejectedBy deps input = false ∧ ∃ events, Appends machine (step deps machine input) events) := by
  by_cases verifying : ∃ attempt criterion rest, machine.control = .verifying attempt criterion rest
  · obtain ⟨attempt, criterion, rest, control⟩ := verifying
    unfold step Machine.rejectedBy
    rw [control]
    cases input with
    | verified reply =>
      cases reply with
      | error message => exact .inr ⟨rfl, [], .idle (by simp) rfl (by simp)⟩
      | ok status =>
        dsimp only
        cases found : deps.scenario.node machine.nodeId with
        | none => exact .inr ⟨by simp, [], .idle (by simp) rfl (by simp)⟩
        | some node =>
          rcases @verdict_appends machine node attempt rest status with
            ⟨⟨verified, fails⟩, rejects⟩ | ⟨passes, idle⟩
          · exact .inl ⟨by simp [verified, fails], rejects⟩
          · exact .inr ⟨by rcases passes with none | pass <;> simp [*], [], idle⟩
    | proceed | pause reply | executed reply | resolved reply =>
      exact .inr ⟨rfl, [], .idle (by simp) rfl (by simp)⟩
  · have passes : ∀ attempt criterion rest, machine.control ≠ .verifying attempt criterion rest :=
      fun attempt criterion rest control => verifying ⟨attempt, criterion, rest, control⟩
    right
    refine ⟨?_, ?_⟩
    · unfold Machine.rejectedBy
      split
      · rename_i control
        exact absurd control (passes _ _ _)
      · rfl
    · rcases step_moves deps machine input with same | moves
      · exact ⟨[], .idle (by simp [same]) (by rw [same]) (by simp)⟩
      · exact appends_of_moves moves passes

/-- The machine has collected every page it extracted. -/
def Collects (machine : Machine) : Prop := machine.state.extractPages = extractedPages machine.log

theorem Collects.step (collects : Collects machine) (input : Input) : Collects (step deps machine input) := by
  unfold Collects at collects ⊢
  rcases step_appends deps machine input with ⟨-, event, rejected, log, pages⟩ | ⟨-, events, appends⟩
  · rw [log, pages, collects, extractedPages_concat, Event.page?_rejects rejected]
    simp
  · rw [appends.log, appends.pages, collects]
    simp [extractedPages]

theorem accepted_step_iff (deps : Deps) (machine : Machine) (input : Input) :
    extractedPages (step deps machine input).log = acceptedPages (step deps machine input).log ↔
      extractedPages machine.log = acceptedPages machine.log ∧ RejectsNoPage deps machine input := by
  unfold RejectsNoPage
  rcases step_appends deps machine input with ⟨rejects, event, rejected, log, -⟩ | ⟨accepts, events, appends⟩
  · rw [log, accepted_concat_iff]
    simp [rejects, rejected]
  · rw [appends.log, accepted_append_iff _ _ appends.accepted]
    simp [accepts]

/-- The extracted pages are the accepted ones after a drive in which no rejected attempt
has extracted a page, and after no other. -/
theorem accepted_exec_iff (deps : Deps) (machine : Machine) (inputs : List Input) :
    extractedPages (exec (step deps) machine inputs).log = acceptedPages (exec (step deps) machine inputs).log ↔
      extractedPages machine.log = acceptedPages machine.log ∧
        Along (step deps) (RejectsNoPage deps) machine inputs :=
  @exec_iff_along _ _ (step deps) (RejectsNoPage deps) (fun _ => True)
    (fun machine => extractedPages machine.log = acceptedPages machine.log) (fun _ _ _ => trivial)
    (fun machine input _ => accepted_step_iff deps machine input) machine trivial inputs

end Pages

/-- The outcome holds the pages of accepted attempts and what they merge to. -/
def PagesAccepted (platform : ExtractDedupe.Platform) (machine : Machine) (outcome : ScenarioOutcome) : Prop :=
  outcome.extractPages.getD [] = acceptedPages machine.log ∧
    outcome.mergedExtract = if (acceptedPages machine.log).isEmpty then none
      else some (ExtractDedupe.mergeExtractOutputs platform ((acceptedPages machine.log).map (·.output)) none)

theorem pagesAccepted_iff {platform : ExtractDedupe.Platform} {machine : Machine} {outcome : ScenarioOutcome} (collects : Collects machine)
    (returned : machine.outcome? platform = some outcome) :
    PagesAccepted platform machine outcome ↔ extractedPages machine.log = acceptedPages machine.log := by
  unfold Machine.outcome? at returned
  split at returned
  · cases returned
    have pages : machine.state.extractPages = extractedPages machine.log := collects
    unfold PagesAccepted
    rw [pages]
    have listed : (if (extractedPages machine.log).isEmpty then none else some (extractedPages machine.log)).getD [] =
        extractedPages machine.log := by
      cases extractedPages machine.log <;> rfl
    rw [listed]
    exact ⟨fun both => both.1, fun same => ⟨same, by rw [same]⟩⟩
  · cases returned

/-- The outcome of a drive has only accepted pages just if no attempt that the verifier
rejects has extracted one. -/
theorem outcome_pages_accepted_iff (platform : ExtractDedupe.Platform) (deps : Deps) (initialCtx : RunContext) (startNode : Option NodeId)
    (resumeNodeOutputs : List (String × Json)) (inputs : List Input) (outcome : ScenarioOutcome)
    (returned : (drive deps initialCtx startNode resumeNodeOutputs inputs).outcome? platform = some outcome) :
    PagesAccepted platform (drive deps initialCtx startNode resumeNodeOutputs inputs) outcome ↔
      Along (step deps) (RejectsNoPage deps) (runScenario deps initialCtx startNode resumeNodeOutputs)
        inputs := by
  have start : Collects (runScenario deps initialCtx startNode resumeNodeOutputs) := rfl
  have collects : Collects (drive deps initialCtx startNode resumeNodeOutputs inputs) :=
    exec_invariant (fun _ input collects => collects.step input) start inputs
  rw [pagesAccepted_iff collects returned, drive, accepted_exec_iff]
  exact and_iff_right rfl

/-- A node that extracts a list, whose verification may be tried twice. -/
def verifiedExtract : Deps where
  scenario :=
    { start := "try"
      nodes := [
        ("try",
          { what := [.obj [("type", .str "extract")]]
            verify := some ⟨[.obj [("type", .str "visible")]], "self_heal", 1⟩
            flow := .terminal "success" })] }

/-- The result of extracting one row. -/
def extracted (row : String) : StepResult where
  action := .extract
  status := .success
  pageStateAfter := "ps_seed"
  output := some (.arr [.str row])

/-- The first extraction is rejected, the second one accepted. -/
def rejectThenAccept : List Input :=
  [.proceed, .pause (.ok none),
    .proceed, .executed (.ok (extracted "draft")), .proceed, .verified (.ok .failDet),
    .proceed, .executed (.ok (extracted "final")), .proceed, .verified (.ok .pass), .proceed, .proceed]

/-- The rejected row is in the outcome and in its merge. -/
theorem rejected_page_in_outcome :
    ∃ outcome, (drive verifiedExtract firstContext none [] rejectThenAccept).outcome? ExtractDedupe.plainPlatform = some outcome ∧
      outcome.terminal = "success" ∧
      (outcome.mergedExtract.map MergedExtractResult.records) = some [.str "draft", .str "final"] ∧
      (acceptedPages (drive verifiedExtract firstContext none [] rejectThenAccept).log).map (·.output) =
        [.arr [.str "final"]] := by
  have ends : ((drive verifiedExtract firstContext none [] rejectThenAccept).outcome? ExtractDedupe.plainPlatform |>.map fun outcome =>
      (outcome.terminal, outcome.mergedExtract.map MergedExtractResult.records)) =
      some ("success", some [.str "draft", .str "final"]) := by decide +kernel
  obtain ⟨outcome, returned, same⟩ := Option.map_eq_some_iff.mp ends
  simp only [Prod.mk.injEq] at same
  exact ⟨outcome, returned, same.1, same.2, by decide +kernel⟩

theorem outcome_pages_accepted_iff_draft :
    ∃ outcome, (drive verifiedExtract firstContext none [] rejectThenAccept).outcome? ExtractDedupe.plainPlatform = some outcome ∧
      (PagesAccepted ExtractDedupe.plainPlatform (drive verifiedExtract firstContext none [] rejectThenAccept) outcome ↔
        Along (step verifiedExtract) (RejectsNoPage verifiedExtract)
          (runScenario verifiedExtract firstContext none []) rejectThenAccept) := by
  have ends : ((drive verifiedExtract firstContext none [] rejectThenAccept).outcome? ExtractDedupe.plainPlatform |>.isSome) = true := by
    decide +kernel
  obtain ⟨outcome, returned⟩ := Option.isSome_iff_exists.mp ends
  exact ⟨outcome, returned,
    outcome_pages_accepted_iff _ verifiedExtract firstContext none [] rejectThenAccept outcome returned⟩

end RpaEnterprise.Interpreter
