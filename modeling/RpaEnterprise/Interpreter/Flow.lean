import Mathlib.Data.List.Sort
import RpaEnterprise.Interpreter.HumanTask
import RpaEnterprise.Ir.StaticValidation

/-!
# Compiled scenarios

The graph the interpreter traverses: each node with its actions, its verification
and its flow, whose conditions are syntax trees.  `selectOnBranch` picks the branch
of an `on` node.
-/

namespace RpaEnterprise.Interpreter

open Lib Irel

/-- `CompiledOnBranch<string>`. -/
structure OnBranch where
  when_ : IrelNode
  target : NodeId
  priority : Rat

inductive ReservedHandler where
  | challenge
  | humanTask
deriving Repr, DecidableEq

inductive NodeFlow where
  | terminal (terminal : String)
  | next (target : NodeId)
  | on (branches : List OnBranch)
  | loop (until_ : IrelNode) (bodyTarget exitTarget : NodeId) (maxIterations : Rat)
  | fallback (tiers : List Ir.CompiledFallbackTier)
  | reservedHandler (handler : ReservedHandler) (input : Json) (returnNode : NodeId)

structure NodeVerify where
  criteria : List Json
  onFail : String
  maxSelfHeal : Nat

structure ScenarioNode where
  what : List Json
  flow : NodeFlow
  verify : Option NodeVerify := none

/-- `CompiledScenario`; the ids are different from each other. -/
structure CompiledScenario where
  start : NodeId
  nodes : List (NodeId × ScenarioNode)

/-- `scenario.nodes[nodeId]`. -/
def CompiledScenario.node (scenario : CompiledScenario) (nodeId : NodeId) : Option ScenarioNode :=
  scenario.nodes.lookup nodeId

/-- The own keys of `scenario.nodes` with their values; `__proto__` is not one of them. -/
def CompiledScenario.ownNodes (scenario : CompiledScenario) : List (NodeId × ScenarioNode) :=
  scenario.nodes.filter (·.1 ≠ "__proto__")

/-! ## Conditions -/

/-- What a drive runs with: the scenario, the run's parameters, `Date.parse` and a number of
steps where the default is not meant. -/
structure Deps where
  scenario : CompiledScenario
  params : Option Json := none
  parseDate : String → Option Rat := fun _ => none
  maxSteps : Option Nat := none

def evaluateCondition (deps : Deps) (condition : IrelNode) (scope : IrelScope) : Except Thrown Bool :=
  match evaluateIrelBooleanExpression deps.parseDate scope condition with
  | .ok value => .ok value
  | .error missing => .error (.irel missing)

def byPriority (branches : List OnBranch) : List OnBranch :=
  branches.insertionSort fun one two => two.priority ≤ one.priority

/-- The first priority that equals the one before it. -/
def duplicatePriority : List OnBranch → Option Rat
  | first :: second :: rest =>
    if second.priority = first.priority then some second.priority
    else duplicatePriority (second :: rest)
  | _ => none

/-- The target of the first branch whose condition is true. -/
def firstTrue (deps : Deps) (nodeId : NodeId) (scope : IrelScope) : List OnBranch → Except Thrown NodeId
  | [] => .error (.noBranchMatched nodeId)
  | branch :: rest => do
    if ← evaluateCondition deps branch.when_ scope then pure branch.target
    else firstTrue deps nodeId scope rest

def selectOnBranch (deps : Deps) (nodeId : NodeId) (branches : List OnBranch) (scope : IrelScope) :
    Except Thrown NodeId :=
  let ordered := byPriority branches
  match duplicatePriority ordered with
  | some priority => .error (.duplicatePriority nodeId priority)
  | none => firstTrue deps nodeId scope ordered

/-! ## What branching throws -/

variable {scope : IrelScope} {deps : Deps}

theorem evaluateCondition_error {condition : IrelNode} {thrown : Thrown}
    (fails : evaluateCondition deps condition scope = .error thrown) : ∃ missing, thrown = .irel missing := by
  unfold evaluateCondition at fails
  split at fails
  · cases fails
  · rename_i missing _
    cases fails
    exact ⟨missing, rfl⟩

/-- The errors of `selectOnBranch`. -/
inductive BranchingError (nodeId : NodeId) : Thrown → Prop where
  | irel (missing : RuntimeMissing) : BranchingError nodeId (.irel missing)
  | noBranchMatched : BranchingError nodeId (.noBranchMatched nodeId)
  | duplicatePriority (priority : Rat) : BranchingError nodeId (.duplicatePriority nodeId priority)

theorem firstTrue_cons_false {nodeId : NodeId} {branch : OnBranch}
    {rest : List OnBranch} (value : evaluateCondition deps branch.when_ scope = .ok false) :
    firstTrue deps nodeId scope (branch :: rest) = firstTrue deps nodeId scope rest := by
  simp [firstTrue, value, bind, Except.bind]

theorem firstTrue_cons_true {nodeId : NodeId} {branch : OnBranch}
    {rest : List OnBranch} (value : evaluateCondition deps branch.when_ scope = .ok true) :
    firstTrue deps nodeId scope (branch :: rest) = .ok branch.target := by
  simp [firstTrue, value, bind, Except.bind, pure, Except.pure]

theorem firstTrue_cons_error {nodeId : NodeId} {branch : OnBranch}
    {rest : List OnBranch} {thrown : Thrown} (value : evaluateCondition deps branch.when_ scope = .error thrown) :
    firstTrue deps nodeId scope (branch :: rest) = .error thrown := by
  simp [firstTrue, value, bind, Except.bind]

theorem selectOnBranch_error {nodeId : NodeId} {branches : List OnBranch}
    {thrown : Thrown} (fails : selectOnBranch deps nodeId branches scope = .error thrown) :
    BranchingError nodeId thrown := by
  have first : ∀ ordered, firstTrue deps nodeId scope ordered = .error thrown → BranchingError nodeId thrown := by
    intro ordered fails
    induction ordered with
    | nil =>
      cases fails
      exact .noBranchMatched
    | cons branch rest ih =>
      cases value : evaluateCondition deps branch.when_ scope with
      | error other =>
        obtain ⟨missing, rfl⟩ := evaluateCondition_error value
        rw [firstTrue_cons_error value] at fails
        cases fails
        exact .irel missing
      | ok holds =>
        cases holds with
        | true =>
          rw [firstTrue_cons_true value] at fails
          cases fails
        | false => exact ih (firstTrue_cons_false value ▸ fails)
  unfold selectOnBranch at fails
  dsimp only at fails
  split at fails
  · cases fails
    exact .duplicatePriority _
  · exact first _ fails

/-- The selected target is the target of a branch. -/
theorem selectOnBranch_mem {nodeId target : NodeId} {branches : List OnBranch}
    (selected : selectOnBranch deps nodeId branches scope = .ok target) :
    ∃ branch ∈ branches, branch.target = target := by
  have found : ∀ ordered : List OnBranch, firstTrue deps nodeId scope ordered = .ok target →
      ∃ branch ∈ ordered, branch.target = target := by
    intro ordered first
    induction ordered with
    | nil => cases first
    | cons branch rest ih =>
      cases value : evaluateCondition deps branch.when_ scope with
      | error thrown =>
        rw [firstTrue_cons_error value] at first
        cases first
      | ok holds =>
        cases holds with
        | true =>
          rw [firstTrue_cons_true value, Except.ok.injEq] at first
          exact ⟨branch, List.mem_cons_self, first⟩
        | false =>
          obtain ⟨other, member, same⟩ := ih (firstTrue_cons_false value ▸ first)
          exact ⟨other, List.mem_cons_of_mem _ member, same⟩
  unfold selectOnBranch at selected
  dsimp only at selected
  split at selected
  · cases selected
  · obtain ⟨branch, member, same⟩ := found _ selected
    exact ⟨branch, (List.mem_insertionSort _).mp member, same⟩

end RpaEnterprise.Interpreter
