import RpaEnterprise.Ir.Cycles
import RpaEnterprise.Irel.SilentFailures
import RpaEnterprise.Lib.Results

/-!
# The compiled trees of an accepted scenario

A scenario is accepted when no check reported an error.  What the compiled trees
then hold is a different question: an expression that fails to compile without a
diagnostic leaves no error behind, and no tree either.  The trees are compared
here with the expressions of the document, family by family.
-/

namespace RpaEnterprise.Ir

open Lib Irel

/-! ## Expressions -/

/-- The expression compiles to this tree. -/
def Compiles (context : CompileContext) (expression : String) (ast : IrelNode) : Prop :=
  ∃ type, compileIrelExpression context expression = .ok (.ok ast type)

def treeOf (context : CompileContext) (expression : String) : Option IrelNode :=
  match compileIrelExpression context expression with
  | .ok (.ok ast _) => some ast
  | _ => none

theorem treeOf_eq_some {context : CompileContext} {expression : String} {ast : IrelNode} :
    treeOf context expression = some ast ↔ Compiles context expression ast := by
  unfold treeOf Compiles
  constructor
  · intro found
    split at found
    · rename_i tree type done
      cases found
      exact ⟨type, done⟩
    · cases found
  · rintro ⟨type, done⟩
    rw [done]

/-- The expression was compiled, or failed, without an issue. -/
def Silent (context : CompileContext) (expression : String) : Prop :=
  compileBooleanExpression context expression = .ok (treeOf context expression, [])

theorem silent_of_done {context : CompileContext} {expression : String} {found : Option IrelNode}
    (done : compileBooleanExpression context expression = .ok (found, [])) :
    found = treeOf context expression ∧ Silent context expression := by
  unfold Silent
  unfold compileBooleanExpression at done ⊢
  unfold treeOf
  cases compiled : compileIrelExpression context expression with
  | error thrown => simp [compiled] at done
  | ok result =>
    cases result with
    | failed diagnostics =>
      simp only [compiled, Except.ok.injEq, Prod.mk.injEq, List.map_eq_nil_iff] at done
      simp [done.1.symm, done.2]
    | ok ast type =>
      simp only [compiled, Except.ok.injEq, Prod.mk.injEq] at done
      simp [done.1.symm]

theorem Silent.isSome_iff {context : CompileContext} {expression : String}
    (silent : Silent context expression) :
    (treeOf context expression).isSome ↔ ¬ EmptyArgumentIn context expression := by
  unfold Silent compileBooleanExpression at silent
  unfold treeOf at silent ⊢
  cases compiled : compileIrelExpression context expression with
  | error thrown => simp [compiled] at silent
  | ok result =>
    cases result with
    | failed diagnostics =>
      simp only [compiled, Except.ok.injEq, Prod.mk.injEq, List.map_eq_nil_iff, true_and] at silent
      subst silent
      simpa using emptyArgument_of_silent compiled
    | ok ast type => simpa using compileIrelExpression_clean compiled

/-! ## Branches -/

section Families

variable {scope : ExpressionScope}

def branchOf (scope : ExpressionScope) (branch : Json) : Option CompiledOnBranch := do
  let expression ← textOf branch "when"
  let when_ ← treeOf scope.context expression
  let priority ← numberOf branch "priority"
  some ⟨when_, branch.field "target", priority⟩

/-- The compiled branch is the branch with its condition compiled. -/
def BranchCompiled (scope : ExpressionScope) (branch : Json) (compiled : CompiledOnBranch) : Prop :=
  (∃ expression, textOf branch "when" = some expression ∧
      Compiles scope.context expression compiled.when_) ∧
    branch.field "target" = compiled.target ∧ numberOf branch "priority" = some compiled.priority

/-- The branch has a condition and a priority, and the condition has no empty argument. -/
def BranchClean (scope : ExpressionScope) (branch : Json) : Prop :=
  (∃ expression, textOf branch "when" = some expression ∧ ¬ EmptyArgumentIn scope.context expression) ∧
    (numberOf branch "priority").isSome

theorem branchCompiled_of_branchOf (branch : Json) (compiled : CompiledOnBranch)
    (found : branchOf scope branch = some compiled) : BranchCompiled scope branch compiled := by
  simp only [branchOf, Option.bind_eq_bind, Option.bind_eq_some_iff, Option.some.injEq] at found
  obtain ⟨expression, text, when_, tree, priority, number, rfl⟩ := found
  exact ⟨⟨expression, text, treeOf_eq_some.mp tree⟩, rfl, number⟩

theorem branchOf_isSome_iff {branch : Json}
    (silent : ∀ expression, textOf branch "when" = some expression → Silent scope.context expression) :
    (branchOf scope branch).isSome = true ↔ BranchClean scope branch := by
  unfold branchOf BranchClean
  cases text : textOf branch "when" with
  | none => simp
  | some expression =>
    have clean := (silent expression text).isSome_iff
    cases tree : treeOf scope.context expression with
    | none => simp_all
    | some when_ =>
      rw [tree] at clean
      have proper := clean.mp rfl
      cases number : numberOf branch "priority" <;> simp [tree, proper]

theorem branchCompiled_iff {branch : Json}
    (silent : ∀ expression, textOf branch "when" = some expression → Silent scope.context expression) :
    (∃ compiled, branchOf scope branch = some compiled ∧ BranchCompiled scope branch compiled) ↔
      BranchClean scope branch := by
  rw [exists_congr fun compiled => and_iff_left_of_imp (branchCompiled_of_branchOf branch compiled),
    ← Option.isSome_iff_exists, branchOf_isSome_iff silent]

theorem compileOn_silent {branches : List Json} {compiled : List CompiledOnBranch}
    (done : compileOn scope branches = .ok (compiled, [])) :
    compiled = branches.filterMap (branchOf scope) ∧
      ∀ branch ∈ branches, ∀ expression, textOf branch "when" = some expression →
        Silent scope.context expression := by
  induction branches generalizing compiled with
  | nil =>
    simp only [compileOn, Except.ok.injEq, Prod.mk.injEq] at done
    simp [done.1.symm]
  | cons branch rest ih =>
    rw [compileOn] at done
    cases text : textOf branch "when" with
    | none =>
      simp only [text] at done
      obtain ⟨rfl, silent⟩ := ih done
      exact ⟨by simp [branchOf, text], by simpa [text] using silent⟩
    | some expression =>
      simp only [text, bind_eq_ok, Prod.exists, pure, Except.pure, Except.ok.injEq, Prod.mk.injEq,
        List.append_eq_nil_iff] at done
      obtain ⟨when_, issues, first, after, more, second, rfl, rfl, rfl⟩ := done
      obtain ⟨rfl, silent⟩ := ih second
      obtain ⟨rfl, quiet⟩ := silent_of_done first
      refine ⟨?_, by simpa [text] using ⟨quiet, silent⟩⟩
      cases tree : treeOf scope.context expression with
      | none => simp [branchOf, text, tree]
      | some when_ =>
        cases number : numberOf branch "priority" <;> simp [branchOf, text, tree, number]

/-! ## Loops -/

def loopEntryOf (scope : ExpressionScope) (loop : Json) : Option CompiledLoop := do
  let expression ← textOf loop "until"
  let until_ ← treeOf (scope.context true) expression
  let bodyTarget ← textOf loop "body_target"
  let exitTarget ← textOf loop "exit_target"
  let maxIterations ← numberOf loop "max_iterations"
  some ⟨until_, bodyTarget, exitTarget, maxIterations⟩

/-- The compiled loop is the loop with its condition compiled. -/
def LoopCompiled (scope : ExpressionScope) (loop : Json) (compiled : CompiledLoop) : Prop :=
  (∃ expression, textOf loop "until" = some expression ∧
      Compiles (scope.context true) expression compiled.until_) ∧
    textOf loop "body_target" = some compiled.bodyTarget ∧
    textOf loop "exit_target" = some compiled.exitTarget ∧
    numberOf loop "max_iterations" = some compiled.maxIterations

def LoopClean (scope : ExpressionScope) (loop : Json) : Prop :=
  (∃ expression, textOf loop "until" = some expression ∧
      ¬ EmptyArgumentIn (scope.context true) expression) ∧
    (textOf loop "body_target").isSome ∧ (textOf loop "exit_target").isSome ∧
    (numberOf loop "max_iterations").isSome

theorem loopCompiled_of_loopEntryOf (loop : Json) (compiled : CompiledLoop)
    (found : loopEntryOf scope loop = some compiled) : LoopCompiled scope loop compiled := by
  simp only [loopEntryOf, Option.bind_eq_bind, Option.bind_eq_some_iff, Option.some.injEq] at found
  obtain ⟨expression, text, until_, tree, bodyTarget, body, exitTarget, exit, maxIterations, bound, rfl⟩ :=
    found
  exact ⟨⟨expression, text, treeOf_eq_some.mp tree⟩, body, exit, bound⟩

theorem loopEntryOf_isSome_iff {loop : Json}
    (silent : ∀ expression, textOf loop "until" = some expression → Silent (scope.context true) expression) :
    (loopEntryOf scope loop).isSome = true ↔ LoopClean scope loop := by
  unfold loopEntryOf LoopClean
  cases text : textOf loop "until" with
  | none => simp
  | some expression =>
    have clean := (silent expression text).isSome_iff
    cases tree : treeOf (scope.context true) expression with
    | none => simp_all
    | some until_ =>
      rw [tree] at clean
      have proper := clean.mp rfl
      cases body : textOf loop "body_target" <;> cases exit : textOf loop "exit_target" <;>
        cases bound : numberOf loop "max_iterations" <;> simp [tree, proper]

theorem loopCompiled_iff {loop : Json}
    (silent : ∀ expression, textOf loop "until" = some expression → Silent (scope.context true) expression) :
    (∃ compiled, loopEntryOf scope loop = some compiled ∧ LoopCompiled scope loop compiled) ↔
      LoopClean scope loop := by
  rw [exists_congr fun compiled => and_iff_left_of_imp (loopCompiled_of_loopEntryOf loop compiled),
    ← Option.isSome_iff_exists, loopEntryOf_isSome_iff silent]

theorem compileLoop_silent {loop : Option Json} {compiled : Option CompiledLoop}
    (done : compileLoop scope loop = .ok (compiled, [])) :
    compiled = loop.bind (loopEntryOf scope) ∧
      ∀ record, loop = some record → ∀ expression, textOf record "until" = some expression →
        Silent (scope.context true) expression := by
  cases loop with
  | none =>
    simp only [compileLoop, Except.ok.injEq, Prod.mk.injEq] at done
    simp [done.1.symm]
  | some record =>
    rw [compileLoop] at done
    cases text : textOf record "until" with
    | none =>
      simp only [text, Except.ok.injEq, Prod.mk.injEq] at done
      simp [done.1.symm, loopEntryOf, text]
    | some expression =>
      simp only [text, bind_eq_ok, Prod.exists, pure, Except.pure, Except.ok.injEq,
        Prod.mk.injEq] at done
      obtain ⟨until_, issues, first, rfl, rfl⟩ := done
      obtain ⟨rfl, quiet⟩ := silent_of_done first
      refine ⟨?_, by rintro _ ⟨⟩ _ same; rw [text] at same; cases same; exact quiet⟩
      cases tree : treeOf (scope.context true) expression <;>
        cases body : textOf record "body_target" <;> cases exit : textOf record "exit_target" <;>
        cases bound : numberOf record "max_iterations" <;>
        simp [loopEntryOf, text, tree, body, exit, bound]

/-! ## Tiers -/

/-- The tiers with the entry nodes up to each of them. -/
def tiersWithPrior : List String → List Json → List (List String × Json)
  | _, [] => []
  | prior, tier :: rest =>
    let prior := prior ++ (textOf tier "entry_node").toList
    (prior, tier) :: tiersWithPrior prior rest

def tierOf (scope : ExpressionScope) (tier : List String × Json) : Option CompiledFallbackTier := do
  let name ← textOf tier.2 "tier"
  let entryNode ← textOf tier.2 "entry_node"
  some ⟨name, entryNode,
    (textOf tier.2 "advance_when").bind (treeOf (scope.context false (some tier.1)))⟩

/-- The compiled tier is the tier with its condition, if any, compiled. -/
def TierCompiled (scope : ExpressionScope) (tier : List String × Json) (compiled : CompiledFallbackTier) :
    Prop :=
  textOf tier.2 "tier" = some compiled.tier ∧ textOf tier.2 "entry_node" = some compiled.entryNode ∧
    match textOf tier.2 "advance_when" with
    | none => compiled.advanceWhen = none
    | some expression => ∃ ast, compiled.advanceWhen = some ast ∧
        Compiles (scope.context false (some tier.1)) expression ast

def TierClean (scope : ExpressionScope) (tier : List String × Json) : Prop :=
  (textOf tier.2 "tier").isSome ∧ (textOf tier.2 "entry_node").isSome ∧
    ∀ expression, textOf tier.2 "advance_when" = some expression →
      ¬ EmptyArgumentIn (scope.context false (some tier.1)) expression

theorem tierCompiled_iff {tier : List String × Json}
    (silent : ∀ expression, textOf tier.2 "advance_when" = some expression →
      (textOf tier.2 "tier").isSome → (textOf tier.2 "entry_node").isSome →
      Silent (scope.context false (some tier.1)) expression) :
    (∃ compiled, tierOf scope tier = some compiled ∧ TierCompiled scope tier compiled) ↔
      TierClean scope tier := by
  unfold tierOf TierCompiled TierClean
  cases name : textOf tier.2 "tier" with
  | none => simp
  | some label =>
    cases entry : textOf tier.2 "entry_node" with
    | none => simp
    | some entryNode =>
      cases advance : textOf tier.2 "advance_when" with
      | none => simp
      | some expression =>
        have clean := (silent expression advance (by simp [name]) (by simp [entry])).isSome_iff
        simp only [Option.isSome_iff_exists, treeOf_eq_some] at clean
        simp [← clean, treeOf_eq_some]

theorem compileTiers_silent {prior : List String} {tiers : List Json}
    {compiled : List CompiledFallbackTier} (done : compileTiers scope prior tiers = .ok (compiled, [])) :
    compiled = (tiersWithPrior prior tiers).filterMap (tierOf scope) ∧
      ∀ tier ∈ tiersWithPrior prior tiers, ∀ expression, textOf tier.2 "advance_when" = some expression →
        (textOf tier.2 "tier").isSome → (textOf tier.2 "entry_node").isSome →
        Silent (scope.context false (some tier.1)) expression := by
  induction tiers generalizing prior compiled with
  | nil =>
    simp only [compileTiers, Except.ok.injEq, Prod.mk.injEq] at done
    simp [tiersWithPrior, done.1.symm]
  | cons tier rest ih =>
    rw [compileTiers] at done
    rw [tiersWithPrior]
    cases name : textOf tier "tier" with
    | none =>
      simp only [name] at done
      obtain ⟨rfl, silent⟩ := ih done
      exact ⟨by simp [tierOf, name], by simpa [name] using silent⟩
    | some label =>
      cases entry : textOf tier "entry_node" with
      | none =>
        simp only [name, entry] at done
        obtain ⟨rfl, silent⟩ := ih done
        exact ⟨by simp [tierOf, name, entry], by simpa [name, entry] using silent⟩
      | some entryNode =>
        simp only [name, entry, Option.toList_some] at done
        cases advance : textOf tier "advance_when" with
        | none =>
          simp only [advance, bind_eq_ok, Prod.exists, pure, Except.pure, Except.ok.injEq,
            Prod.mk.injEq, List.append_eq_nil_iff] at done
          obtain ⟨_, _, ⟨rfl, rfl⟩, after, more, second, rfl, -, rfl⟩ := done
          obtain ⟨rfl, silent⟩ := ih second
          exact ⟨by simp [tierOf, name, entry, advance],
            by simpa [advance] using fun one two => silent (one, two)⟩
        | some expression =>
          simp only [advance, bind_eq_ok, Prod.exists, pure, Except.pure, Except.ok.injEq,
            Prod.mk.injEq, List.append_eq_nil_iff] at done
          obtain ⟨advanceWhen, _, first, after, more, second, rfl, rfl, rfl⟩ := done
          obtain ⟨rfl, silent⟩ := ih second
          obtain ⟨rfl, quiet⟩ := silent_of_done first
          exact ⟨by simp [tierOf, name, entry, advance],
            by simpa [name, entry, advance] using ⟨quiet, fun one two => silent (one, two)⟩⟩

/-! ## Witnesses of an allowed empty result -/

/-- The criteria that allow an empty result. -/
def witnessesOf (node : Json) : List Json :=
  (criteriaOf node).filter fun criterion => textOf criterion "type" = some "empty_result_allowed"

def witnessOf (scope : ExpressionScope) (criterion : Json) : Option IrelNode :=
  (textOf criterion "when").bind (treeOf scope.context)

def WitnessCompiled (scope : ExpressionScope) (criterion : Json) (compiled : IrelNode) : Prop :=
  ∃ expression, textOf criterion "when" = some expression ∧ Compiles scope.context expression compiled

def WitnessClean (scope : ExpressionScope) (criterion : Json) : Prop :=
  ∃ expression, textOf criterion "when" = some expression ∧ ¬ EmptyArgumentIn scope.context expression

theorem witnessCompiled_iff {criterion : Json}
    (silent : ∀ expression, textOf criterion "when" = some expression → Silent scope.context expression) :
    (∃ compiled, witnessOf scope criterion = some compiled ∧ WitnessCompiled scope criterion compiled) ↔
      WitnessClean scope criterion := by
  unfold witnessOf WitnessCompiled WitnessClean
  cases text : textOf criterion "when" with
  | none => simp
  | some expression =>
    have clean := (silent expression text).isSome_iff
    simp only [Option.isSome_iff_exists, treeOf_eq_some] at clean
    simp [← clean, treeOf_eq_some]

theorem compileWitnesses_silent {criteria : List Json} {compiled : List IrelNode}
    (done : compileWitnesses scope criteria = .ok (compiled, [])) :
    compiled = (criteria.filter fun criterion =>
        textOf criterion "type" = some "empty_result_allowed").filterMap (witnessOf scope) ∧
      ∀ criterion ∈ criteria, textOf criterion "type" = some "empty_result_allowed" →
        ∀ expression, textOf criterion "when" = some expression → Silent scope.context expression := by
  induction criteria generalizing compiled with
  | nil =>
    simp only [compileWitnesses, Except.ok.injEq, Prod.mk.injEq] at done
    simp [done.1.symm]
  | cons criterion rest ih =>
    rw [compileWitnesses.eq_def] at done
    dsimp only at done
    by_cases kind : textOf criterion "type" = some "empty_result_allowed"
    · cases text : textOf criterion "when" with
      | none =>
        simp only [kind, text] at done
        obtain ⟨rfl, silent⟩ := ih done
        exact ⟨by simp [witnessOf, kind, text], by simpa [text] using silent⟩
      | some expression =>
        simp only [kind, text, bind_eq_ok, Prod.exists, pure, Except.pure, Except.ok.injEq,
          Prod.mk.injEq, List.append_eq_nil_iff] at done
        obtain ⟨witness, issues, first, after, more, second, rfl, rfl, rfl⟩ := done
        obtain ⟨rfl, silent⟩ := ih second
        obtain ⟨rfl, quiet⟩ := silent_of_done first
        refine ⟨?_, by simpa [kind, text] using ⟨quiet, silent⟩⟩
        cases tree : treeOf scope.context expression <;> simp [witnessOf, kind, text, tree]
    · have skipped : compileWitnesses scope rest = .ok (compiled, []) := by
        split at done
        · contradiction
        · exact done
      obtain ⟨rfl, silent⟩ := ih skipped
      exact ⟨by simp [kind], by simpa [kind] using silent⟩

/-! ## Nodes -/

/-- The compiled entry of a node holds every expression of the node, in order. -/
structure NodeCompiled (scope : ExpressionScope) (node : Json) (compiled : CompiledNode) : Prop where
  on : List.Forall₂ (BranchCompiled scope) (onBranchesOf node) (compiled.on.getD [])
  loop : List.Forall₂ (LoopCompiled scope) (loopOf node).toList compiled.loop.toList
  fallbackChain : List.Forall₂ (TierCompiled scope) (tiersWithPrior [] (fallbackChainOf node))
    (compiled.fallbackChain.getD [])
  emptyResultAllowed : List.Forall₂ (WitnessCompiled scope) (witnessesOf node)
    (compiled.emptyResultAllowed.getD [])

/-- The branches, the loop, the tiers and the witnesses of a node have the fields
that are read, and no call in their conditions has an empty argument. -/
structure NodeClean (scope : ExpressionScope) (node : Json) : Prop where
  on : ∀ branch ∈ onBranchesOf node, BranchClean scope branch
  loop : ∀ loop ∈ (loopOf node).toList, LoopClean scope loop
  fallbackChain : ∀ tier ∈ tiersWithPrior [] (fallbackChainOf node), TierClean scope tier
  emptyResultAllowed : ∀ criterion ∈ witnessesOf node, WitnessClean scope criterion

/-- The trees of a node: what compiles, with the rest left out. -/
def treesOf (scope : ExpressionScope) (node : Json) : CompiledNode :=
  { on := nonEmpty ((onBranchesOf node).filterMap (branchOf scope))
    loop := (loopOf node).bind (loopEntryOf scope)
    fallbackChain := nonEmpty ((tiersWithPrior [] (fallbackChainOf node)).filterMap (tierOf scope))
    emptyResultAllowed := nonEmpty ((witnessesOf node).filterMap (witnessOf scope)) }

@[simp]
theorem getD_nonEmpty {Entry : Type} (entries : List Entry) : (nonEmpty entries).getD [] = entries := by
  unfold nonEmpty
  cases entries <;> simp

theorem validateExpressions_silent {node : Json} {compiled : Option CompiledNode}
    (done : validateExpressions scope node = .ok (compiled, [])) :
    compiled.getD {} = treesOf scope node ∧
      (NodeCompiled scope node (treesOf scope node) ↔ NodeClean scope node) := by
  simp only [validateExpressions, bind_eq_ok, Prod.exists, pure, Except.pure, Except.ok.injEq,
    Prod.mk.injEq, List.append_eq_nil_iff] at done
  obtain ⟨on, _, onDone, loop, _, loopDone, tiers, _, tiersDone, witnesses, _, witnessesDone, rfl,
    ⟨⟨rfl, rfl⟩, rfl⟩, rfl⟩ := done
  obtain ⟨rfl, onSilent⟩ := compileOn_silent onDone
  obtain ⟨rfl, loopSilent⟩ := compileLoop_silent loopDone
  obtain ⟨rfl, tiersSilent⟩ := compileTiers_silent tiersDone
  obtain ⟨rfl, witnessesSilent⟩ := compileWitnesses_silent witnessesDone
  constructor
  · split
    · rfl
    · rename_i nothing
      simp only [Bool.or_eq_true, not_or, Bool.not_eq_true, Option.isSome_eq_false_iff,
        Option.isNone_iff_eq_none] at nothing
      simp [treesOf, witnessesOf, nothing]
  · have onIff := forall₂_congr fun branch (member : branch ∈ onBranchesOf node) =>
      branchCompiled_iff (onSilent branch member)
    have loopIff := forall₂_congr fun loop (member : loop ∈ (loopOf node).toList) =>
      loopCompiled_iff (loopSilent loop (by simpa using member))
    have tiersIff := forall₂_congr fun tier (member : tier ∈ tiersWithPrior [] (fallbackChainOf node)) =>
      tierCompiled_iff (tiersSilent tier member)
    have witnessesIff := forall₂_congr fun criterion (member : criterion ∈ witnessesOf node) =>
      witnessCompiled_iff (witnessesSilent criterion (List.mem_of_mem_filter member)
        (by simpa using (List.mem_filter.mp member).2))
    rw [← forall₂_filterMap_iff] at onIff loopIff tiersIff witnessesIff
    have oneLoop : (treesOf scope node).loop.toList = (loopOf node).toList.filterMap (loopEntryOf scope) := by
      cases found : loopOf node with
      | none => simp [treesOf, found]
      | some loop => cases entry : loopEntryOf scope loop <;> simp [treesOf, found, entry]
    constructor
    · rintro ⟨onCompiled, loopCompiled, tiersCompiled, witnessesCompiled⟩
      exact ⟨onIff.mp (by simpa [treesOf] using onCompiled), loopIff.mp (oneLoop ▸ loopCompiled),
        tiersIff.mp (by simpa [treesOf] using tiersCompiled),
        witnessesIff.mp (by simpa [treesOf] using witnessesCompiled)⟩
    · rintro ⟨onClean, loopClean, tiersClean, witnessesClean⟩
      exact ⟨by simpa [treesOf] using onIff.mpr onClean, oneLoop ▸ loopIff.mpr loopClean,
        by simpa [treesOf] using tiersIff.mpr tiersClean,
        by simpa [treesOf] using witnessesIff.mpr witnessesClean⟩

end Families

/-! ## Scenarios -/

/-- No expression is dropped: the compiled trees hold those of every node. -/
def NothingDropped (ir : IrScenario) (compiledAst : CompiledScenarioAst) : Prop :=
  ∀ entry ∈ ir.nodes, NodeCompiled (expressionScope ir entry.1) entry.2
    ((compiledAst.nodes.lookup entry.1).getD {})

/-- The node has nothing to compile. -/
def Bare (node : Json) : Prop :=
  onBranchesOf node = [] ∧ loopOf node = none ∧ fallbackChainOf node = [] ∧ witnessesOf node = []

/-- Every expression is free of empty arguments, and the node called `__proto__`,
if there is one, has none. -/
def ExpressionsClean (ir : IrScenario) : Prop :=
  ∀ entry ∈ ir.nodes, NodeClean (expressionScope ir entry.1) entry.2 ∧
    (entry.1 = "__proto__" → Bare entry.2)

theorem SilentNode.expressions {ir : IrScenario} {signedCommandRefs : Option (List String)}
    {entry : String × Json} (silent : SilentNode ir signedCommandRefs entry) :
    ∃ compiled, compiledOf ir signedCommandRefs entry.1 entry.2 = compiled ∧
      validateExpressions (expressionScope ir entry.1) entry.2 = .ok (compiled, []) := by
  obtain ⟨checks, done, quiet⟩ := silent
  refine ⟨checks.compiled, by simp [compiledOf, done], ?_⟩
  simp only [checkNode, bind_eq_ok, Prod.exists, pure, Except.pure, Except.ok.injEq] at done
  obtain ⟨compiled, issues, expressions, rfl⟩ := done
  simp only [List.append_eq_nil_iff] at quiet
  rw [expressions, quiet.1.1.1.2]

/-- The conditions of the branches and of the loop of an accepted node raise no issue. -/
theorem SilentNode.conditions {ir : IrScenario} {signedCommandRefs : Option (List String)}
    {entry : String × Json} (silent : SilentNode ir signedCommandRefs entry) :
    (∀ branch ∈ onBranchesOf entry.2, ∀ expression, textOf branch "when" = some expression →
      Silent (expressionScope ir entry.1).context expression) ∧
    (∀ loop, loopOf entry.2 = some loop → ∀ expression, textOf loop "until" = some expression →
      Silent ((expressionScope ir entry.1).context true) expression) := by
  obtain ⟨compiled, -, done⟩ := silent.expressions
  simp only [validateExpressions, bind_eq_ok, Prod.exists, pure, Except.pure, Except.ok.injEq,
    Prod.mk.injEq, List.append_eq_nil_iff] at done
  obtain ⟨on, _, onDone, loop, _, loopDone, tiers, _, -, witnesses, _, -, -, ⟨⟨rfl, rfl⟩, -⟩, -⟩ := done
  exact ⟨(compileOn_silent onDone).2, (compileLoop_silent loopDone).2⟩

theorem lookup_filterMap_entry {Value Entry : Type} {table : List (String × Value)}
    {translate : String × Value → Option Entry} (distinct : (table.map Prod.fst).Nodup)
    {entry : String × Value} (member : entry ∈ table) :
    (table.filterMap fun entry => (translate entry).map fun found => (entry.1, found)).lookup entry.1 =
      translate entry := by
  induction table with
  | nil => cases member
  | cons first rest ih =>
    simp only [List.map_cons, List.nodup_cons] at distinct
    rcases List.mem_cons.mp member with rfl | later
    · cases found : translate entry with
      | none =>
        simp only [List.filterMap_cons, found, Option.map_none]
        rw [List.lookup_eq_none_iff]
        intro pair paired
        simp only [List.mem_filterMap, Option.map_eq_some_iff] at paired
        obtain ⟨source, isSource, found, -, rfl⟩ := paired
        have differs : entry.1 ≠ source.1 := fun same =>
          distinct.1 (same ▸ List.mem_map_of_mem isSource)
        simpa using differs
      | some value => simp [found]
    · have differs : entry.1 ≠ first.1 := fun same =>
        distinct.1 (same ▸ List.mem_map_of_mem later)
      cases found : translate first with
      | none => simpa [List.filterMap_cons, found] using ih distinct.2 later
      | some value =>
        have skipped : (entry.1 == first.1) = false := by simpa using differs
        simpa [List.filterMap_cons, found, List.lookup_cons, skipped] using ih distinct.2 later

theorem AcceptedFacts.lookup {ir : IrScenario} {signedCommandRefs : Option (List String)}
    {compiledAst : CompiledScenarioAst} (facts : AcceptedFacts ir signedCommandRefs compiledAst)
    {entry : String × Json} (member : entry ∈ ir.nodes) :
    (compiledAst.nodes.lookup entry.1).getD {} =
      if entry.1 = "__proto__" then {} else treesOf (expressionScope ir entry.1) entry.2 := by
  have sameEntries : compiledEntry ir signedCommandRefs = fun entry =>
      (if entry.1 = "__proto__" then none else compiledOf ir signedCommandRefs entry.1 entry.2).map
        fun compiled => (entry.1, compiled) := by
    funext entry
    unfold compiledEntry
    split <;> rfl
  rw [facts.nodes, sameEntries, lookup_filterMap_entry ir.distinct member]
  split
  · rfl
  · obtain ⟨compiled, same, expressions⟩ := (facts.silent entry member).expressions
    rw [same]
    exact (validateExpressions_silent expressions).1

theorem nodeCompiled_default_iff {scope : ExpressionScope} {node : Json} :
    NodeCompiled scope node {} ↔ Bare node := by
  constructor
  · rintro ⟨on, loop, tiers, witnesses⟩
    refine ⟨by simpa using on, by simpa using loop, ?_, by simpa using witnesses⟩
    cases chain : fallbackChainOf node with
    | nil => rfl
    | cons tier rest => simp [chain, tiersWithPrior] at tiers
  · rintro ⟨on, loop, tiers, witnesses⟩
    exact ⟨by simp [on], by simp [loop], by simp [tiers, tiersWithPrior], by simp [witnesses]⟩

theorem nodeClean_of_bare {scope : ExpressionScope} {node : Json} (bare : Bare node) :
    NodeClean scope node := by
  obtain ⟨on, loop, tiers, witnesses⟩ := bare
  exact ⟨by simp [on], by simp [loop], by simp [tiers, tiersWithPrior], by simp [witnesses]⟩

/-- The compiled trees of an accepted scenario hold every expression exactly when
no expression calls a function on a variable of the empty type, the parts that are
read are there, and `__proto__` names no node with expressions. -/
theorem compiledAst_complete_iff (ir : IrScenario) (signedCommandRefs : Option (List String))
    (compiledAst : CompiledScenarioAst) (compiles : CompilesTo ir signedCommandRefs compiledAst) :
    NothingDropped ir compiledAst ↔ ExpressionsClean ir := by
  refine forall₂_congr fun entry member => ?_
  rw [compiles.facts.lookup member]
  obtain ⟨compiled, -, expressions⟩ := (compiles.facts.silent entry member).expressions
  by_cases proto : entry.1 = "__proto__"
  · rw [if_pos proto, nodeCompiled_default_iff]
    exact ⟨fun bare => ⟨nodeClean_of_bare bare, fun _ => bare⟩, fun clean => clean.2 proto⟩
  · rw [if_neg proto, (validateExpressions_silent expressions).2]
    simp [proto]

theorem compiledAst_complete_iff_paging :
    ∃ compiledAst, CompilesTo pagingScenario none compiledAst ∧
      (NothingDropped pagingScenario compiledAst ↔ ExpressionsClean pagingScenario) := by
  have accepted : Accepted pagingScenario none := accepted_of_isAccepted (by decide +kernel)
  obtain ⟨compiledAst, compiles⟩ := accepted
  exact ⟨compiledAst, compiles, compiledAst_complete_iff pagingScenario none compiledAst compiles⟩

/-- The parameter `x` can have no value: its list of values is empty. -/
def emptyParamScenario : IrScenario where
  start := "decide"
  paramsSchema := some (.obj [("type", .str "object"),
    ("properties", .obj [("x", .obj [("enum", .arr [])])])])
  nodes := [
    ("decide", .obj [("on", .arr [branchTo "missing" "is_null(params.x)" 2, branchTo "done" "true" 1])]),
    ("missing", .obj [("terminal", .str "fail_business")]), ("done", .obj [("terminal", .str "success")])]

/-- How many branches the compiled trees of a scenario hold for a node. -/
def compiledBranches (ir : IrScenario) (nodeId : String) : Option Nat :=
  match compileScenarioStatic ir with
  | .ok ⟨_, some compiledAst⟩ => some (((compiledAst.nodes.lookup nodeId).bind (·.on)).getD []).length
  | _ => none

/-- The scenario is accepted with one of the two branches of `decide`. -/
theorem accepted_branch_dropped :
    ∃ compiledAst, CompilesTo emptyParamScenario none compiledAst ∧
      ¬ NothingDropped emptyParamScenario compiledAst := by
  have one : compiledBranches emptyParamScenario "decide" = some 1 := by decide +kernel
  unfold compiledBranches at one
  split at one
  · rename_i report compiledAst compiled
    refine ⟨compiledAst, ⟨report, compiled⟩, fun complete => ?_⟩
    have same := (complete _ List.mem_cons_self).on.length_eq
    cases found : compiledAst.nodes.lookup "decide" with
    | none => simp [found] at one
    | some trees =>
      simp only [found, Option.bind_some, Option.some.injEq, Option.getD_some] at one same
      have two : (onBranchesOf (emptyParamScenario.nodes.head (by decide)).2).length = 2 := by
        decide +kernel
      exact absurd (two.symm.trans (same.trans one)) (by decide)
  · cases one

end RpaEnterprise.Ir
