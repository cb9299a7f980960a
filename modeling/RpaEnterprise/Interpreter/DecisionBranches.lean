import Mathlib.Algebra.Order.Ring.Unbundled.Rat
import RpaEnterprise.Interpreter.Flow

/-!
# Branches on human decisions

Rule V13 of the static check compares the branches of a node with the values a human
decision can have.  Where each branch is `true`, an equality on a decision or an
expression without decisions, a node that passes the rule has a branch for every
decision, so that `selectOnBranch` finds a match.  Whether it picks the match depends on the
priorities: two equal ones are refused first.
-/

namespace RpaEnterprise.Interpreter

open Lib Ir Irel

/-! ## Priorities -/

theorem byPriority_perm (branches : List OnBranch) : (byPriority branches).Perm branches :=
  List.perm_insertionSort _ branches

theorem byPriority_sorted (branches : List OnBranch) :
    (byPriority branches).Pairwise fun one two => two.priority ≤ one.priority := by
  have total : Std.Total fun one two : OnBranch => two.priority ≤ one.priority :=
    ⟨fun one two => le_total two.priority one.priority⟩
  have trans : IsTrans OnBranch fun one two => two.priority ≤ one.priority :=
    ⟨fun _ _ _ first second => le_trans second first⟩
  exact List.pairwise_insertionSort _ branches

/-- Where the priorities go down, equal ones are next to each other. -/
theorem duplicatePriority_eq_none_iff {ordered : List OnBranch}
    (sorted : ordered.Pairwise fun one two => two.priority ≤ one.priority) :
    duplicatePriority ordered = none ↔ (ordered.map OnBranch.priority).Nodup := by
  induction ordered with
  | nil => simp [duplicatePriority]
  | cons first rest ih =>
    obtain ⟨above, later⟩ := List.pairwise_cons.mp sorted
    cases rest with
    | nil => simp [duplicatePriority]
    | cons second rest =>
      rw [duplicatePriority, List.map_cons, List.nodup_cons, ← ih later]
      by_cases same : second.priority = first.priority
      · simp [same]
      · rw [if_neg same]
        refine ⟨fun none => ⟨?_, none⟩, And.right⟩
        -- the priorities after the second are not above it, and it is below the first
        have below : second.priority < first.priority :=
          lt_of_le_of_ne (above second List.mem_cons_self) same
        rw [List.mem_map]
        rintro ⟨other, listed, equal⟩
        rcases List.mem_cons.mp listed with rfl | further
        · exact same equal
        · have under := (List.pairwise_cons.mp later).1 other further
          exact absurd (equal ▸ under) (not_le.mpr below)

/-! ## Matches -/

theorem firstTrue_of_match {deps : Deps} {nodeId : NodeId} {scope : IrelScope} {ordered : List OnBranch}
    (evaluates : ∀ branch ∈ ordered, ∃ value, evaluateCondition deps branch.when_ scope = .ok value)
    (matched : ∃ branch ∈ ordered, evaluateCondition deps branch.when_ scope = .ok true) :
    ∃ target, firstTrue deps nodeId scope ordered = .ok target := by
  induction ordered with
  | nil => simp at matched
  | cons branch rest ih =>
    obtain ⟨value, here⟩ := evaluates branch List.mem_cons_self
    cases value with
    | true => exact ⟨branch.target, firstTrue_cons_true here⟩
    | false =>
      rw [firstTrue_cons_false here]
      refine ih (fun other listed => evaluates other (List.mem_cons_of_mem _ listed)) ?_
      obtain ⟨other, listed, holds⟩ := matched
      rcases List.mem_cons.mp listed with rfl | later
      · rw [here] at holds
        cases holds
      · exact ⟨other, later, holds⟩

/-- With a match among branches that can be evaluated, only equal priorities stand in
the way. -/
theorem selectOnBranch_of_match {deps : Deps} {nodeId : NodeId} {scope : IrelScope} {branches : List OnBranch}
    (evaluates : ∀ branch ∈ branches, ∃ value, evaluateCondition deps branch.when_ scope = .ok value)
    (matched : ∃ branch ∈ branches, evaluateCondition deps branch.when_ scope = .ok true) :
    (∀ other, selectOnBranch deps nodeId branches scope ≠ .error (.noBranchMatched other)) ∧
      ((∃ target, selectOnBranch deps nodeId branches scope = .ok target) ↔
        (branches.map OnBranch.priority).Nodup) := by
  have perm := byPriority_perm branches
  have nodup : (branches.map OnBranch.priority).Nodup ↔ duplicatePriority (byPriority branches) = none := by
    rw [duplicatePriority_eq_none_iff (byPriority_sorted branches)]
    exact ((perm.map OnBranch.priority).nodup_iff).symm
  obtain ⟨target, found⟩ : ∃ target, firstTrue deps nodeId scope (byPriority branches) = .ok target := by
    refine firstTrue_of_match (fun branch listed => evaluates branch (perm.mem_iff.mp listed)) ?_
    obtain ⟨branch, listed, holds⟩ := matched
    exact ⟨branch, perm.mem_iff.mpr listed, holds⟩
  rw [nodup]
  unfold selectOnBranch
  dsimp only
  cases duplicatePriority (byPriority branches) with
  | none => simp [found]
  | some priority => simp

/-! ## Decisions -/

section Decisions

variable {humanTaskNodes : List (String × HumanTaskNodeMeta)}

theorem path_of_decisionOwner {path : List String} {nodeId : String}
    (owned : decisionOwner humanTaskNodes path = some nodeId) : path = ["node", nodeId, "decision"] := by
  unfold decisionOwner at owned
  split at owned
  · split at owned
    · cases owned
      rfl
    · cases owned
  · cases owned

/-- An equality on a decision compares the variable with the literal, either way round. -/
theorem bareDecisionEquality_eq_some {ast : IrelNode} {nodeId literal : String}
    (equality : bareDecisionEquality humanTaskNodes ast = some (nodeId, literal)) :
    ∃ grouped variableGrouped literalGrouped,
      ast = .compare .eq (.var ["node", nodeId, "decision"] variableGrouped)
          (.literal .string (.str literal) literalGrouped) grouped ∨
        ast = .compare .eq (.literal .string (.str literal) literalGrouped)
          (.var ["node", nodeId, "decision"] variableGrouped) grouped := by
  have isVar : ∀ {side : IrelNode}, decisionVarNodeId humanTaskNodes side = some nodeId →
      ∃ grouped, side = .var ["node", nodeId, "decision"] grouped := by
    intro side owned
    unfold decisionVarNodeId at owned
    split at owned
    · rename_i path grouped
      exact ⟨grouped, by rw [path_of_decisionOwner owned]⟩
    · cases owned
  have isText : ∀ {side : IrelNode}, stringLiteralValue side = some literal →
      ∃ grouped, side = .literal .string (.str literal) grouped := by
    intro side text
    unfold stringLiteralValue at text
    split at text
    · rename_i grouped
      cases text
      exact ⟨grouped, rfl⟩
    · cases text
  unfold bareDecisionEquality at equality
  split at equality
  · rename_i left right grouped
    split at equality
    · rename_i owner text owned read
      cases equality
      obtain ⟨variableGrouped, rfl⟩ := isVar owned
      obtain ⟨literalGrouped, rfl⟩ := isText read
      exact ⟨grouped, variableGrouped, literalGrouped, .inl rfl⟩
    · split at equality
      · rename_i owner text owned read
        cases equality
        obtain ⟨variableGrouped, rfl⟩ := isVar owned
        obtain ⟨literalGrouped, rfl⟩ := isText read
        exact ⟨grouped, variableGrouped, literalGrouped, .inr rfl⟩
      · cases equality
  · cases equality

theorem evaluate_bareDecisionEquality {deps : Deps} {scope : IrelScope} {ast : IrelNode}
    {nodeId literal value : String} (equality : bareDecisionEquality humanTaskNodes ast = some (nodeId, literal))
    (decided : resolveRuntimeVariable ["node", nodeId, "decision"] scope = .ok (.str value)) :
    evaluateCondition deps ast scope = .ok (decide (value = literal)) := by
  obtain ⟨grouped, variableGrouped, literalGrouped, rfl | rfl⟩ := bareDecisionEquality_eq_some equality
  · simp [evaluateCondition, evaluateIrelBooleanExpression, evaluateIrelExpression, decided, evaluateCompare, bind,
      Except.bind, pure, Except.pure, expectRuntimeBoolean]
  · simp [evaluateCondition, evaluateIrelBooleanExpression, evaluateIrelExpression, decided, evaluateCompare, bind,
      Except.bind, pure, Except.pure, expectRuntimeBoolean, eq_comm]

theorem evaluate_isLiteralTrue {deps : Deps} {scope : IrelScope} {ast : IrelNode}
    (isTrue : isLiteralTrue ast = true) : evaluateCondition deps ast scope = .ok true := by
  unfold isLiteralTrue at isTrue
  split at isTrue
  · simp [evaluateCondition, evaluateIrelBooleanExpression, evaluateIrelExpression, bind, Except.bind,
      expectRuntimeBoolean]
  · cases isTrue

/-- The conditions that the rule can judge. -/
def Judged (humanTaskNodes : List (String × HumanTaskNodeMeta)) (ast : IrelNode) : Prop :=
  isLiteralTrue ast = true ∨ (bareDecisionEquality humanTaskNodes ast).isSome = true ∨
    decisionRefsIn humanTaskNodes ast = []

/-- Without a branch `true`, a silent rule has seen every value of a decision that is
compared. -/
theorem covered_of_silent {nodeId : String} {compiled : CompiledNode} {conditions : List IrelNode}
    (same : (compiled.on.getD []).map CompiledOnBranch.when_ = conditions)
    (silent : validateDecisionBranchCompleteness nodeId compiled humanTaskNodes = [])
    (judged : ∀ ast ∈ conditions, Judged humanTaskNodes ast)
    (noCatchAll : ∀ ast ∈ conditions, isLiteralTrue ast = false) {owner literal value : String}
    (compares : ∃ ast ∈ conditions, bareDecisionEquality humanTaskNodes ast = some (owner, literal))
    (valid : value ∈ irelDecisionValues) :
    ∃ ast ∈ conditions, bareDecisionEquality humanTaskNodes ast = some (owner, value) := by
  have kept : conditions.filter (fun ast => !isLiteralTrue ast) = conditions :=
    List.filter_eq_self.mpr fun ast listed => by simp [noCatchAll ast listed]
  have noneTrue : ((compiled.on.getD []).any fun branch => isLiteralTrue branch.when_) = false := by
    rw [List.any_eq_false]
    intro branch listed
    simp [noCatchAll branch.when_ (same ▸ List.mem_map_of_mem listed)]
  unfold validateDecisionBranchCompleteness at silent
  simp only [same, kept, noneTrue, Bool.false_eq_true, if_false] at silent
  obtain ⟨ast, listed, equality⟩ := compares
  have pure_ : owner ∉ (conditions.filter fun when_ =>
      (bareDecisionEquality humanTaskNodes when_).isNone).flatMap (decisionRefsIn humanTaskNodes) := by
    rw [List.mem_flatMap]
    rintro ⟨other, among, refers⟩
    obtain ⟨listed, noEquality⟩ := List.mem_filter.mp among
    rcases judged other listed with isTrue | isEquality | noRefs
    · rw [noCatchAll other listed] at isTrue
      cases isTrue
    · rw [Option.isNone_iff_eq_none] at noEquality
      rw [noEquality] at isEquality
      cases isEquality
    · rw [noRefs] at refers
      cases refers
  have noMissing := List.filterMap_eq_nil_iff.mp silent owner (by
    rw [List.mem_eraseDups, List.mem_flatMap]
    exact ⟨ast, listed, by simp [equality]⟩)
  rw [if_neg pure_] at noMissing
  split at noMissing
  · rename_i none
    have covered := List.filter_eq_nil_iff.mp none value valid
    rw [decide_eq_true_eq, not_not, List.mem_filterMap] at covered
    exact covered
  · cases noMissing

end Decisions

/-- Where every branch is `true`, an equality on a decision or free of decisions, and
some branch is an equality, a node without a V13 warning has a match for all decisions:
`IR_NO_BRANCH_MATCHED` is not thrown, and a branch is picked unless two have the same priority. -/
theorem judged_branches_match (deps : Deps) (nodeId : NodeId) (compiled : CompiledNode)
    (humanTaskNodes : List (String × HumanTaskNodeMeta)) (branches : List OnBranch) (scope : IrelScope)
    (values : NodeId → String)
    (same : (compiled.on.getD []).map CompiledOnBranch.when_ = branches.map OnBranch.when_)
    (judged : ∀ branch ∈ branches, Judged humanTaskNodes branch.when_)
    (silent : validateDecisionBranchCompleteness nodeId compiled humanTaskNodes = [])
    (compares : ∃ branch ∈ branches, (bareDecisionEquality humanTaskNodes branch.when_).isSome = true)
    (valid : ∀ owner, values owner ∈ irelDecisionValues)
    (decided : ∀ branch ∈ branches, ∀ owner literal,
      bareDecisionEquality humanTaskNodes branch.when_ = some (owner, literal) →
      resolveRuntimeVariable ["node", owner, "decision"] scope = .ok (.str (values owner)))
    (evaluates : ∀ branch ∈ branches, decisionRefsIn humanTaskNodes branch.when_ = [] →
      ∃ value, evaluateIrelBooleanExpression deps.parseDate scope branch.when_ = .ok value) :
    (∀ other, selectOnBranch deps nodeId branches scope ≠ .error (.noBranchMatched other)) ∧
      ((∃ target, selectOnBranch deps nodeId branches scope = .ok target) ↔
        (branches.map OnBranch.priority).Nodup) := by
  refine selectOnBranch_of_match ?_ ?_
  · intro branch listed
    rcases judged branch listed with isTrue | isEquality | noRefs
    · exact ⟨true, evaluate_isLiteralTrue isTrue⟩
    · obtain ⟨⟨owner, literal⟩, equality⟩ := Option.isSome_iff_exists.mp isEquality
      exact ⟨_, evaluate_bareDecisionEquality equality (decided branch listed owner literal equality)⟩
    · obtain ⟨value, evaluated⟩ := evaluates branch listed noRefs
      exact ⟨value, by simp [evaluateCondition, evaluated]⟩
  · by_cases catchAll : ∃ branch ∈ branches, isLiteralTrue branch.when_ = true
    · obtain ⟨branch, listed, isTrue⟩ := catchAll
      exact ⟨branch, listed, evaluate_isLiteralTrue isTrue⟩
    · push Not at catchAll
      obtain ⟨branch, listed, isEquality⟩ := compares
      obtain ⟨⟨owner, literal⟩, equality⟩ := Option.isSome_iff_exists.mp isEquality
      have judgedAll : ∀ ast ∈ branches.map OnBranch.when_, Judged humanTaskNodes ast := by
        rw [List.forall_mem_map]
        exact judged
      have noneTrue : ∀ ast ∈ branches.map OnBranch.when_, isLiteralTrue ast = false := by
        rw [List.forall_mem_map]
        exact fun branch listed => Bool.eq_false_iff.mpr (catchAll branch listed)
      obtain ⟨ast, among, covers⟩ := covered_of_silent same silent judgedAll noneTrue
        ⟨branch.when_, List.mem_map_of_mem listed, equality⟩ (valid owner)
      obtain ⟨other, there, rfl⟩ := List.mem_map.mp among
      refine ⟨other, there, ?_⟩
      rw [evaluate_bareDecisionEquality covers (decided other there owner _ covers)]
      simp

/-- `node.review.decision == "…"`. -/
def decisionIs (value : String) : IrelNode :=
  .compare .eq (.var ["node", "review", "decision"] false) (.literal .string (.str value) false) false

def reviewTasks : List (String × HumanTaskNodeMeta) := [("review", ⟨[]⟩)]

/-- The task `review` was approved. -/
def approvedScope : IrelScope where
  node := some (.obj [("review", .obj [("decision", .str "approve")])])

/-- One branch for every decision. -/
def fourBranches : List OnBranch :=
  [⟨decisionIs "approve", "send", 4⟩, ⟨decisionIs "reject", "stop", 3⟩, ⟨decisionIs "correct", "edit", 2⟩,
    ⟨decisionIs "retry", "read", 1⟩]

/-- A branch for an approval, and one for everything else. -/
def approvedOrElse (first second : Rat) : List OnBranch :=
  [⟨decisionIs "approve", "send", first⟩, ⟨.literal .boolean (.bool true) false, "stop", second⟩]

/-- The branches as the static check sees them. -/
def compiledBranches (branches : List OnBranch) : CompiledNode where
  on := some (branches.map fun branch => ⟨branch.when_, some (.str branch.target), branch.priority⟩)

def noScenario : Deps where
  scenario := ⟨"review", []⟩

theorem judged_branches_match_four :
    ∃ target, selectOnBranch noScenario "route" fourBranches approvedScope = .ok target := by
  refine (judged_branches_match noScenario "route" (compiledBranches fourBranches) reviewTasks fourBranches
    approvedScope (fun _ => "approve") rfl ?_ (by decide +kernel) ⟨_, List.mem_cons_self, rfl⟩
    (fun _ => by decide) ?_ ?_).2.mpr (by decide +kernel)
  · simp only [fourBranches, List.forall_mem_cons, List.not_mem_nil, false_implies, implies_true, and_true]
    exact ⟨.inr (.inl rfl), .inr (.inl rfl), .inr (.inl rfl), .inr (.inl rfl)⟩
  · simp only [fourBranches, List.forall_mem_cons, List.not_mem_nil, false_implies, implies_true, and_true]
    refine ⟨?_, ?_, ?_, ?_⟩ <;> rintro owner literal ⟨⟩ <;> rfl
  · simp only [fourBranches, List.forall_mem_cons, List.not_mem_nil, false_implies, implies_true, and_true]
    refine ⟨?_, ?_, ?_, ?_⟩ <;> rintro ⟨⟩

/-- Two branches with one priority: the rule is silent, and no branch is picked. -/
theorem tied_branches_refused :
    (∀ branch ∈ approvedOrElse 1 1, Judged reviewTasks branch.when_) ∧
    validateDecisionBranchCompleteness "route" (compiledBranches (approvedOrElse 1 1)) reviewTasks = [] ∧
    (∃ branch ∈ approvedOrElse 1 1, (bareDecisionEquality reviewTasks branch.when_).isSome = true) ∧
    resolveRuntimeVariable ["node", "review", "decision"] approvedScope = .ok (.str "approve") ∧
    (∀ branch ∈ approvedOrElse 1 1, decisionRefsIn reviewTasks branch.when_ = [] →
      evaluateIrelBooleanExpression noScenario.parseDate approvedScope branch.when_ = .ok true) ∧
    selectOnBranch noScenario "route" (approvedOrElse 1 1) approvedScope =
      .error (.duplicatePriority "route" 1) := by
  refine ⟨?_, by decide +kernel, ⟨_, List.mem_cons_self, rfl⟩, rfl, ?_, by rfl⟩
  · simp only [approvedOrElse, List.forall_mem_cons, List.not_mem_nil, false_implies, implies_true, and_true]
    exact ⟨.inr (.inl rfl), .inl rfl⟩
  · intro branch listed noRefs
    rcases List.mem_cons.mp listed with rfl | last
    · exact absurd noRefs (by decide +kernel)
    · rw [List.mem_singleton.mp last]
      rfl

end RpaEnterprise.Interpreter
