import RpaEnterprise.Interpreter.Positions
import RpaEnterprise.Interpreter.Translate
import RpaEnterprise.Ir.Compiled

/-!
# Accepted documents in translation

What the translation makes of a document the static check has accepted: which
documents it refuses, and where the flows of the translated nodes lead.
-/

namespace RpaEnterprise.Interpreter

open Lib Ir Irel
open Governance (ValidationIssue)

/-! ## Targets of flows -/

/-- The target is the end without data, or a node of the scenario along an edge. -/
def Leads (ir : IrScenario) (nodeId target : NodeId) : Prop :=
  target = endNoDataTarget ∨ target ∈ ir.nodeIds ∧ GraphEdge (buildGraph ir) nodeId target

section Targets

variable {ir : IrScenario} {signedCommandRefs : Option (List String)} {entry : String × Json}

theorem edge_of_ref (member : entry ∈ ir.nodes) {ref : TargetRef} (listed : ref ∈ targetRefsOf entry.2)
    (isEdge : isNodeEdge ref = true) {target : String} (leads : ref.target = some target) :
    GraphEdge (buildGraph ir) entry.1 target := by
  refine ⟨edgeTargetsOf entry.2, ?_, ?_⟩
  · exact List.mem_map_of_mem member
  · exact List.mem_filterMap.mpr ⟨ref, listed, by simp [isEdge, leads]⟩

/-- What a node of an accepted scenario has passed. -/
theorem silentNode_checks (silent : SilentNode ir signedCommandRefs entry) :
    validateTargets entry.1 entry.2 ir.nodeIds = [] ∧ validateOnBranchReservedHandler entry.1 entry.2 = [] ∧
      validateLoopContract entry.1 entry.2 = [] := by
  obtain ⟨checks, done, quiet⟩ := silent
  simp only [checkNode, bind_eq_ok, Prod.exists, pure, Except.pure, Except.ok.injEq] at done
  obtain ⟨compiled, issues, -, rfl⟩ := done
  simp only [List.append_eq_nil_iff] at quiet
  exact ⟨quiet.1.1.1.1.1.1.1.1.1, quiet.1.1.1.1.1.1.1.1.2, quiet.2⟩

theorem known_of_ref (silent : SilentNode ir signedCommandRefs entry) {ref : TargetRef}
    (listed : ref ∈ targetRefsOf entry.2) :
    ref.kind ≠ .invalidReservedHandler ∧
      ∀ target, isNodeEdge ref = true → ref.target = some target → target ∈ ir.nodeIds := by
  have quiet := (silentNode_checks silent).1
  unfold validateTargets at quiet
  have none := List.filterMap_eq_nil_iff.mp quiet ref listed
  by_cases invalid : ref.kind = .invalidReservedHandler
  · simp [invalid] at none
  · refine ⟨invalid, fun target isEdge leads => ?_⟩
    simpa [invalid, isEdge, leads] using none

/-- A text target of an accepted node leads somewhere. -/
theorem leads_of_text (member : entry ∈ ir.nodes) (silent : SilentNode ir signedCommandRefs entry)
    {label target : String} (listed : readTargetRef (some (.str target)) label ∈ targetRefsOf entry.2) :
    Leads ir entry.1 target := by
  obtain ⟨valid, known⟩ := known_of_ref silent listed
  by_cases isEnd : target = endNoDataTarget
  · exact .inl isEnd
  · by_cases reserved : target ∈ returningReservedHandlers
    · simp [readTargetRef, isEnd, reserved, invalidTarget] at valid
    · have isEdge : isNodeEdge (readTargetRef (some (.str target)) label) = true := by
        simp [readTargetRef, isEnd, reserved, isNodeEdge]
      have leads : (readTargetRef (some (.str target)) label).target = some target := by
        simp [readTargetRef, isEnd, reserved]
      exact .inr ⟨known target isEdge leads, edge_of_ref member listed isEdge leads⟩

/-- A node named by a loop or a tier of an accepted node is led to. -/
theorem leads_of_node (member : entry ∈ ir.nodes) (silent : SilentNode ir signedCommandRefs entry)
    {label target : String} {kind : TargetRefKind}
    (isEdge : isNodeEdge (readNodeTargetRef (some (.str target)) label kind) = true)
    (listed : readNodeTargetRef (some (.str target)) label kind ∈ targetRefsOf entry.2) :
    Leads ir entry.1 target :=
  .inr ⟨(known_of_ref silent listed).2 target isEdge rfl, edge_of_ref member listed isEdge rfl⟩

theorem field_of_textOf {record : Json} {key text : String} (found : textOf record key = some text) :
    record.field key = some (.str text) := by
  unfold textOf at found
  cases value : record.field key with
  | none => simp [value] at found
  | some json =>
    cases json <;> simp [value, Json.text?] at found
    rw [found]

theorem mem_of_mem_tiersWithPrior {prior : List String} {tiers : List Json} {tier : List String × Json}
    (member : tier ∈ tiersWithPrior prior tiers) : tier.2 ∈ tiers := by
  induction tiers generalizing prior with
  | nil => cases member
  | cons first rest ih =>
    rw [tiersWithPrior] at member
    rcases List.mem_cons.mp member with rfl | later
    · exact List.mem_cons_self
    · exact List.mem_cons_of_mem _ (ih later)

theorem length_tiersWithPrior (prior : List String) (tiers : List Json) :
    (tiersWithPrior prior tiers).length = tiers.length := by
  induction tiers generalizing prior with
  | nil => rfl
  | cons first rest ih => simp [tiersWithPrior, ih]

theorem reservedHandlerFlow_targets {nodeId : String} {raw : Json} {flow : NodeFlow}
    (translated : reservedHandlerFlow nodeId raw = .ok flow) : flow.targets = [] := by
  unfold reservedHandlerFlow at translated
  dsimp only at translated
  split at translated
  · cases translated
  · split at translated
    · split at translated
      · cases translated
        rfl
      · cases translated
    · cases translated

theorem toBranch_target {nodeId : String} {compiled : CompiledOnBranch} {branch : OnBranch}
    (translated : toBranch nodeId compiled = .ok branch) : compiled.target = some (.str branch.target) := by
  unfold toBranch at translated
  split at translated
  · rename_i target same
    cases translated
    exact same
  · split at translated <;> cases translated
  · cases translated

theorem onFlowOf_leads (member : entry ∈ ir.nodes) (silent : SilentNode ir signedCommandRefs entry)
    {scope : ExpressionScope} {branches : List Json} {flow : NodeFlow}
    (translated : onFlowOf entry.1 branches (treesOf scope entry.2) = .ok flow) :
    ∀ target ∈ flow.targets, Leads ir entry.1 target := by
  unfold onFlowOf at translated
  dsimp only at translated
  split at translated
  · cases translated
  · rw [bind_eq_ok] at translated
    obtain ⟨translatedBranches, all, done⟩ := translated
    cases done
    intro target isTarget
    obtain ⟨branch, isBranch, rfl⟩ := List.mem_map.mp isTarget
    obtain ⟨compiled, isCompiled, same⟩ := source_of_mem all isBranch
    simp only [treesOf, getD_nonEmpty, List.mem_filterMap] at isCompiled
    obtain ⟨raw, isRaw, entered⟩ := isCompiled
    have text : raw.field "target" = some (.str branch.target) := by
      simp only [branchOf, Option.bind_eq_bind, Option.bind_eq_some_iff, Option.some.injEq] at entered
      obtain ⟨_, -, _, -, _, -, rfl⟩ := entered
      exact toBranch_target same
    have listed : readTargetRef (some (.str branch.target)) "on[].target" ∈ targetRefsOf entry.2 := by
      simp only [targetRefsOf, List.mem_append, List.mem_map]
      exact .inl (.inl (.inr ⟨raw, isRaw, by rw [text]⟩))
    exact leads_of_text member silent listed

theorem loopFlowOf_leads (member : entry ∈ ir.nodes) (silent : SilentNode ir signedCommandRefs entry)
    {scope : ExpressionScope} {flow : NodeFlow}
    (translated : loopFlowOf entry.1 (treesOf scope entry.2) = .ok flow) :
    ∀ target ∈ flow.targets, Leads ir entry.1 target := by
  unfold loopFlowOf at translated
  split at translated
  · rename_i compiled found
    cases translated
    obtain ⟨loop, isLoop, entered⟩ := Option.bind_eq_some_iff.mp found
    obtain ⟨-, body, exit, -⟩ := loopCompiled_of_loopEntryOf loop compiled entered
    intro target isTarget
    simp only [NodeFlow.targets, List.mem_cons, List.not_mem_nil, or_false] at isTarget
    rcases isTarget with rfl | rfl
    · have listed : readNodeTargetRef (some (.str compiled.bodyTarget)) "loop.body_target" .loopBody ∈
          targetRefsOf entry.2 := by
        simp [targetRefsOf, isLoop, field_of_textOf body]
      exact leads_of_node member silent rfl listed
    · have listed : readNodeTargetRef (some (.str compiled.exitTarget)) "loop.exit_target" .loopExit ∈
          targetRefsOf entry.2 := by
        simp [targetRefsOf, isLoop, field_of_textOf exit]
      exact leads_of_node member silent rfl listed
  · cases translated

theorem fallbackFlowOf_leads (member : entry ∈ ir.nodes) (silent : SilentNode ir signedCommandRefs entry)
    {scope : ExpressionScope} {chain : List Json} {flow : NodeFlow}
    (translated : fallbackFlowOf entry.1 chain (treesOf scope entry.2) = .ok flow) :
    ∀ target ∈ flow.targets, Leads ir entry.1 target := by
  unfold fallbackFlowOf at translated
  dsimp only at translated
  split at translated
  · cases translated
  · cases translated
    intro target isTarget
    obtain ⟨compiled, isCompiled, rfl⟩ := List.mem_map.mp isTarget
    simp only [treesOf, getD_nonEmpty, List.mem_filterMap] at isCompiled
    obtain ⟨tier, isTier, entered⟩ := isCompiled
    simp only [tierOf, Option.bind_eq_bind, Option.bind_eq_some_iff, Option.some.injEq] at entered
    obtain ⟨name, -, entryNode, text, rfl⟩ := entered
    have listed : readNodeTargetRef (some (.str entryNode)) "fallback_chain[].entry_node" .fallbackEntry ∈
        targetRefsOf entry.2 := by
      simp only [targetRefsOf, List.mem_append, List.mem_map]
      exact .inl (.inr ⟨tier.2, mem_of_mem_tiersWithPrior isTier, by rw [field_of_textOf text]⟩)
    exact leads_of_node member silent rfl listed

theorem flow_leads (member : entry ∈ ir.nodes) (silent : SilentNode ir signedCommandRefs entry)
    {scope : ExpressionScope} {flow : NodeFlow}
    (translated : flowOf entry.1 entry.2 (treesOf scope entry.2) = .ok flow) :
    ∀ target ∈ flow.targets, Leads ir entry.1 target := by
  unfold flowOf at translated
  split at translated
  · cases translated
    simp [NodeFlow.targets]
  · rename_i _ next
    cases translated
    intro other isTarget
    simp only [NodeFlow.targets, List.mem_singleton] at isTarget
    subst isTarget
    have listed : readTargetRef (some (.str other)) "next" ∈ targetRefsOf entry.2 := by
      simp [targetRefsOf, next]
    exact leads_of_text member silent listed
  · simp [reservedHandlerFlow_targets translated]
  · exact onFlowOf_leads member silent translated
  · exact loopFlowOf_leads member silent translated
  · exact fallbackFlowOf_leads member silent translated
  · cases translated

end Targets

/-! ## Documents that are translated -/

theorem projectVerify_ok (nodeId : NodeId) {rawVerify : Option Json} (rawPolicy : Option Json)
    (valid : isVerify rawVerify = true) :
    ∃ verify, projectVerify nodeId rawVerify rawPolicy = .ok verify := by
  unfold isVerify at valid
  split at valid
  · exact ⟨none, rfl⟩
  · split at valid
    · rename_i criteria found
      unfold isArrayOf at valid
      split at valid
      · rename_i entries
        cases entries with
        | nil => simp at valid
        | cons criterion rest => exact ⟨_, by simp only [projectVerify, found]; rfl⟩
      · cases valid
    · cases valid
  · cases valid

theorem filled_of_isNodeTarget {record : Json} {key : String}
    (valid : isNodeTarget (record.field key) = true) : ∃ text, filled record key = some text := by
  unfold isNodeTarget at valid
  split at valid
  · rename_i text found
    have written : text ≠ "" := by
      rintro rfl
      simp [isIdentifier] at valid
    exact ⟨text, by simp [filled, textOf, found, Json.text?, written]⟩
  · cases valid

theorem reservedHandlerFlow_ok (nodeId : NodeId) {fields : List (String × Json)}
    (valid : isTarget (some (.obj fields)) = true) :
    ∃ flow, reservedHandlerFlow nodeId (.obj fields) = .ok flow := by
  simp only [isTarget, Bool.and_eq_true] at valid
  obtain ⟨⟨handled, isInput⟩, isReturn⟩ := valid
  obtain ⟨returnNode, returns⟩ := filled_of_isNodeTarget isReturn
  obtain ⟨input, given⟩ : ∃ input, (Json.obj fields).field "input" = some (.obj input) := by
    unfold isRecord at isInput
    split at isInput
    · exact ⟨_, ‹_›⟩
    · cases isInput
  obtain ⟨handler, known⟩ : ∃ handler, reservedHandlerOf ((Json.obj fields).field "handler") = some handler := by
    split at handled
    · rename_i handler text
      rw [field_of_textOf text]
      simp only [returningReservedHandlers, List.contains_cons, List.contains_nil, Bool.or_false,
        Bool.or_eq_true, beq_iff_eq] at handled
      rcases handled with rfl | rfl
      · exact ⟨.challenge, rfl⟩
      · exact ⟨.humanTask, rfl⟩
    · cases handled
  exact ⟨_, by simp only [reservedHandlerFlow, known, given, returns]; rfl⟩

section Translated

variable {ir : IrScenario} {signedCommandRefs : Option (List String)} {entry : String × Json}

/-- The conditions of the branches and of the loop are compiled and not left out; a
node with the name of the prototype has none, and no tiers. -/
structure FlowClean (ir : IrScenario) (entry : String × Json) : Prop where
  on : ∀ branch ∈ onBranchesOf entry.2, BranchClean (expressionScope ir entry.1) branch
  loop : ∀ loop, loopOf entry.2 = some loop → LoopClean (expressionScope ir entry.1) loop
  proto : entry.1 = "__proto__" →
    onBranchesOf entry.2 = [] ∧ loopOf entry.2 = none ∧ fallbackChainOf entry.2 = []

/-- A document whose flows are all translated. -/
def FlowsClean (ir : IrScenario) : Prop := ∀ entry ∈ ir.nodes, FlowClean ir entry

theorem toBranch_ok (silent : SilentNode ir signedCommandRefs entry) {scope : ExpressionScope}
    {raw : Json} (isRaw : raw ∈ onBranchesOf entry.2) (valid : isBranch raw = true)
    {compiled : CompiledOnBranch} (entered : branchOf scope raw = some compiled) :
    ∃ branch, toBranch entry.1 compiled = .ok branch := by
  have quiet := List.filterMap_eq_nil_iff.mp (silentNode_checks silent).2.1 raw isRaw
  have sameTarget := (branchCompiled_of_branchOf raw compiled entered).2.1
  simp only [isBranch, Bool.and_eq_true] at valid
  have isTarget := valid.2
  cases found : raw.field "target" with
  | none =>
    rw [found] at isTarget
    cases isTarget
  | some target =>
    rw [found] at quiet isTarget sameTarget
    cases target with
    | str text => exact ⟨_, by simp only [toBranch, ← sameTarget]; rfl⟩
    | obj fields => cases quiet
    | null | bool value | num value | arr items => cases isTarget

theorem onFlowOf_ok_iff (silent : SilentNode ir signedCommandRefs entry)
    (valid : ∀ branch ∈ onBranchesOf entry.2, isBranch branch = true) :
    (∃ flow, onFlowOf entry.1 (onBranchesOf entry.2)
        (treesOf (expressionScope ir entry.1) entry.2) = .ok flow) ↔
      ∀ branch ∈ onBranchesOf entry.2, BranchClean (expressionScope ir entry.1) branch := by
  have clean : (∀ branch ∈ onBranchesOf entry.2, BranchClean (expressionScope ir entry.1) branch) ↔
      ∀ branch ∈ onBranchesOf entry.2, (branchOf (expressionScope ir entry.1) branch).isSome = true :=
    forall₂_congr fun branch isBranch => (branchOf_isSome_iff (silent.conditions.1 branch isBranch)).symm
  rw [clean, ← List.filterMap_length_eq_length]
  simp only [onFlowOf, treesOf, getD_nonEmpty]
  constructor
  · rintro ⟨flow, translated⟩
    split at translated
    · cases translated
    · rename_i same
      exact (not_ne_iff.mp same).symm
  · intro same
    rw [if_neg (not_ne_iff.mpr same.symm)]
    have all : ∀ compiled ∈ (onBranchesOf entry.2).filterMap (branchOf (expressionScope ir entry.1)),
        ∃ branch, toBranch entry.1 compiled = .ok branch := by
      intro compiled isCompiled
      obtain ⟨raw, isRaw, entered⟩ := List.mem_filterMap.mp isCompiled
      exact toBranch_ok silent isRaw (valid raw isRaw) entered
    obtain ⟨branches, done⟩ := exists_translateAll_iff.mpr all
    exact ⟨.on branches, by rw [done]; rfl⟩

theorem loopFlowOf_ok_iff (silent : SilentNode ir signedCommandRefs entry) {loop : Json}
    (isLoop : loopOf entry.2 = some loop) :
    (∃ flow, loopFlowOf entry.1 (treesOf (expressionScope ir entry.1) entry.2) = .ok flow) ↔
      LoopClean (expressionScope ir entry.1) loop := by
  rw [← loopEntryOf_isSome_iff (silent.conditions.2 loop isLoop)]
  simp only [loopFlowOf, treesOf, isLoop, Option.bind_some]
  cases loopEntryOf (expressionScope ir entry.1) loop with
  | none => simp [refuse]
  | some compiled => simp

theorem tierOf_isSome {scope : ExpressionScope} {tier : List String × Json} (valid : isTier tier.2 = true) :
    (tierOf scope tier).isSome = true := by
  simp only [isTier, Bool.and_eq_true] at valid
  obtain ⟨⟨named, entered⟩, -⟩ := valid
  obtain ⟨entryNode, isEntry⟩ := filled_of_isNodeTarget entered
  have entryText : textOf tier.2 "entry_node" = some entryNode := (Option.filter_eq_some_iff.mp isEntry).1
  split at named
  · rename_i name isName
    simp [tierOf, isName, entryText]
  · cases named

theorem fallbackFlowOf_ok {scope : ExpressionScope} {chain : List Json} (some_ : chain ≠ [])
    (isChain : fallbackChainOf entry.2 = chain) (valid : ∀ tier ∈ chain, isTier tier = true) :
    ∃ flow, fallbackFlowOf entry.1 chain (treesOf scope entry.2) = .ok flow := by
  have same : ((tiersWithPrior [] chain).filterMap (tierOf scope)).length = chain.length := by
    rw [List.filterMap_length_eq_length.mpr, length_tiersWithPrior]
    exact fun tier isTier_ => tierOf_isSome (valid tier.2 (mem_of_mem_tiersWithPrior isTier_))
  have nonempty : (tiersWithPrior [] chain).filterMap (tierOf scope) ≠ [] := by
    intro empty
    rw [empty] at same
    exact some_ (List.length_eq_zero_iff.mp same.symm)
  refine ⟨.fallback ((tiersWithPrior [] chain).filterMap (tierOf scope)), ?_⟩
  simp only [fallbackFlowOf, treesOf, isChain, getD_nonEmpty, nonempty, same, ne_eq,
    not_true_eq_false, or_self, if_false]

theorem flowClean_of_bare (noOn : onBranchesOf entry.2 = []) (noLoop : loopOf entry.2 = none)
    (noChain : fallbackChainOf entry.2 = []) : FlowClean ir entry where
  on := by simp [noOn]
  loop := by simp [noLoop]
  proto := fun _ => ⟨noOn, noLoop, noChain⟩

theorem isArrayOf_eq_true {isEntry : Json → Bool} {value : Json} (valid : isArrayOf isEntry value = true) :
    ∃ entries, value = .arr entries ∧ entries ≠ [] ∧ ∀ one ∈ entries, isEntry one = true := by
  unfold isArrayOf at valid
  split at valid
  · rename_i entries
    simp only [Bool.and_eq_true, Bool.not_eq_true', List.isEmpty_eq_false_iff, List.all_eq_true] at valid
    exact ⟨entries, rfl, valid⟩
  · cases valid

/-- A node of the schema's shape has a flow exactly if its conditions were compiled. -/
theorem flowOf_ok_iff (silent : SilentNode ir signedCommandRefs entry) (valid : isFlow entry.2 = true) :
    (∃ flow, flowOf entry.1 entry.2
        (if entry.1 = "__proto__" then {} else treesOf (expressionScope ir entry.1) entry.2) = .ok flow) ↔
      FlowClean ir entry := by
  unfold isFlow at valid
  split at valid
  · rename_i next isNext noOn noLoop noChain noTerminal
    refine iff_of_true ?_ (flowClean_of_bare (by simp [onBranchesOf, arrayOr, noOn])
      (by simp [loopOf, noLoop]) (by simp [fallbackChainOf, arrayOr, noChain]))
    simp only [flowOf, textOf, noTerminal, Option.bind_none, isNext]
    cases next with
    | str target => exact ⟨.next target, rfl⟩
    | obj fields => exact reservedHandlerFlow_ok entry.1 valid
    | null | bool value | num value | arr items => cases valid
  · rename_i on noNext isOn noLoop noChain noTerminal
    obtain ⟨branches, rfl, some_, branchesValid⟩ := isArrayOf_eq_true valid
    have isOnBranches : onBranchesOf entry.2 = branches := by simp [onBranchesOf, arrayOr, isOn, Json.items?]
    have noLoopOf : loopOf entry.2 = none := by simp [loopOf, noLoop]
    simp only [flowOf, textOf, noTerminal, Option.bind_none, noNext, isOn]
    split
    · rename_i proto
      refine iff_of_false ?_ fun clean => some_ (isOnBranches ▸ (clean.proto proto).1)
      simp [onFlowOf, some_, refuse]
    · rename_i ordinary
      rw [← isOnBranches, onFlowOf_ok_iff silent (isOnBranches ▸ branchesValid)]
      exact ⟨fun clean => ⟨clean, by simp [noLoopOf], fun proto => absurd proto ordinary⟩, FlowClean.on⟩
  · rename_i loop noNext noOn isLoop noChain noTerminal
    simp only [Bool.and_eq_true] at valid
    have isLoopOf : loopOf entry.2 = some loop := by
      unfold isRecord at valid
      cases loop <;> simp_all [loopOf]
    have noBranches : onBranchesOf entry.2 = [] := by simp [onBranchesOf, arrayOr, noOn]
    simp only [flowOf, textOf, noTerminal, Option.bind_none, noNext, noOn, isLoopOf]
    split
    · rename_i proto
      refine iff_of_false ?_ fun clean => absurd (clean.proto proto).2.1 (by simp [isLoopOf])
      simp [loopFlowOf, refuse]
    · rename_i ordinary
      rw [loopFlowOf_ok_iff silent isLoopOf]
      constructor
      · exact fun clean => ⟨by simp [noBranches], by simpa [isLoopOf] using clean,
          fun proto => absurd proto ordinary⟩
      · exact fun clean => clean.loop loop isLoopOf
  · rename_i chain noNext noOn noLoop isChain noTerminal
    obtain ⟨tiers, rfl, some_, tiersValid⟩ := isArrayOf_eq_true valid
    have isTiers : fallbackChainOf entry.2 = tiers := by simp [fallbackChainOf, arrayOr, isChain, Json.items?]
    have noBranches : onBranchesOf entry.2 = [] := by simp [onBranchesOf, arrayOr, noOn]
    have noLoopOf : loopOf entry.2 = none := by simp [loopOf, noLoop]
    simp only [flowOf, textOf, noTerminal, Option.bind_none, noNext, noOn, noLoopOf, isChain]
    split
    · rename_i proto
      refine iff_of_false ?_ fun clean => some_ (isTiers ▸ (clean.proto proto).2.2)
      simp [fallbackFlowOf, refuse]
    · rename_i ordinary
      exact iff_of_true (fallbackFlowOf_ok some_ isTiers tiersValid)
        ⟨by simp [noBranches], by simp [noLoopOf], fun proto => absurd proto ordinary⟩
  · rename_i terminal noNext noOn noLoop noChain isTerminal
    refine iff_of_true ?_ (flowClean_of_bare (by simp [onBranchesOf, arrayOr, noOn])
      (by simp [loopOf, noLoop]) (by simp [fallbackChainOf, arrayOr, noChain]))
    exact ⟨.terminal terminal, by simp [flowOf, textOf, isTerminal, Json.text?]⟩
  · cases valid

/-- A flow reads no more of the trees than the branches, the loop and the tiers. -/
theorem flowOf_congr {compiled other : CompiledNode} (sameOn : compiled.on = other.on)
    (sameLoop : compiled.loop = other.loop) (sameChain : compiled.fallbackChain = other.fallbackChain)
    (nodeId : NodeId) (raw : Json) : flowOf nodeId raw compiled = flowOf nodeId raw other := by
  simp only [flowOf, onFlowOf, loopFlowOf, fallbackFlowOf, sameOn, sameLoop, sameChain]

theorem FlowClean.flowOf_eq (clean : FlowClean ir entry) :
    flowOf entry.1 entry.2
        (if entry.1 = "__proto__" then {} else treesOf (expressionScope ir entry.1) entry.2) =
      flowOf entry.1 entry.2 (treesOf (expressionScope ir entry.1) entry.2) := by
  split
  · rename_i proto
    obtain ⟨noOn, noLoop, noChain⟩ := clean.proto proto
    apply flowOf_congr <;> simp [treesOf, noOn, noLoop, noChain, tiersWithPrior, nonEmpty]
  · rfl

variable {host : Host} {params : Option Json} {compiledAst : CompiledScenarioAst}

/-- Every action of the document is translated when it is translated alone. -/
def ActionsTranslate (host : Host) (params : Option Json) (ir : IrScenario) : Prop :=
  ∀ entry ∈ ir.nodes, ∀ action ∈ whatOf entry.2,
    ∃ mapped, mapNodeAction host params entry.1 entry.2 action = .ok mapped

theorem translateNode_ok_iff (facts : AcceptedFacts ir signedCommandRefs compiledAst)
    (actions : ActionsTranslate host params ir) (member : entry ∈ ir.nodes) (valid : isNode entry.2 = true) :
    (∃ node, translateNode host compiledAst params entry = .ok node) ↔ FlowClean ir entry := by
  simp only [isNode, Bool.and_eq_true] at valid
  obtain ⟨⟨isObject, isFlow⟩, isVerify⟩ := valid
  obtain ⟨what, mapped⟩ := exists_translateAll_iff.mpr (actions entry member)
  obtain ⟨verify, verified⟩ := projectVerify_ok entry.1 (entry.2.field "policy") isVerify
  rw [← flowOf_ok_iff (facts.silent entry member) isFlow, ← facts.lookup member]
  obtain ⟨nodeId, raw⟩ := entry
  cases raw with
  | obj fields =>
    simp only [translateNode, bind_eq_ok, mapped, verified, Except.ok.injEq, exists_eq_left', pure,
      Except.pure]
    constructor
    · rintro ⟨-, flow, translated, rfl⟩
      exact ⟨flow, translated⟩
    · rintro ⟨flow, translated⟩
      exact ⟨_, flow, translated, rfl⟩
  | null | bool value | num value | str text | arr items => cases isObject

theorem compiledScenarioFrom_ok_iff (facts : AcceptedFacts ir signedCommandRefs compiledAst)
    (actions : ActionsTranslate host params ir) (shaped : SchemaShaped ir) :
    (∃ scenario, compiledScenarioFrom host ir compiledAst params = .ok scenario) ↔ FlowsClean ir := by
  have each : FlowsClean ir ↔ ∀ entry ∈ ir.nodes, ∃ node, translateNode host compiledAst params entry = .ok node :=
    forall₂_congr fun entry member => (translateNode_ok_iff facts actions member (shaped entry member)).symm
  rw [each, ← exists_translateAll_iff]
  simp only [compiledScenarioFrom, bind_eq_ok, pure, Except.pure, Except.ok.injEq]
  constructor
  · rintro ⟨-, nodes, translated, -⟩
    exact ⟨nodes, translated⟩
  · rintro ⟨nodes, translated⟩
    exact ⟨_, nodes, translated, rfl⟩

theorem translateNode_spec {entry : String × Json} {translated : NodeId × ScenarioNode}
    (done : translateNode host compiledAst params entry = .ok translated) :
    translated.1 = entry.1 ∧
      flowOf entry.1 entry.2 ((compiledAst.nodes.lookup entry.1).getD {}) = .ok translated.2.flow := by
  obtain ⟨nodeId, raw⟩ := entry
  cases raw with
  | obj fields =>
    simp only [translateNode, bind_eq_ok, pure, Except.pure, Except.ok.injEq] at done
    obtain ⟨what, -, flow, isFlow, verify, -, rfl⟩ := done
    exact ⟨rfl, isFlow⟩
  | null | bool value | num value | str text | arr items => cases done

variable {scenario : CompiledScenario}

theorem translated_start (done : compiledScenarioFrom host ir compiledAst params = .ok scenario) :
    scenario.start = ir.start := by
  simp only [compiledScenarioFrom, bind_eq_ok, pure, Except.pure, Except.ok.injEq] at done
  obtain ⟨nodes, -, rfl⟩ := done
  rfl

theorem translated_ids (done : compiledScenarioFrom host ir compiledAst params = .ok scenario) :
    ir.nodeIds = scenario.nodes.map Prod.fst := by
  simp only [compiledScenarioFrom, bind_eq_ok, pure, Except.pure, Except.ok.injEq] at done
  obtain ⟨nodes, translated, rfl⟩ := done
  have same := (translateAll_eq_ok.mp translated).imp fun entry node one => (translateNode_spec one).1.symm
  rw [← List.forall₂_map_right_iff, ← List.forall₂_map_left_iff, List.forall₂_eq_eq_eq] at same
  exact same

theorem translated_isSome_iff (done : compiledScenarioFrom host ir compiledAst params = .ok scenario)
    {nodeId : NodeId} : (scenario.node nodeId).isSome = true ↔ nodeId ∈ ir.nodeIds := by
  rw [translated_ids done]
  exact isSome_lookup_iff

/-- A node of the translated scenario is a node of the document with its flow. -/
theorem translated_node (done : compiledScenarioFrom host ir compiledAst params = .ok scenario)
    {nodeId : NodeId} {node : ScenarioNode} (found : scenario.node nodeId = some node) :
    ∃ entry ∈ ir.nodes, nodeId = entry.1 ∧
      flowOf entry.1 entry.2 ((compiledAst.nodes.lookup entry.1).getD {}) = .ok node.flow := by
  have listed := (lookup_of_mem_distinct (translated_ids done ▸ ir.distinct)).mp found
  simp only [compiledScenarioFrom, bind_eq_ok, pure, Except.pure, Except.ok.injEq] at done
  obtain ⟨nodes, translated, rfl⟩ := done
  obtain ⟨entry, member, one⟩ := source_of_mem translated listed
  obtain ⟨sameId, isFlow⟩ := translateNode_spec one
  exact ⟨entry, member, sameId, isFlow⟩

end Translated

/-- A host that takes every pattern and every address. -/
def plainHost : Host where
  validPattern := fun _ => true
  isHttpUrl := fun _ => true

/-- The drives of a scenario that is accepted and translated, without parameters. -/
def drivesOf (ir : IrScenario) : Option Deps :=
  match compileScenarioStatic ir with
  | .ok ⟨_, some compiledAst⟩ =>
    match compiledScenarioFrom plainHost ir compiledAst none with
    | .ok scenario => some { scenario }
    | .error _ => none
  | _ => none

theorem drivesOf_eq_some {ir : IrScenario} {deps : Deps} (drives : drivesOf ir = some deps) :
    ∃ compiledAst, CompilesTo ir none compiledAst ∧
      compiledScenarioFrom plainHost ir compiledAst deps.params = .ok deps.scenario := by
  unfold drivesOf at drives
  split at drives
  · rename_i report compiledAst compiled
    split at drives
    · rename_i scenario translated
      cases drives
      exact ⟨compiledAst, ⟨report, compiled⟩, translated⟩
    · cases drives
  · cases drives

end RpaEnterprise.Interpreter
