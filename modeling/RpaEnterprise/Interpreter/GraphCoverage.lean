import RpaEnterprise.Interpreter.Moves
import RpaEnterprise.Interpreter.Translated

/-!
# The validated graph and the traversed graph

The static check builds a graph from the document; the interpreter follows the flows
of the translated nodes.  Every step of the interpreter from one node to another is an
edge of the validated graph, provided that the translation does not refuse the
document.
-/

namespace RpaEnterprise.Interpreter

open Lib Ir Irel

/-- The nodes of the scenario are those of the document, and their flows lead along
the edges of its graph. -/
structure Follows (ir : IrScenario) (scenario : CompiledScenario) : Prop where
  start : scenario.start ∈ ir.nodeIds
  known : ∀ nodeId ∈ ir.nodeIds, (scenario.node nodeId).isSome = true
  leads : ∀ nodeId node, scenario.node nodeId = some node →
    ∀ target ∈ node.flow.targets, Leads ir nodeId target

section Follows

variable {ir : IrScenario} {signedCommandRefs : Option (List String)} {compiledAst : CompiledScenarioAst}
  {host : Host} {params : Option Json}

theorem follows_of_translated (facts : AcceptedFacts ir signedCommandRefs compiledAst)
    (clean : FlowsClean ir) {scenario : CompiledScenario}
    (done : compiledScenarioFrom host ir compiledAst params = .ok scenario) : Follows ir scenario where
  start := (translated_start done).symm ▸ facts.start
  known := fun nodeId member => (translated_isSome_iff done).mpr member
  leads := by
    intro nodeId node found target isTarget
    obtain ⟨entry, member, rfl, isFlow⟩ := translated_node done found
    rw [facts.lookup member, (clean entry member).flowOf_eq] at isFlow
    exact flow_leads member (facts.silent entry member) isFlow target isTarget

end Follows

/-! ## Traversals -/

section Traversals

variable {ir : IrScenario} {scenario : CompiledScenario} {start : NodeId} {machine : Machine}

theorem Follows.edge (follows : Follows ir scenario) {nodeId target : NodeId}
    (edge : ScenarioEdge scenario nodeId target) (isNode : target ≠ endNoDataTarget) :
    target ∈ ir.nodeIds ∧ GraphEdge (buildGraph ir) nodeId target := by
  obtain ⟨node, found, isTarget⟩ := edge
  rcases follows.leads nodeId node found target isTarget with isEnd | leads
  · exact absurd isEnd isNode
  · exact leads

theorem Follows.knows (follows : Follows ir scenario) (known : start ∈ ir.nodeIds)
    (placed : Placed scenario start machine) (nodeId : NodeId) :
    machine.control ≠ .threw (.unknownNode nodeId) := by
  intro threw
  obtain ⟨isNode, missing, came⟩ := placed.unknown nodeId threw
  have member : nodeId ∈ ir.nodeIds := by
    rcases came with rfl | ⟨before, edge⟩
    · exact known
    · exact (follows.edge edge isNode).1
  have found := follows.known nodeId member
  rw [missing] at found
  cases found

end Traversals

/-! ## Coverage -/

/-- The graph of the document covers every traversal of the scenario: no traversal from
a node of the document comes to an unknown node, and whenever it comes from one node to
the next, or from a fallback to the first node of a tier, there is an edge. -/
def Covers (ir : IrScenario) (scenario : CompiledScenario) : Prop :=
  ∀ (deps : Deps) (initialCtx : RunContext) (startNode : Option NodeId)
    (resumeNodeOutputs : List (String × Json)) (inputs : List Input),
    deps.scenario = scenario → startNode.getD scenario.start ∈ ir.nodeIds →
    let machine := drive deps initialCtx startNode resumeNodeOutputs inputs
    (∀ nodeId, machine.control ≠ .threw (.unknownNode nodeId)) ∧
      ∀ nodeId target, .visited (some nodeId) target ∈ machine.log →
        GraphEdge (buildGraph ir) nodeId target

/-- An accepted scenario whose actions are translated is translated and covered by its
graph exactly if none of the conditions that choose an edge was left out. -/
theorem graph_covers_iff (host : Host) (params : Option Json) (ir : IrScenario)
    (signedCommandRefs : Option (List String)) (compiledAst : CompiledScenarioAst)
    (shaped : SchemaShaped ir) (compiles : CompilesTo ir signedCommandRefs compiledAst)
    (actions : ActionsTranslate host params ir) :
    (∃ scenario, compiledScenarioFrom host ir compiledAst params = .ok scenario ∧ Covers ir scenario) ↔
      FlowsClean ir := by
  have facts := compiles.facts
  have translated := compiledScenarioFrom_ok_iff facts actions shaped
  constructor
  · rintro ⟨scenario, done, -⟩
    exact translated.mp ⟨scenario, done⟩
  · intro clean
    obtain ⟨scenario, done⟩ := translated.mpr clean
    refine ⟨scenario, done, ?_⟩
    rintro deps initialCtx startNode resumeNodeOutputs inputs rfl known
    have follows := follows_of_translated facts clean done
    have placed := placed_drive deps initialCtx startNode resumeNodeOutputs inputs
    refine ⟨follows.knows known placed, fun nodeId target visited => ?_⟩
    obtain ⟨isNode, edge⟩ := placed.visits nodeId target visited
    exact (follows.edge edge isNode).2

theorem actionsTranslate_of_idle {host : Host} {params : Option Json} {ir : IrScenario}
    (idle : ∀ entry ∈ ir.nodes, whatOf entry.2 = []) : ActionsTranslate host params ir := by
  intro entry member action acts
  rw [idle entry member] at acts
  cases acts

theorem graph_covers_iff_paging :
    ∃ compiledAst, CompilesTo pagingScenario none compiledAst ∧
      ((∃ scenario, compiledScenarioFrom plainHost pagingScenario compiledAst none = .ok scenario ∧
        Covers pagingScenario scenario) ↔ FlowsClean pagingScenario) := by
  have accepted : Accepted pagingScenario none := accepted_of_isAccepted (by decide +kernel)
  have actions : ActionsTranslate plainHost none pagingScenario :=
    actionsTranslate_of_idle (by decide +kernel)
  obtain ⟨compiledAst, compiles⟩ := accepted
  exact ⟨compiledAst, compiles,
    graph_covers_iff plainHost none pagingScenario none compiledAst (by decide +kernel) compiles actions⟩

/-- Whether an accepted scenario is translated. -/
def translates (host : Host) (ir : IrScenario) (params : Option Json) : Option Bool :=
  match compileScenarioStatic ir with
  | .ok ⟨_, some compiledAst⟩ => some (compiledScenarioFrom host ir compiledAst params).isOk
  | _ => none

/-- The scenario is accepted with one of two branches, and the translation refuses the
difference. -/
theorem accepted_not_translated :
    SchemaShaped emptyParamScenario ∧ ActionsTranslate plainHost none emptyParamScenario ∧
      ∃ compiledAst, CompilesTo emptyParamScenario none compiledAst ∧
        ∀ scenario, compiledScenarioFrom plainHost emptyParamScenario compiledAst none ≠ .ok scenario := by
  refine ⟨by decide +kernel, actionsTranslate_of_idle (by decide +kernel), ?_⟩
  have refused : translates plainHost emptyParamScenario none = some false := by decide +kernel
  unfold translates at refused
  split at refused
  · rename_i report compiledAst compiled
    refine ⟨compiledAst, ⟨report, compiled⟩, fun scenario done => ?_⟩
    rw [done] at refused
    cases refused
  · cases refused

end RpaEnterprise.Interpreter
