import RpaEnterprise.Ir.StaticValidation

/-!
# Accepted scenarios

What it means for a scenario that the static check returned its compiled trees:
every check of every node was silent, and the trees are those of the nodes, in
order.
-/

namespace RpaEnterprise.Ir

open Lib Irel
open Governance (ValidationIssue ValidationReport)

/-- The scenario is compiled to these trees: no error was reported. -/
def CompilesTo (ir : IrScenario) (signedCommandRefs : Option (List String))
    (compiledAst : CompiledScenarioAst) : Prop :=
  ∃ report, compileScenarioStatic ir signedCommandRefs = .ok ⟨report, some compiledAst⟩

def Accepted (ir : IrScenario) (signedCommandRefs : Option (List String)) : Prop :=
  ∃ compiledAst, CompilesTo ir signedCommandRefs compiledAst

def isAccepted (ir : IrScenario) (signedCommandRefs : Option (List String)) : Bool :=
  match compileScenarioStatic ir signedCommandRefs with
  | .ok ⟨_, some _⟩ => true
  | _ => false

theorem accepted_of_isAccepted {ir : IrScenario} {signedCommandRefs : Option (List String)}
    (checked : isAccepted ir signedCommandRefs = true) : Accepted ir signedCommandRefs := by
  unfold isAccepted at checked
  split at checked
  · rename_i report compiledAst result
    exact ⟨compiledAst, report, result⟩
  · cases checked

/-! ## The loop over the nodes -/

/-- The compiled trees of one node. -/
def compiledOf (ir : IrScenario) (signedCommandRefs : Option (List String)) (nodeId : String) (node : Json) :
    Option CompiledNode :=
  match checkNode ir signedCommandRefs nodeId node with
  | .ok checks => checks.compiled
  | .error _ => none

/-- The entry a node gets among the compiled nodes. -/
def compiledEntry (ir : IrScenario) (signedCommandRefs : Option (List String)) (entry : String × Json) :
    Option (String × CompiledNode) :=
  if entry.1 = "__proto__" then none
  else (compiledOf ir signedCommandRefs entry.1 entry.2).map fun compiled => (entry.1, compiled)

section Nodes

variable {ir : IrScenario} {signedCommandRefs : Option (List String)}

/-- All checks of a node were silent. -/
def SilentNode (ir : IrScenario) (signedCommandRefs : Option (List String)) (entry : String × Json) : Prop :=
  ∃ checks, checkNode ir signedCommandRefs entry.1 entry.2 = .ok checks ∧ checks.errors = []

theorem checkNodes_silent {nodes : List (String × Json)} {report after : ValidationReport}
    {compiled result : List (String × CompiledNode)}
    (checked : checkNodes ir signedCommandRefs nodes report compiled = .ok (after, result))
    (silent : after.errors = []) :
    report.errors = [] ∧ (∀ entry ∈ nodes, SilentNode ir signedCommandRefs entry) ∧
      result = compiled ++ nodes.filterMap (compiledEntry ir signedCommandRefs) := by
  induction nodes generalizing report compiled with
  | nil =>
    simp only [checkNodes, Except.ok.injEq, Prod.mk.injEq] at checked
    obtain ⟨rfl, rfl⟩ := checked
    exact ⟨silent, by simp, by simp⟩
  | cons entry rest ih =>
    obtain ⟨nodeId, node⟩ := entry
    rw [checkNodes] at checked
    cases done : checkNode ir signedCommandRefs nodeId node with
    | error thrown => simp [done, bind, Except.bind] at checked
    | ok checks =>
      simp only [done, bind, Except.bind] at checked
      obtain ⟨before, all, same⟩ := ih checked
      rw [List.append_eq_nil_iff] at before
      refine ⟨before.1, ?_, ?_⟩
      · intro entry member
        rcases List.mem_cons.mp member with rfl | later
        · exact ⟨checks, done, before.2⟩
        · exact all entry later
      · rw [same]
        cases found : checks.compiled with
        | none => simp [compiledEntry, compiledOf, done, found]
        | some tree =>
          by_cases proto : nodeId = "__proto__"
          · simp [compiledEntry, assignCompiled, proto]
          · simp [compiledEntry, compiledOf, done, found, assignCompiled, proto]

end Nodes

/-- What is known of an accepted scenario. -/
structure AcceptedFacts (ir : IrScenario) (signedCommandRefs : Option (List String))
    (compiledAst : CompiledScenarioAst) : Prop where
  start : ir.start ∈ ir.nodeIds
  silent : ∀ entry ∈ ir.nodes, SilentNode ir signedCommandRefs entry
  nodes : compiledAst.nodes = ir.nodes.filterMap (compiledEntry ir signedCommandRefs)
  legal : findIllegalCycles ir (buildGraph ir) = []

theorem CompilesTo.facts {ir : IrScenario} {signedCommandRefs : Option (List String)}
    {compiledAst : CompiledScenarioAst} (compiles : CompilesTo ir signedCommandRefs compiledAst) :
    AcceptedFacts ir signedCommandRefs compiledAst := by
  obtain ⟨report, compiled⟩ := compiles
  unfold compileScenarioStatic at compiled
  cases checked : checkNodes ir signedCommandRefs ir.nodes
      { errors := (if ir.start ∈ ir.nodeIds then []
          else [issue "V2" "start_not_found" s!"start node '{ir.start}' does not exist"]) ++
          ((validateParamsSchemaForIrel ir.paramsSchema).map (expressionIssue ·)).toList
        warnings := [] } [] with
  | error thrown => simp [checked, bind, Except.bind] at compiled
  | ok pair =>
    obtain ⟨nodesReport, compiledNodes⟩ := pair
    simp only [checked, bind, Except.bind, pure, Except.pure, Except.ok.injEq, StaticResult.mk.injEq]
      at compiled
    obtain ⟨-, compiled⟩ := compiled
    rw [Option.ite_none_right_eq_some, Option.some.injEq] at compiled
    obtain ⟨quiet, rfl⟩ := compiled
    simp only [List.append_eq_nil_iff, List.map_eq_nil_iff] at quiet
    obtain ⟨⟨⟨nodesQuiet, -⟩, -⟩, legal⟩ := quiet
    obtain ⟨before, silent, same⟩ := checkNodes_silent checked nodesQuiet
    refine ⟨?_, silent, by simpa using same, legal⟩
    by_contra missing
    simp [missing] at before

/-! ## The graph as a table -/

section Graph

variable {ir : IrScenario}

theorem graph_keys (ir : IrScenario) : (buildGraph ir).map Prod.fst = ir.nodeIds := by
  simp [buildGraph, IrScenario.nodeIds, Function.comp_def]

theorem lookup_of_mem_distinct {Value : Type} {table : List (String × Value)}
    (distinct : (table.map Prod.fst).Nodup) {key : String} {value : Value} :
    table.lookup key = some value ↔ (key, value) ∈ table := by
  induction table with
  | nil => simp
  | cons entry rest ih =>
    obtain ⟨name, held⟩ := entry
    simp only [List.map_cons, List.nodup_cons] at distinct
    by_cases same : key = name
    · subst same
      simp only [List.lookup_cons_self, Option.some.injEq, List.mem_cons, Prod.mk.injEq, true_and]
      refine ⟨fun equal => .inl equal.symm, ?_⟩
      rintro (equal | later)
      · exact equal.symm
      · exact absurd (List.mem_map_of_mem later) distinct.1
    · rw [List.lookup_cons, beq_false_of_ne same]
      simp [ih distinct.2, same]

/-- In a graph that has every node once, the edges from a node are those of its entry. -/
theorem mem_edgesFrom_iff {graph : List (String × List String)} (distinct : (graph.map Prod.fst).Nodup)
    {source target : String} : target ∈ edgesFrom graph source ↔ GraphEdge graph source target := by
  unfold edgesFrom GraphEdge
  cases found : graph.lookup source with
  | none =>
    simp only [Option.getD_none, List.not_mem_nil, false_iff]
    rintro ⟨targets, listed, -⟩
    rw [← lookup_of_mem_distinct distinct, found] at listed
    cases listed
  | some targets =>
    simp only [Option.getD_some]
    constructor
    · exact fun member => ⟨targets, (lookup_of_mem_distinct distinct).mp found, member⟩
    · rintro ⟨others, listed, member⟩
      rw [← lookup_of_mem_distinct distinct, found, Option.some.injEq] at listed
      exact listed ▸ member

theorem graph_distinct (ir : IrScenario) : ((buildGraph ir).map Prod.fst).Nodup := by
  rw [graph_keys]
  exact ir.distinct

theorem mem_edgesFrom {source target : String} :
    target ∈ edgesFrom (buildGraph ir) source ↔ GraphEdge (buildGraph ir) source target :=
  mem_edgesFrom_iff (graph_distinct ir)

theorem isSome_lookup_iff {Value : Type} {table : List (String × Value)} {key : String} :
    (table.lookup key).isSome ↔ key ∈ table.map Prod.fst := by
  induction table with
  | nil => simp
  | cons entry rest ih =>
    obtain ⟨name, held⟩ := entry
    by_cases same : key = name
    · subst same
      simp
    · rw [List.lookup_cons, beq_false_of_ne same]
      simp [ih, same]

end Graph

end RpaEnterprise.Ir
