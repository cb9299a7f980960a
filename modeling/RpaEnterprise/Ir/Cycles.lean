import Mathlib.Data.List.Chain
import RpaEnterprise.Ir.Accepted

/-!
# Cycles of accepted scenarios

The check asks that every cyclic component contains a loop node.  A component
can have several cycles, and a loop node on one of them does not bound the
others.  Run on what is left without the loop nodes, the same check finds them.
-/

namespace RpaEnterprise.Ir

open Lib Irel

/-- A closed walk, written without its last node, which is the first. -/
def IsCycle (graph : List (String × List String)) : List String → Prop
  | [] => False
  | first :: rest => List.IsChain (GraphEdge graph) (first :: (rest ++ [first]))

/-- Every cycle passes through a loop node. -/
def CyclesLoop (ir : IrScenario) : Prop :=
  ∀ cycle, IsCycle (buildGraph ir) cycle → ∃ nodeId ∈ cycle, isLoopNode (ir.node nodeId) = true

/-- The graph that is left without its loop nodes. -/
def withoutLoops (ir : IrScenario) : List (String × List String) :=
  (buildGraph ir).filter fun entry => !isLoopNode (ir.node entry.1)

/-! ## Walks -/

theorem isChain_reaches {Node : Type} {Step : Node → Node → Prop} {first last : Node} {rest : List Node}
    (chain : List.IsChain Step (first :: (rest ++ [last]))) :
    ∀ node ∈ first :: rest, Relation.ReflTransGen Step first node ∧ Relation.ReflTransGen Step node last := by
  induction rest generalizing first with
  | nil =>
    intro node member
    rw [List.mem_singleton.mp member]
    rw [List.nil_append, List.isChain_cons_cons] at chain
    exact ⟨.refl, .single chain.1⟩
  | cons second rest ih =>
    rw [List.cons_append, List.isChain_cons_cons] at chain
    intro node member
    have tail := ih chain.2
    rcases List.mem_cons.mp member with rfl | later
    · exact ⟨.refl, .head chain.1 (tail second List.mem_cons_self).2⟩
    · exact ⟨.head chain.1 (tail node later).1, (tail node later).2⟩

theorem isChain_source {Node : Type} {Step : Node → Node → Prop} {first last : Node} {rest : List Node}
    (chain : List.IsChain Step (first :: (rest ++ [last]))) :
    ∀ node ∈ first :: rest, ∃ target ∈ rest ++ [last], Step node target := by
  induction rest generalizing first with
  | nil =>
    intro node member
    rw [List.mem_singleton.mp member]
    rw [List.nil_append, List.isChain_cons_cons] at chain
    exact ⟨last, by simp, chain.1⟩
  | cons second rest ih =>
    rw [List.cons_append, List.isChain_cons_cons] at chain
    intro node member
    rcases List.mem_cons.mp member with rfl | later
    · exact ⟨second, by simp, chain.1⟩
    · obtain ⟨target, listed, step⟩ := ih chain.2 node later
      exact ⟨target, List.mem_cons_of_mem _ listed, step⟩

/-! ## One representative for each component -/

section Representatives

variable {ir : IrScenario} {graph : List (String × List String)}

theorem knownEdges_closed :
    ∀ nodeId ∈ graph.map Prod.fst, ∀ target ∈ knownEdges graph nodeId, target ∈ graph.map Prod.fst :=
  fun _ _ _ edge => isSome_lookup_iff.mp (List.mem_filter.mp edge).2

/-- A node with an edge is a node of the graph. -/
theorem mem_keys_of_edge {nodeId target : String} (edge : target ∈ edgesFrom graph nodeId) :
    nodeId ∈ graph.map Prod.fst := by
  refine isSome_lookup_iff.mp ?_
  unfold edgesFrom at edge
  cases found : graph.lookup nodeId with
  | none =>
    rw [found] at edge
    cases edge
  | some targets => rfl

/-- A node whose component has a cycle, so more than one node or a self-edge, and no loop
node. -/
structure IllegalComponent (ir : IrScenario) (graph : List (String × List String)) (nodeId : String) : Prop where
  known : nodeId ∈ graph.map Prod.fst
  cyclic : (∃ other, other ≠ nodeId ∧ Mutual (knownEdges graph) nodeId other) ∨ nodeId ∈ edgesFrom graph nodeId
  loopless : ∀ other, Mutual (knownEdges graph) nodeId other → isLoopNode (ir.node other) = false

/-- The test for a cycle, read at any node of the component. -/
theorem cyclic_iff {component : List String} (distinct : component.Nodup) {nodeId : String}
    (member : nodeId ∈ component)
    (isClass : ∀ other, other ∈ component ↔ Mutual (knownEdges graph) nodeId other) :
    (decide (1 < component.length) || component.any fun nodeId => decide (nodeId ∈ edgesFrom graph nodeId)) = true ↔
      (∃ other, other ≠ nodeId ∧ Mutual (knownEdges graph) nodeId other) ∨ nodeId ∈ edgesFrom graph nodeId := by
  rw [Bool.or_eq_true, decide_eq_true_eq, List.any_eq_true]
  simp only [decide_eq_true_eq]
  constructor
  · rintro (long | ⟨other, isOther, selfEdge⟩)
    · left
      by_contra alone
      push Not at alone
      have only : component ⊆ [nodeId] := fun other isOther => by
        by_contra differs
        exact alone other (by simpa using differs) ((isClass other).mp isOther)
      have short := (List.subperm_of_subset distinct only).length_le
      exact absurd long (Nat.not_lt.mpr short)
    · by_cases same : other = nodeId
      · exact .inr (same ▸ selfEdge)
      · exact .inl ⟨other, same, (isClass other).mp isOther⟩
  · rintro (⟨other, differs, both⟩ | selfEdge)
    · left
      have isOther := (isClass other).mpr both
      match component, member, isOther with
      | [_], member, isOther =>
        exact absurd ((List.mem_singleton.mp isOther).trans (List.mem_singleton.mp member).symm) differs
      | _ :: _ :: _, _, _ => simp
    · exact .inr ⟨nodeId, member, selfEdge⟩

/-- A component is reported just if it is illegal. -/
theorem reported_iff {component : List String} (listed : component ∈ componentsOf (knownEdges graph) (graph.map Prod.fst))
    {nodeId : String} (member : nodeId ∈ component) :
    ((decide (1 < component.length) || component.any fun nodeId => decide (nodeId ∈ edgesFrom graph nodeId)) &&
      !component.any fun nodeId => isLoopNode (ir.node nodeId)) = true ↔ IllegalComponent ir graph nodeId := by
  have distinct := (List.nodup_flatten.mp (componentsOf_nodup (@knownEdges_closed graph))).1 component listed
  have isClass := (componentsOf_spec (@knownEdges_closed graph)).2 component listed nodeId member
  rw [Bool.and_eq_true, cyclic_iff distinct member isClass, Bool.not_eq_true', List.any_eq_false]
  constructor
  · rintro ⟨cyclic, loopless⟩
    refine ⟨?_, cyclic, fun other both => by simpa using loopless other ((isClass other).mpr both)⟩
    rcases cyclic with ⟨other, differs, both⟩ | selfEdge
    · rcases both.1.cases_head with rfl | ⟨target, edge, -⟩
      · exact absurd rfl differs
      · exact mem_keys_of_edge (List.mem_filter.mp edge).1
    · exact mem_keys_of_edge selfEdge
  · intro illegal
    exact ⟨illegal.cyclic, fun other isOther => by simpa using illegal.loopless other ((isClass other).mp isOther)⟩

theorem mem_findIllegalCycles {nodeId : String} :
    nodeId ∈ findIllegalCycles ir graph ↔ IllegalComponent ir graph nodeId ∧
      ∃ component ∈ componentsOf (knownEdges graph) (graph.map Prod.fst), component.head? = some nodeId := by
  unfold findIllegalCycles
  rw [List.mem_filterMap]
  constructor
  · rintro ⟨component, listed, reported⟩
    dsimp only at reported
    split at reported
    · rename_i test
      exact ⟨(reported_iff listed (List.mem_of_head? reported)).mp test, component, listed, reported⟩
    · cases reported
  · rintro ⟨illegal, component, listed, first⟩
    refine ⟨component, listed, ?_⟩
    dsimp only
    rw [if_pos ((reported_iff listed (List.mem_of_head? first)).mpr illegal), first]

/-- Of every illegal component a node is reported. -/
theorem exists_reported {nodeId : String} (illegal : IllegalComponent ir graph nodeId) :
    ∃ component ∈ componentsOf (knownEdges graph) (graph.map Prod.fst), nodeId ∈ component ∧
      ∃ representative ∈ findIllegalCycles ir graph, component.head? = some representative := by
  obtain ⟨component, listed, member⟩ := (componentsOf_spec (@knownEdges_closed graph)).1 nodeId illegal.known
  obtain ⟨representative, rest, shape⟩ := List.exists_cons_of_ne_nil (List.ne_nil_of_mem member)
  have first : component.head? = some representative := by rw [shape]; rfl
  have test := (@reported_iff ir graph component listed nodeId member).mpr illegal
  refine ⟨component, listed, member, representative, mem_findIllegalCycles.mpr ?_, first⟩
  exact ⟨(reported_iff listed (List.mem_of_head? first)).mp test, component, listed, first⟩

end Representatives

/-! ## Cycles and components -/

section Cycles

variable {ir : IrScenario} {graph : List (String × List String)} {cycle : List String}

/-- An illegal component has a cycle without a loop node. -/
theorem IllegalComponent.exists_cycle (distinct : (graph.map Prod.fst).Nodup) {nodeId : String}
    (illegal : IllegalComponent ir graph nodeId) :
    ∃ cycle, IsCycle graph cycle ∧ ∀ node ∈ cycle, isLoopNode (ir.node node) = false := by
  -- the first step of a way from the node back to it
  obtain ⟨target, edge, back⟩ : ∃ target, Edge (knownEdges graph) nodeId target ∧
      Reaches (knownEdges graph) target nodeId := by
    rcases illegal.cyclic with ⟨other, differs, forth, back⟩ | selfEdge
    · rcases forth.cases_head with rfl | ⟨target, edge, rest⟩
      · exact absurd rfl differs
      · exact ⟨target, edge, rest.trans back⟩
    · exact ⟨nodeId, List.mem_filter.mpr ⟨selfEdge, isSome_lookup_iff.mpr illegal.known⟩, .refl⟩
  obtain ⟨walk, chain, last⟩ := List.exists_isChain_cons_of_relationReflTransGen back
  obtain ⟨between, closes⟩ : ∃ between, target :: walk = between ++ [nodeId] :=
    ⟨_, last ▸ (List.dropLast_append_getLast (List.cons_ne_nil target walk)).symm⟩
  have closed : List.IsChain (Edge (knownEdges graph)) (nodeId :: (between ++ [nodeId])) :=
    closes ▸ .cons_cons edge chain
  refine ⟨nodeId :: between, closed.imp fun _ _ known => ?_, fun node member => ?_⟩
  · exact (mem_edgesFrom_iff distinct).mp (List.mem_filter.mp known).1
  · exact illegal.loopless node (isChain_reaches closed node member)

theorem IsCycle.edge (isCycle : IsCycle graph cycle) {nodeId : String} (member : nodeId ∈ cycle) :
    ∃ target ∈ cycle, GraphEdge graph nodeId target := by
  cases cycle with
  | nil => cases member
  | cons first rest =>
    obtain ⟨target, listed, edge⟩ := isChain_source isCycle nodeId member
    refine ⟨target, ?_, edge⟩
    simpa [or_comm] using listed

/-- A cycle of a graph without loop nodes lies in an illegal component. -/
theorem IsCycle.exists_illegal (distinct : (graph.map Prod.fst).Nodup) (isCycle : IsCycle graph cycle)
    (loopless : ∀ node ∈ graph.map Prod.fst, isLoopNode (ir.node node) = false) :
    ∃ nodeId, IllegalComponent ir graph nodeId := by
  have known : ∀ node ∈ cycle, node ∈ graph.map Prod.fst := by
    intro node member
    obtain ⟨target, -, edge⟩ := isCycle.edge member
    exact mem_keys_of_edge ((mem_edgesFrom_iff distinct).mpr edge)
  cases cycle with
  | nil => exact isCycle.elim
  | cons first rest =>
    have isFirst := known first List.mem_cons_self
    have chain : List.IsChain (Edge (knownEdges graph)) (first :: (rest ++ [first])) := by
      refine List.IsChain.imp_of_mem_imp (fun source target _ isTarget edge => ?_) isCycle
      refine List.mem_filter.mpr ⟨(mem_edgesFrom_iff distinct).mpr edge, isSome_lookup_iff.mpr (known target ?_)⟩
      simpa [or_comm] using isTarget
    have walk := isChain_reaches chain
    refine ⟨first, isFirst, ?_, fun other both => loopless other (both.1.stays knownEdges_closed isFirst)⟩
    cases rest with
    | nil =>
      right
      exact (mem_edgesFrom_iff distinct).mpr (List.isChain_cons_cons.mp isCycle).1
    | cons second rest =>
      by_cases same : second = first
      · right
        exact (mem_edgesFrom_iff distinct).mpr (same ▸ (List.isChain_cons_cons.mp isCycle).1)
      · exact .inl ⟨second, same, walk second (by simp)⟩

theorem graphEdge_withoutLoops {source target : String} :
    GraphEdge (withoutLoops ir) source target ↔
      GraphEdge (buildGraph ir) source target ∧ isLoopNode (ir.node source) = false := by
  simp only [GraphEdge, withoutLoops, List.mem_filter, Bool.not_eq_true']
  constructor
  · rintro ⟨targets, ⟨listed, free⟩, member⟩
    exact ⟨⟨targets, listed, member⟩, free⟩
  · rintro ⟨⟨targets, listed, member⟩, free⟩
    exact ⟨targets, ⟨listed, free⟩, member⟩

theorem withoutLoops_distinct (ir : IrScenario) : ((withoutLoops ir).map Prod.fst).Nodup :=
  (graph_distinct ir).sublist (List.filter_sublist.map Prod.fst)

/-- The cycles of the rest are the cycles that go around all loop nodes. -/
theorem isCycle_withoutLoops : IsCycle (withoutLoops ir) cycle ↔
    IsCycle (buildGraph ir) cycle ∧ ∀ node ∈ cycle, isLoopNode (ir.node node) = false := by
  constructor
  · intro isCycle
    refine ⟨?_, fun node member => ?_⟩
    · cases cycle with
      | nil => exact isCycle
      | cons first rest => exact List.IsChain.imp (fun _ _ edge => (graphEdge_withoutLoops.mp edge).1) isCycle
    · obtain ⟨target, -, edge⟩ := isCycle.edge member
      exact (graphEdge_withoutLoops.mp edge).2
  · rintro ⟨isCycle, free⟩
    cases cycle with
    | nil => exact isCycle
    | cons first rest =>
      refine List.IsChain.imp_of_mem_imp (fun source target isSource _ edge => ?_) isCycle
      refine graphEdge_withoutLoops.mpr ⟨edge, free source ?_⟩
      simpa [or_comm] using isSource

end Cycles

/-- Every cycle passes through a loop node exactly when the check finds nothing in the graph
without its loop nodes; that it finds nothing in the whole graph follows, and is all that
acceptance asks. -/
theorem cycles_loop_iff (ir : IrScenario) :
    (CyclesLoop ir ↔ findIllegalCycles ir (withoutLoops ir) = []) ∧
      (CyclesLoop ir → findIllegalCycles ir (buildGraph ir) = []) := by
  refine ⟨⟨fun loops => List.eq_nil_iff_forall_not_mem.mpr fun nodeId reported => ?_, fun quiet cycle isCycle => ?_⟩,
    fun loops => List.eq_nil_iff_forall_not_mem.mpr fun nodeId reported => ?_⟩
  · obtain ⟨cycle, isCycle, -⟩ :=
      (mem_findIllegalCycles.mp reported).1.exists_cycle (withoutLoops_distinct ir)
    obtain ⟨around, free⟩ := isCycle_withoutLoops.mp isCycle
    obtain ⟨node, member, isLoop⟩ := loops cycle around
    exact absurd isLoop (by simp [free node member])
  · by_contra none
    push Not at none
    have free : ∀ node ∈ cycle, isLoopNode (ir.node node) = false := fun node member => by
      simpa using none node member
    have outside : ∀ node ∈ (withoutLoops ir).map Prod.fst, isLoopNode (ir.node node) = false := by
      intro node member
      obtain ⟨entry, listed, rfl⟩ := List.mem_map.mp member
      simpa using (List.mem_filter.mp listed).2
    obtain ⟨nodeId, illegal⟩ :=
      (isCycle_withoutLoops.mpr ⟨isCycle, free⟩).exists_illegal (withoutLoops_distinct ir) outside
    obtain ⟨-, -, -, representative, reported, -⟩ := exists_reported illegal
    rw [quiet] at reported
    cases reported
  · obtain ⟨cycle, isCycle, free⟩ := (mem_findIllegalCycles.mp reported).1.exists_cycle (graph_distinct ir)
    obtain ⟨node, member, isLoop⟩ := loops cycle isCycle
    exact absurd isLoop (by simp [free node member])

/-! ## The check -/

/-- The search comes to its end, and returns one node of each component that has a cycle
and no loop node, and nothing else. -/
theorem findIllegalCycles_spec (ir : IrScenario) (graph : List (String × List String)) :
    (∀ fuel, (graph.map Prod.fst).length ≤ fuel →
      (Scc.connectAll (knownEdges graph) fuel (graph.map Prod.fst) Scc.empty).components =
        componentsOf (knownEdges graph) (graph.map Prod.fst)) ∧
    (findIllegalCycles ir graph).Nodup ∧
    (∀ nodeId ∈ findIllegalCycles ir graph, IllegalComponent ir graph nodeId) ∧
    ∀ nodeId, IllegalComponent ir graph nodeId →
      ∃! representative, representative ∈ findIllegalCycles ir graph ∧
        Mutual (knownEdges graph) nodeId representative := by
  have classes := (componentsOf_spec (@knownEdges_closed graph)).2
  have apart := (List.nodup_flatten.mp (componentsOf_nodup (@knownEdges_closed graph))).2
  refine ⟨fun fuel enough => componentsOf_fuel knownEdges_closed enough, ?_,
    fun nodeId reported => (mem_findIllegalCycles.mp reported).1, fun nodeId illegal => ?_⟩
  · unfold findIllegalCycles
    rw [List.Nodup, List.pairwise_filterMap]
    refine apart.imp fun {one two} disjoint first isFirst second isSecond same => ?_
    dsimp only at isFirst isSecond
    split at isFirst
    · split at isSecond
      · exact disjoint (List.mem_of_head? isFirst) (same ▸ List.mem_of_head? isSecond)
      · cases isSecond
    · cases isFirst
  · obtain ⟨component, listed, member, representative, isReported, first⟩ := exists_reported illegal
    refine ⟨representative, ⟨isReported,
      (classes component listed nodeId member representative).mp (List.mem_of_head? first)⟩, ?_⟩
    · rintro other ⟨reported, both⟩
      obtain ⟨-, another, alsoListed, alsoFirst⟩ := mem_findIllegalCycles.mp reported
      have shared : nodeId ∈ another :=
        (classes another alsoListed other (List.mem_of_head? alsoFirst) nodeId).mpr ⟨both.2, both.1⟩
      -- the two components share the node, so they are one
      have same : another = component := by
        by_contra differs
        have symmetric : Std.Symm (@List.Disjoint String) := ⟨fun _ _ disjoint _ one two => disjoint two one⟩
        exact apart.forall alsoListed listed differs shared member
      rw [same, first] at alsoFirst
      exact (Option.some.inj alsoFirst).symm

/-! ## Two scenarios -/

/-- A branch of `on`. -/
def branchTo (target condition : String) (priority : Rat) : Json :=
  .obj [("when", .str condition), ("target", .str target), ("priority", .num priority)]

/-- A loop that leaves when there is no next page. -/
def pagingLoop (body exit : String) : Json :=
  .obj [("loop", .obj [("body_target", .str body), ("exit_target", .str exit),
    ("until", .str "flags.no_next_page"), ("max_iterations", .num 5)])]

/-- Pages are collected in a loop. -/
def pagingScenario : IrScenario where
  start := "pages"
  nodes := [("pages", pagingLoop "collect" "done"), ("collect", .obj [("next", .str "pages")]),
    ("done", .obj [("terminal", .str "success")])]

/-- The loop and a retry cycle beside it share a component. -/
def retryScenario : IrScenario where
  start := "pages"
  nodes := [("pages", pagingLoop "collect" "done"),
    ("collect", .obj [("on", .arr [branchTo "retry" "flags.blocked" 2, branchTo "pages" "true" 1])]),
    ("retry", .obj [("next", .str "collect")]), ("done", .obj [("terminal", .str "success")])]

/-- The scenario is accepted, and `collect` and `retry` go round without the loop. -/
theorem accepted_cycle_without_loop : Accepted retryScenario none ∧ ¬ CyclesLoop retryScenario := by
  refine ⟨accepted_of_isAccepted (by decide +kernel), fun loops => ?_⟩
  have isCycle : IsCycle (buildGraph retryScenario) ["collect", "retry"] := by
    have forth : GraphEdge (buildGraph retryScenario) "collect" "retry" :=
      mem_edgesFrom.mp (by decide +kernel)
    have back : GraphEdge (buildGraph retryScenario) "retry" "collect" :=
      mem_edgesFrom.mp (by decide +kernel)
    exact .cons_cons forth (.cons_cons back (.singleton _))
  obtain ⟨nodeId, member, isLoop⟩ := loops _ isCycle
  simp only [List.mem_cons, List.not_mem_nil, or_false] at member
  rcases member with rfl | rfl
  · exact absurd isLoop (by decide +kernel)
  · exact absurd isLoop (by decide +kernel)

end RpaEnterprise.Ir
