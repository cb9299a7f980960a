import Mathlib.Tactic.Tauto
import RpaEnterprise.Lib.Search

/-!
# Strongly connected components

Tarjan's algorithm.  A node gets the next index and is put on a stack when it is
entered.  When all its edges have been followed, the least index it can reach on
the stack says whether it is the first of its component: then the stack down to
it is popped as one component.  The components are exactly the classes of
mutually reachable nodes.
-/

namespace RpaEnterprise.Lib

/-- The maps and the stack of the algorithm, with the components popped so far. -/
structure Scc (Node : Type) where
  index : Node → Option Nat
  nextIndex : Nat
  stack : List Node
  components : List (List Node)

namespace Scc

variable {Node : Type} [DecidableEq Node]

def empty : Scc Node := { index := fun _ => none, nextIndex := 0, stack := [], components := [] }

/-- Give a node the next index and push it. -/
def enter (node : Node) (state : Scc Node) : Scc Node :=
  { state with
    index := fun other => if other = node then some state.nextIndex else state.index other
    nextIndex := state.nextIndex + 1
    stack := node :: state.stack }

/-- Follow one edge, with the least index reached so far. -/
def visit (connect : Node → Scc Node → Nat × Scc Node) (target : Node) (low : Nat)
    (state : Scc Node) : Nat × Scc Node :=
  match state.index target with
  | none =>
    let (reached, state) := connect target state
    (min low reached, state)
  | some index => if target ∈ state.stack then (min low index, state) else (low, state)

def visitAll (connect : Node → Scc Node → Nat × Scc Node) :
    List Node → Nat → Scc Node → Nat × Scc Node
  | [], low, state => (low, state)
  | target :: rest, low, state =>
    let (low, state) := visit connect target low state
    visitAll connect rest low state

/-- Pop the stack down to a node: what was popped, and what is left. -/
def pop (node : Node) : List Node → List Node × List Node
  | [] => ([], [])
  | top :: rest =>
    if top = node then ([top], rest)
    else
      let (popped, left) := pop node rest
      (top :: popped, left)

/-- A node that reaches nothing below itself is the first of its component. -/
def finish (node : Node) (index low : Nat) (state : Scc Node) : Nat × Scc Node :=
  if low = index then
    let (component, left) := pop node state.stack
    (low, { state with stack := left, components := state.components ++ [component] })
  else (low, state)

/-- `strongConnect`: the least index reached, and the state after. -/
def connect (next : Node → List Node) : Nat → Node → Scc Node → Nat × Scc Node
  | 0, _, state => (0, state)
  | fuel + 1, node, state =>
    let (low, after) := visitAll (connect next fuel) (next node) state.nextIndex (state.enter node)
    finish node state.nextIndex low after

def connectAll (next : Node → List Node) (fuel : Nat) : List Node → Scc Node → Scc Node
  | [], state => state
  | node :: rest, state =>
    match state.index node with
    | some _ => connectAll next fuel rest state
    | none => connectAll next fuel rest (connect next fuel node state).2

end Scc

/-- The components of a graph, in the order they are popped. -/
def componentsOf {Node : Type} [DecidableEq Node] (next : Node → List Node) (nodes : List Node) :
    List (List Node) :=
  (Scc.connectAll next nodes.length nodes Scc.empty).components

/-! ## Reachability -/

section Reachability

variable {Node : Type} {next : Node → List Node}

abbrev Reaches (next : Node → List Node) : Node → Node → Prop := Relation.ReflTransGen (Edge next)

/-- Two nodes of one component. -/
def Mutual (next : Node → List Node) (one two : Node) : Prop := Reaches next one two ∧ Reaches next two one

theorem Reaches.stays {inside : List Node} {node other : Node} (reaches : Reaches next node other)
    (closed : ∀ node ∈ inside, ∀ target ∈ next node, target ∈ inside) (member : node ∈ inside) :
    other ∈ inside := by
  induction reaches with
  | refl => exact member
  | tail _ edge ih => exact closed _ ih _ edge

end Reachability

namespace Scc

variable {Node : Type} {next : Node → List Node}

def rank (state : Scc Node) (node : Node) : Nat := (state.index node).getD 0

/-! ## The invariant -/

/-- What holds between two steps, while the given nodes are being connected.  A
node of the stack reaches every later one, and one that is being connected. -/
structure Inv (next : Node → List Node) (state : Scc Node) (active : List Node) : Prop where
  bounded : ∀ node ∈ state.stack, state.rank node < state.nextIndex
  sorted : state.stack.Pairwise fun upper lower => state.rank lower < state.rank upper
  placed : ∀ node, (state.index node).isSome ↔ node ∈ state.stack ∨ node ∈ state.components.flatten
  apart : ∀ node ∈ state.stack, node ∉ state.components.flatten
  closed : ∀ node ∈ state.components.flatten, ∀ target ∈ next node, target ∈ state.components.flatten
  classes : ∀ component ∈ state.components, ∀ node ∈ component, ∀ other,
    other ∈ component ↔ Mutual next node other
  climbs : ∀ lower ∈ state.stack, ∀ upper ∈ state.stack, state.rank lower ≤ state.rank upper →
    Reaches next lower upper
  stacked : active ⊆ state.stack
  falls : ∀ node ∈ state.stack, ∃ base ∈ active, state.rank base ≤ state.rank node ∧
    Reaches next node base
  explored : ∀ node ∈ state.stack, node ∉ active → ∀ target ∈ next node, (state.index target).isSome
  distinct : state.components.flatten.Nodup

theorem inv_empty : Inv next (empty : Scc Node) [] where
  bounded := by simp [empty]
  sorted := by simp [empty]
  placed := by simp [empty]
  apart := by simp [empty]
  closed := by simp [empty]
  classes := by simp [empty]
  climbs := by simp [empty]
  stacked := by simp
  falls := by simp [empty]
  explored := by simp [empty]
  distinct := by simp [empty]

/-- Indices once given are kept. -/
def Keeps (before after : Scc Node) : Prop :=
  ∀ node index, before.index node = some index → after.index node = some index

theorem Keeps.refl (state : Scc Node) : Keeps state state := fun _ _ same => same

theorem Keeps.trans {one two three : Scc Node} (first : Keeps one two) (second : Keeps two three) :
    Keeps one three := fun node index same => second node index (first node index same)

variable {node : Node} {nodes : List Node}

theorem Keeps.isSome {before after : Scc Node} (keeps : Keeps before after)
    (indexed : (before.index node).isSome) : (after.index node).isSome := by
  obtain ⟨index, same⟩ := Option.isSome_iff_exists.mp indexed
  exact Option.isSome_iff_exists.mpr ⟨index, keeps node index same⟩

theorem Keeps.rank {before after : Scc Node} (keeps : Keeps before after)
    (indexed : (before.index node).isSome) : after.rank node = before.rank node := by
  obtain ⟨index, same⟩ := Option.isSome_iff_exists.mp indexed
  simp [Scc.rank, same, keeps node index same]

variable {state : Scc Node} {active : List Node}

theorem Inv.indexed (inv : Inv next state active) (member : node ∈ state.stack) :
    (state.index node).isSome :=
  (inv.placed node).mpr (.inl member)

theorem Inv.fresh (inv : Inv next state active) (new : state.index node = none) :
    node ∉ state.stack ∧ node ∉ state.components.flatten := by
  have absent : ¬ (node ∈ state.stack ∨ node ∈ state.components.flatten) := by
    rw [← inv.placed node, new]
    simp
  exact not_or.mp absent

theorem Inv.disjoint (inv : Inv next state active) {upper lower : List Node}
    (split : state.stack = upper ++ lower) (isUpper : node ∈ upper) : node ∉ lower := by
  intro isLower
  have sorted := inv.sorted
  rw [split] at sorted
  exact Nat.lt_irrefl _ ((List.pairwise_append.mp sorted).2.2 node isUpper node isLower)

/-! ## Entering -/

variable [DecidableEq Node]

theorem rank_enter_self (state : Scc Node) (node : Node) : (state.enter node).rank node = state.nextIndex := by
  simp [enter, rank]

theorem keeps_enter (new : state.index node = none) : Keeps state (state.enter node) := by
  intro other index same
  have differs : other ≠ node := by
    rintro rfl
    rw [new] at same
    cases same
  simp [enter, differs, same]

/-- Entering a node that every active one reaches makes it active. -/
theorem Inv.enter (inv : Inv next state active) (new : state.index node = none)
    (reached : ∀ base ∈ active, Reaches next base node) :
    Inv next (state.enter node) (node :: active) := by
  obtain ⟨unstacked, unplaced⟩ := inv.fresh new
  have keeps := keeps_enter new
  have rankKept : ∀ other ∈ state.stack, (state.enter node).rank other = state.rank other :=
    fun other member => keeps.rank (inv.indexed member)
  have rankNode := rank_enter_self state node
  -- every node of the stack reaches the new one through an active node
  have toNode : ∀ other ∈ state.stack, Reaches next other node := by
    intro other member
    obtain ⟨base, isActive, -, down⟩ := inv.falls other member
    exact down.trans (reached base isActive)
  constructor
  · intro other member
    rcases List.mem_cons.mp member with rfl | member
    · rw [rankNode]
      exact Nat.lt_succ_self _
    · rw [rankKept other member]
      exact Nat.lt_succ_of_lt (inv.bounded other member)
  · refine List.pairwise_cons.mpr ⟨fun other member => ?_, ?_⟩
    · rw [rankNode, rankKept other member]
      exact inv.bounded other member
    · refine inv.sorted.imp_of_mem fun {upper lower} isUpper isLower ordered => ?_
      rw [rankKept _ isUpper, rankKept _ isLower]
      exact ordered
  · intro other
    by_cases same : other = node
    · subst same
      simp [Scc.enter]
    · simp only [Scc.enter, same, if_false, List.mem_cons, false_or]
      exact inv.placed other
  · intro other member
    rcases List.mem_cons.mp member with rfl | member
    · exact unplaced
    · exact inv.apart other member
  · exact inv.closed
  · exact inv.classes
  · intro lower isLower upper isUpper ordered
    rcases List.mem_cons.mp isUpper with rfl | upperStacked
    · rcases List.mem_cons.mp isLower with rfl | lowerStacked
      · exact .refl
      · exact toNode lower lowerStacked
    · rcases List.mem_cons.mp isLower with rfl | lowerStacked
      · rw [rankNode, rankKept upper upperStacked] at ordered
        exact absurd (inv.bounded upper upperStacked) (Nat.not_lt.mpr ordered)
      · rw [rankKept lower lowerStacked, rankKept upper upperStacked] at ordered
        exact inv.climbs lower lowerStacked upper upperStacked ordered
  · exact List.cons_subset_cons _ inv.stacked
  · intro other member
    rcases List.mem_cons.mp member with rfl | member
    · exact ⟨other, List.mem_cons_self, Nat.le_refl _, .refl⟩
    · obtain ⟨base, isActive, lower, down⟩ := inv.falls other member
      refine ⟨base, List.mem_cons_of_mem _ isActive, ?_, down⟩
      rw [rankKept base (inv.stacked isActive), rankKept other member]
      exact lower
  · intro other member inactive target edge
    rcases List.mem_cons.mp member with rfl | member
    · exact absurd List.mem_cons_self inactive
    · exact keeps.isSome
        (inv.explored other member (fun isActive => inactive (List.mem_cons_of_mem _ isActive)) target edge)
  · exact inv.distinct

/-! ## Finishing -/

/-- The loop over the edges of a node, with the edges followed so far: the least
index is one the node reaches, and no edge into the stack below goes deeper. -/
structure Visiting (next : Node → List Node) (node : Node) (active below followed : List Node)
    (before : Scc Node) (low : Nat) (state : Scc Node) : Prop where
  inv : Inv next state (node :: active)
  keeps : Keeps before state
  segment : ∃ segment, state.stack = segment ++ node :: below ∧
    ∀ upper ∈ segment, ∀ lower ∈ next upper, lower ∈ below → low ≤ state.rank lower
  least : low ≤ state.rank node
  attained : ∃ lower ∈ state.stack, state.rank lower = low ∧ Reaches next node lower
  followed : ∀ target ∈ followed, (state.index target).isSome ∧
    (target ∈ below → low ≤ state.rank target)

theorem pop_segment {segment below : List Node} (absent : node ∉ segment) :
    pop node (segment ++ node :: below) = (segment ++ [node], below) := by
  induction segment with
  | nil => simp [pop]
  | cons top rest ih =>
    have differs : top ≠ node := fun same => absent (same ▸ List.mem_cons_self)
    have rest := ih fun member => absent (List.mem_cons_of_mem _ member)
    simp [pop, differs, rest]

section Finish

variable {node : Node} {below : List Node} {before : Scc Node} {low : Nat}

/-- A node that reaches deeper stops being active; what fell to it falls deeper. -/
theorem Visiting.deeper (visiting : Visiting next node active below (next node) before low state)
    (deeper : low < state.rank node) : Inv next state active := by
  have inv := visiting.inv
  obtain ⟨segment, split, -⟩ := visiting.segment
  obtain ⟨lower, stacked, same, reaches⟩ := visiting.attained
  -- the node it reaches falls to an active node below it
  obtain ⟨base, isActive, under, down⟩ := inv.falls lower stacked
  have baseOther : base ≠ node := by
    rintro rfl
    omega
  have baseActive : base ∈ active := (List.mem_cons.mp isActive).resolve_left baseOther
  refine { inv with
    stacked := fun other member => inv.stacked (List.mem_cons_of_mem _ member)
    falls := ?_
    explored := ?_ }
  · intro other member
    obtain ⟨found, foundActive, foundUnder, foundDown⟩ := inv.falls other member
    rcases List.mem_cons.mp foundActive with rfl | stillActive
    · exact ⟨base, baseActive, by omega, foundDown.trans (reaches.trans down)⟩
    · exact ⟨found, stillActive, foundUnder, foundDown⟩
  · intro other member inactive target edge
    by_cases isNode : other = node
    · subst isNode
      exact (visiting.followed target edge).1
    · exact inv.explored other member (by simp [isNode, inactive]) target edge

omit [DecidableEq Node] in
/-- The stack down to a node that reaches nothing deeper is its component. -/
theorem Visiting.isClass (visiting : Visiting next node active below (next node) before low state)
    (beneath : active ⊆ below) (reached : ∀ base ∈ active, Reaches next base node)
    (first : low = state.rank node) {segment : List Node} (split : state.stack = segment ++ node :: below)
    (crossing : ∀ upper ∈ segment, ∀ lower ∈ next upper, lower ∈ below → low ≤ state.rank lower) :
    (∀ member ∈ segment ++ [node], ∀ target ∈ next member,
        target ∈ state.components.flatten ∨ target ∈ segment ++ [node]) ∧
      ∀ member ∈ segment ++ [node], ∀ other, other ∈ segment ++ [node] ↔ Mutual next member other := by
  have inv := visiting.inv
  have sorted := inv.sorted
  rw [split] at sorted
  obtain ⟨-, sortedBelow, above⟩ := List.pairwise_append.mp sorted
  have belowNode : ∀ lower ∈ below, state.rank lower < state.rank node :=
    (List.pairwise_cons.mp sortedBelow).1
  have inStack : ∀ member ∈ segment ++ [node], member ∈ state.stack := by
    intro member isMember
    rw [split]
    rcases List.mem_append.mp isMember with upper | single
    · exact List.mem_append_left _ upper
    · exact List.mem_append_right _ (by simp_all)
  have nodeStacked : node ∈ state.stack := inStack node (by simp)
  -- an edge out of the segment goes to a popped component or stays
  have edges : ∀ member ∈ segment ++ [node], ∀ target ∈ next member,
      (state.index target).isSome ∧ target ∉ below := by
    intro member isMember target edge
    rcases List.mem_append.mp isMember with upper | single
    · have inactive : member ∉ node :: active := by
        have lower := inv.disjoint split upper
        simp only [List.mem_cons, not_or] at lower ⊢
        exact ⟨lower.1, fun isActive => lower.2 (beneath isActive)⟩
      refine ⟨inv.explored member (inStack member isMember) inactive target edge, fun isBelow => ?_⟩
      have deeper := crossing member upper target edge isBelow
      have under := belowNode target isBelow
      omega
    · rw [List.mem_singleton] at single
      subst single
      obtain ⟨indexed, least⟩ := visiting.followed target edge
      refine ⟨indexed, fun isBelow => ?_⟩
      have deeper := least isBelow
      have under := belowNode target isBelow
      omega
  have closes : ∀ member ∈ segment ++ [node], ∀ target ∈ next member,
      target ∈ state.components.flatten ∨ target ∈ segment ++ [node] := by
    intro member isMember target edge
    obtain ⟨indexed, notBelow⟩ := edges member isMember target edge
    rcases (inv.placed target).mp indexed with stacked | popped
    · rw [split, List.mem_append, List.mem_cons] at stacked
      rcases stacked with upper | rfl | lower
      · exact .inr (List.mem_append_left _ upper)
      · exact .inr (by simp)
      · exact absurd lower notBelow
    · exact .inl popped
  -- every member is mutually reachable with the node
  have withNode : ∀ member ∈ segment ++ [node], Mutual next member node := by
    intro member isMember
    constructor
    · obtain ⟨base, isActive, -, down⟩ := inv.falls member (inStack member isMember)
      rcases List.mem_cons.mp isActive with rfl | older
      · exact down
      · exact down.trans (reached base older)
    · refine inv.climbs node nodeStacked member (inStack member isMember) ?_
      rcases List.mem_append.mp isMember with upper | single
      · exact Nat.le_of_lt (above member upper node List.mem_cons_self)
      · obtain rfl := List.mem_singleton.mp single
        exact Nat.le_refl _
  refine ⟨closes, fun member isMember other => ⟨fun isOther => ?_, fun both => ?_⟩⟩
  · exact ⟨(withNode member isMember).1.trans (withNode other isOther).2,
      (withNode other isOther).1.trans (withNode member isMember).2⟩
  · have closedTogether : ∀ one ∈ state.components.flatten ++ (segment ++ [node]), ∀ target ∈ next one,
        target ∈ state.components.flatten ++ (segment ++ [node]) := by
      intro one isOne target edge
      rcases List.mem_append.mp isOne with popped | isMember
      · exact List.mem_append_left _ (inv.closed one popped target edge)
      · exact List.mem_append.mpr (closes one isMember target edge)
    have inside := both.1.stays closedTogether (List.mem_append_right _ isMember)
    rcases List.mem_append.mp inside with popped | isOther
    · exact absurd (both.2.stays inv.closed popped) (inv.apart member (inStack member isMember))
    · exact isOther

theorem Visiting.popped (visiting : Visiting next node active below (next node) before low state)
    (beneath : active ⊆ below) (reached : ∀ base ∈ active, Reaches next base node)
    (first : low = state.rank node) {segment : List Node} (split : state.stack = segment ++ node :: below)
    (crossing : ∀ upper ∈ segment, ∀ lower ∈ next upper, lower ∈ below → low ≤ state.rank lower) :
    Inv next { state with stack := below, components := state.components ++ [segment ++ [node]] } active := by
  have inv := visiting.inv
  obtain ⟨closes, classes⟩ := visiting.isClass beneath reached first split crossing
  have sorted := inv.sorted
  rw [split] at sorted
  have sortedBelow := List.pairwise_cons.mp (List.pairwise_append.mp sorted).2.1
  have inStack : ∀ lower ∈ below, lower ∈ state.stack := by
    intro lower member
    rw [split]
    exact List.mem_append_right _ (List.mem_cons_of_mem _ member)
  have flat : (state.components ++ [segment ++ [node]]).flatten =
      state.components.flatten ++ (segment ++ [node]) := by simp
  constructor
  · exact fun lower member => inv.bounded lower (inStack lower member)
  · exact sortedBelow.2
  · intro other
    rw [flat]
    have placed := inv.placed other
    rw [split] at placed
    simp only [List.mem_append, List.mem_cons, List.not_mem_nil, or_false] at placed ⊢
    rw [show ({ state with stack := below, components := state.components ++ [segment ++ [node]] } :
      Scc Node).index other = state.index other from rfl, placed]
    tauto
  · intro lower member
    rw [flat]
    simp only [List.mem_append, List.mem_singleton, not_or]
    refine ⟨inv.apart lower (inStack lower member), fun upper => ?_, ?_⟩
    · exact inv.disjoint split upper (List.mem_cons_of_mem _ member)
    · rintro rfl
      exact Nat.lt_irrefl _ (sortedBelow.1 lower member)
  · intro one isOne target edge
    rw [flat] at isOne ⊢
    rcases List.mem_append.mp isOne with popped | isMember
    · exact List.mem_append_left _ (inv.closed one popped target edge)
    · exact List.mem_append.mpr (closes one isMember target edge)
  · intro component listed
    rcases List.mem_append.mp listed with old | new
    · exact inv.classes component old
    · rw [List.mem_singleton.mp new]
      exact classes
  · exact fun lower isLower upper isUpper =>
      inv.climbs lower (inStack lower isLower) upper (inStack upper isUpper)
  · exact beneath
  · intro lower member
    obtain ⟨base, isActive, under, down⟩ := inv.falls lower (inStack lower member)
    have baseOther : base ≠ node := by
      rintro rfl
      exact Nat.lt_irrefl _ (Nat.lt_of_le_of_lt under (sortedBelow.1 lower member))
    exact ⟨base, (List.mem_cons.mp isActive).resolve_left baseOther, under, down⟩
  · intro lower member inactive target edge
    have notNode : lower ≠ node := by
      rintro rfl
      exact Nat.lt_irrefl _ (sortedBelow.1 lower member)
    exact inv.explored lower (inStack lower member) (by simp [notNode, inactive]) target edge
  · rw [flat]
    have once : (segment ++ [node]).Nodup := by
      have whole : (segment ++ node :: below).Nodup := by
        refine List.Pairwise.imp ?_ sorted
        rintro upper lower ordered rfl
        exact Nat.lt_irrefl _ ordered
      refine whole.sublist (List.append_sublist_append_left segment |>.mpr ?_)
      exact List.cons_sublist_cons.mpr (List.nil_sublist below)
    refine List.nodup_append.mpr ⟨inv.distinct, once, fun popped isPopped member isMember same => ?_⟩
    refine inv.apart member ?_ (same ▸ isPopped)
    rw [split]
    rcases List.mem_append.mp isMember with upper | single
    · exact List.mem_append_left _ upper
    · rw [List.mem_singleton.mp single]
      exact List.mem_append_right _ List.mem_cons_self

end Finish

/-! ## Connecting -/

/-- What connecting a new node does. -/
structure Connected (next : Node → List Node) (active : List Node) (node : Node) (before : Scc Node)
    (result : Nat × Scc Node) : Prop where
  inv : Inv next result.2 active
  keeps : Keeps before result.2
  segment : ∃ segment, result.2.stack = segment ++ before.stack ∧
    ∀ upper ∈ segment, ∀ lower ∈ next upper, lower ∈ before.stack → result.1 ≤ before.rank lower
  indexed : (result.2.index node).isSome
  attained : result.1 = before.nextIndex ∨
    ∃ lower ∈ before.stack, before.rank lower = result.1 ∧ Reaches next node lower

/-- The nodes still without an index, out of a list. -/
def unindexed (nodes : List Node) (state : Scc Node) : Nat :=
  nodes.countP fun node => (state.index node).isNone

omit [DecidableEq Node] in
theorem Keeps.unindexed {before after : Scc Node} (keeps : Keeps before after) (nodes : List Node) :
    after.unindexed nodes ≤ before.unindexed nodes := by
  apply List.countP_mono_left
  intro node _ new
  cases indexed : before.index node with
  | none => rfl
  | some index =>
    rw [keeps node index indexed] at new
    cases new

theorem unindexed_enter (member : node ∈ nodes) (new : state.index node = none) :
    (state.enter node).unindexed nodes < state.unindexed nodes := by
  induction nodes with
  | nil => cases member
  | cons head rest ih =>
    have others : (state.enter node).unindexed rest ≤ state.unindexed rest :=
      (keeps_enter new).unindexed rest
    simp only [unindexed, List.countP_cons] at ih others ⊢
    by_cases here : head = node
    · subst here
      simp only [new, enter, if_true, Option.isNone_none, Option.isNone_some] at others ⊢
      simp only [Bool.false_eq_true, if_false]
      omega
    · have later := ih ((List.mem_cons.mp member).resolve_left (Ne.symm here))
      have same : (state.enter node).index head = state.index head := by simp [enter, here]
      rw [same]
      omega

/-- A function that connects every new node of a list, with at most so many of them. -/
def Connects (next : Node → List Node) (nodes : List Node) (bound : Nat)
    (connect : Node → Scc Node → Nat × Scc Node) : Prop :=
  ∀ node state active, Inv next state active → state.index node = none → node ∈ nodes →
    (∀ base ∈ active, Reaches next base node) → state.unindexed nodes ≤ bound →
      Connected next active node state (connect node state)

section Visit

variable {node : Node} {below followed nodes : List Node} {before : Scc Node} {low bound : Nat}
  {connect : Node → Scc Node → Nat × Scc Node}

omit [DecidableEq Node] in
theorem Visiting.connected (visiting : Visiting next node active below followed before low state)
    {target : Node} (edge : target ∈ next node) (new : state.index target = none)
    {result : Nat × Scc Node} (connected : Connected next (node :: active) target state result) :
    Visiting next node active below (followed ++ [target]) before (min low result.1) result.2 := by
  have inv := visiting.inv
  obtain ⟨segment, split, crossing⟩ := visiting.segment
  obtain ⟨upper, extended, newCrossing⟩ := connected.segment
  have rankKept : ∀ other ∈ state.stack, result.2.rank other = state.rank other :=
    fun other member => connected.keeps.rank (inv.indexed member)
  have isBelow : ∀ other ∈ below, other ∈ state.stack := by
    intro other member
    rw [split]
    exact List.mem_append_right _ (List.mem_cons_of_mem _ member)
  have nodeStacked : node ∈ state.stack := inv.stacked List.mem_cons_self
  refine ⟨connected.inv, visiting.keeps.trans connected.keeps, ⟨upper ++ segment, ?_, ?_⟩, ?_, ?_, ?_⟩
  · rw [extended, split, List.append_assoc]
  · intro one isOne lower edgeDown isLower
    rw [rankKept lower (isBelow lower isLower)]
    rcases List.mem_append.mp isOne with isNew | isOld
    · exact Nat.le_trans (Nat.min_le_right _ _)
        (newCrossing one isNew lower edgeDown (isBelow lower isLower))
    · exact Nat.le_trans (Nat.min_le_left _ _) (crossing one isOld lower edgeDown isLower)
  · rw [rankKept node nodeStacked]
    exact Nat.le_trans (Nat.min_le_left _ _) visiting.least
  · have stays : ∀ other ∈ state.stack, other ∈ result.2.stack := by
      intro other member
      rw [extended]
      exact List.mem_append_right _ member
    by_cases smaller : low ≤ result.1
    · obtain ⟨lower, stacked, same, reaches⟩ := visiting.attained
      rw [Nat.min_eq_left smaller]
      exact ⟨lower, stays lower stacked, (rankKept lower stacked).trans same, reaches⟩
    · rw [Nat.min_eq_right (Nat.le_of_not_le smaller)]
      rcases connected.attained with own | ⟨lower, stacked, same, reaches⟩
      · have under := inv.bounded node nodeStacked
        have least := visiting.least
        omega
      · exact ⟨lower, stays lower stacked, (rankKept lower stacked).trans same,
          Relation.ReflTransGen.head edge reaches⟩
  · intro other member
    rcases List.mem_append.mp member with old | single
    · obtain ⟨indexed, least⟩ := visiting.followed other old
      refine ⟨connected.keeps.isSome indexed, fun isLower => ?_⟩
      rw [rankKept other (isBelow other isLower)]
      exact Nat.le_trans (Nat.min_le_left _ _) (least isLower)
    · rw [List.mem_singleton] at single
      subst single
      refine ⟨connected.indexed, fun isLower => ?_⟩
      exact absurd (isBelow other isLower) (inv.fresh new).1

theorem Visiting.visit (visiting : Visiting next node active below followed before low state)
    (connects : Connects next nodes bound connect) (few : state.unindexed nodes ≤ bound)
    (reached : ∀ base ∈ active, Reaches next base node) {target : Node} (edge : target ∈ next node)
    (listed : target ∈ nodes) :
    Visiting next node active below (followed ++ [target]) before (visit connect target low state).1
      (visit connect target low state).2 := by
  have inv := visiting.inv
  obtain ⟨segment, split, crossing⟩ := visiting.segment
  unfold Scc.visit
  cases indexed : state.index target with
  | none =>
    refine visiting.connected edge indexed (connects target state _ inv indexed listed ?_ few)
    intro base isActive
    rcases List.mem_cons.mp isActive with rfl | older
    · exact .single edge
    · exact (reached base older).tail edge
  | some index =>
    have isIndexed : (state.index target).isSome := by simp [indexed]
    have rankTarget : state.rank target = index := by simp [rank, indexed]
    by_cases stacked : target ∈ state.stack
    · simp only [stacked, if_true]
      refine ⟨inv, visiting.keeps, ⟨segment, split, fun one isOne lower edgeDown isLower =>
        Nat.le_trans (Nat.min_le_left _ _) (crossing one isOne lower edgeDown isLower)⟩,
        Nat.le_trans (Nat.min_le_left _ _) visiting.least, ?_, ?_⟩
      · by_cases smaller : low ≤ index
        · rw [Nat.min_eq_left smaller]
          exact visiting.attained
        · rw [Nat.min_eq_right (Nat.le_of_not_le smaller)]
          exact ⟨target, stacked, rankTarget, .single edge⟩
      · intro other member
        rcases List.mem_append.mp member with old | single
        · obtain ⟨known, least⟩ := visiting.followed other old
          exact ⟨known, fun isLower => Nat.le_trans (Nat.min_le_left _ _) (least isLower)⟩
        · rw [List.mem_singleton] at single
          subst single
          exact ⟨isIndexed, fun _ => rankTarget ▸ Nat.min_le_right _ _⟩
    · simp only [stacked, if_false]
      refine { visiting with followed := ?_ }
      intro other member
      rcases List.mem_append.mp member with old | single
      · exact visiting.followed other old
      · rw [List.mem_singleton] at single
        subst single
        refine ⟨isIndexed, fun isLower => absurd ?_ stacked⟩
        rw [split]
        exact List.mem_append_right _ (List.mem_cons_of_mem _ isLower)

/-- The loop over the edges.  By induction on the edges left. -/
theorem Visiting.visitAll (connects : Connects next nodes bound connect)
    (few : before.unindexed nodes ≤ bound) (reached : ∀ base ∈ active, Reaches next base node)
    {rest : List Node} (edges : ∀ target ∈ rest, target ∈ next node ∧ target ∈ nodes)
    (visiting : Visiting next node active below followed before low state) :
    Visiting next node active below (followed ++ rest) before (visitAll connect rest low state).1
      (visitAll connect rest low state).2 := by
  induction rest generalizing followed low state with
  | nil => rwa [List.append_nil]
  | cons target rest ih =>
    obtain ⟨edge, listed⟩ := edges target List.mem_cons_self
    have fewer := Nat.le_trans (visiting.keeps.unindexed nodes) few
    have onward := ih (fun other member => edges other (List.mem_cons_of_mem _ member))
      (visiting.visit connects fewer reached edge listed)
    rwa [List.append_assoc] at onward

end Visit

theorem Visiting.start (inv : Inv next state active) (new : state.index node = none)
    (reached : ∀ base ∈ active, Reaches next base node) :
    Visiting next node active state.stack [] (state.enter node) state.nextIndex (state.enter node) where
  inv := inv.enter new reached
  keeps := Keeps.refl _
  segment := ⟨[], rfl, fun _ impossible => absurd impossible List.not_mem_nil⟩
  least := Nat.le_of_eq (rank_enter_self state node).symm
  attained := ⟨node, List.mem_cons_self, rank_enter_self state node, .refl⟩
  followed := fun _ impossible => absurd impossible List.not_mem_nil

theorem Visiting.finish {low : Nat} {after : Scc Node} (inv : Inv next state active)
    (new : state.index node = none) (reached : ∀ base ∈ active, Reaches next base node)
    (visiting : Visiting next node active state.stack (next node) (state.enter node) low after) :
    Connected next active node state (finish node state.nextIndex low after) := by
  obtain ⟨segment, split, crossing⟩ := visiting.segment
  have keeps : Keeps state after := (keeps_enter new).trans visiting.keeps
  have indexedNode : after.index node = some state.nextIndex :=
    visiting.keeps node state.nextIndex (by simp [enter])
  have rankNode : after.rank node = state.nextIndex := by simp [rank, indexedNode]
  have isIndexed : (after.index node).isSome := by simp [indexedNode]
  unfold Scc.finish
  split
  · rename_i first
    have absent : node ∉ segment := fun member =>
      visiting.inv.disjoint split member List.mem_cons_self
    rw [split, pop_segment absent]
    have popped := visiting.popped inv.stacked reached (first.trans rankNode.symm) split crossing
    exact ⟨popped, keeps, ⟨[], rfl, fun _ impossible => absurd impossible List.not_mem_nil⟩, isIndexed,
      .inl first⟩
  · rename_i other
    have least := visiting.least
    have deeper : low < after.rank node := by omega
    refine ⟨visiting.deeper deeper, keeps, ⟨segment ++ [node], ?_, ?_⟩, isIndexed, .inr ?_⟩
    · rw [split, List.append_assoc]
      rfl
    · intro upper isUpper lower edge isLower
      rw [← keeps.rank (inv.indexed isLower)]
      rcases List.mem_append.mp isUpper with inSegment | single
      · exact crossing upper inSegment lower edge isLower
      · rw [List.mem_singleton] at single
        subst single
        exact (visiting.followed lower edge).2 isLower
    · obtain ⟨lower, stacked, same, reaches⟩ := visiting.attained
      have sorted := visiting.inv.sorted
      rw [split] at sorted stacked
      have above := (List.pairwise_append.mp sorted).2.2
      have isLower : lower ∈ state.stack := by
        rcases List.mem_append.mp stacked with inSegment | rest
        · have higher := above lower inSegment node List.mem_cons_self
          omega
        · rcases List.mem_cons.mp rest with rfl | isBelow
          · omega
          · exact isBelow
      exact ⟨lower, isLower, (keeps.rank (inv.indexed isLower)).symm.trans same, reaches⟩

/-- With fuel for every node that is not yet indexed, connecting does its work. -/
theorem connects_connect (closed : ∀ node ∈ nodes, ∀ target ∈ next node, target ∈ nodes) (fuel : Nat) :
    Connects next nodes fuel (connect next fuel) := by
  induction fuel with
  | zero =>
    intro node state active inv new listed reached few
    have some : 0 < state.unindexed nodes := List.countP_pos_iff.mpr ⟨node, listed, by simp [new]⟩
    omega
  | succ fuel ih =>
    intro node state active inv new listed reached few
    have fewer : (state.enter node).unindexed nodes ≤ fuel := by
      have less := unindexed_enter listed new
      omega
    have visited := Visiting.visitAll ih fewer reached
      (fun target edge => ⟨edge, closed node listed target edge⟩) (Visiting.start inv new reached)
    exact Visiting.finish inv new reached visited

theorem connectAll_spec {fuel : Nat}
    (closed : ∀ node ∈ nodes, ∀ target ∈ next node, target ∈ nodes) {rest : List Node}
    (listed : rest ⊆ nodes) (inv : Inv next state []) (few : state.unindexed nodes ≤ fuel) :
    Inv next (connectAll next fuel rest state) [] ∧ Keeps state (connectAll next fuel rest state) ∧
      ∀ node ∈ rest, ((connectAll next fuel rest state).index node).isSome := by
  induction rest generalizing state with
  | nil => exact ⟨inv, Keeps.refl _, by simp⟩
  | cons node rest ih =>
    have later : rest ⊆ nodes := fun other member => listed (List.mem_cons_of_mem _ member)
    unfold connectAll
    cases indexed : state.index node with
    | some index =>
      obtain ⟨after, keeps, all⟩ := ih later inv few
      refine ⟨after, keeps, fun other member => ?_⟩
      rcases List.mem_cons.mp member with rfl | inRest
      · exact keeps.isSome (by simp [indexed])
      · exact all other inRest
    | none =>
      have connected := connects_connect closed fuel node state [] inv indexed
        (listed List.mem_cons_self) (by simp) few
      obtain ⟨after, keeps, all⟩ := ih later connected.inv
        (Nat.le_trans (connected.keeps.unindexed nodes) few)
      refine ⟨after, connected.keeps.trans keeps, fun other member => ?_⟩
      rcases List.mem_cons.mp member with rfl | inRest
      · exact keeps.isSome connected.indexed
      · exact all other inRest

/-! ## Fuel -/

section Fuel

omit [DecidableEq Node] in
theorem keeps_finish [DecidableEq Node] (index low : Nat) (state : Scc Node) :
    Keeps state (finish node index low state).2 := by
  unfold finish
  split
  · exact fun _ _ same => same
  · exact Keeps.refl state

/-- Following edges keeps the indices if connecting does. -/
theorem keeps_visitAll {connect : Node → Scc Node → Nat × Scc Node}
    (keeps : ∀ target state, state.index target = none → Keeps state (connect target state).2)
    (targets : List Node) (low : Nat) (state : Scc Node) : Keeps state (visitAll connect targets low state).2 := by
  induction targets generalizing low state with
  | nil => exact Keeps.refl state
  | cons target rest ih =>
    refine Keeps.trans ?_ (ih _ _)
    cases indexed : state.index target with
    | none => exact keeps target state indexed
    | some index =>
      dsimp only
      split <;> exact Keeps.refl state

theorem keeps_connect (next : Node → List Node) (fuel : Nat) (node : Node) (state : Scc Node)
    (new : state.index node = none) : Keeps state (connect next fuel node state).2 := by
  induction fuel generalizing node state with
  | zero => exact Keeps.refl state
  | succ fuel ih =>
    refine (keeps_enter new).trans (Keeps.trans ?_ (keeps_finish _ _ _))
    exact keeps_visitAll ih _ _ _

theorem visitAll_congr (nodes : List Node) {bound : Nat} {one two : Node → Scc Node → Nat × Scc Node}
    (keeps : ∀ target state, state.index target = none → Keeps state (one target state).2)
    (targets : List Node) (low : Nat) (state : Scc Node) (few : state.unindexed nodes ≤ bound)
    (agree : ∀ target ∈ targets, ∀ state : Scc Node, state.index target = none → state.unindexed nodes ≤ bound →
      one target state = two target state) :
    visitAll one targets low state = visitAll two targets low state := by
  induction targets generalizing low state with
  | nil => rfl
  | cons target rest ih =>
    have same : visit one target low state = visit two target low state := by
      unfold visit
      cases indexed : state.index target with
      | none => simp only [agree target List.mem_cons_self state indexed few]
      | some index => rfl
    have fewer : (visit one target low state).2.unindexed nodes ≤ bound :=
      Nat.le_trans ((keeps_visitAll keeps [target] low state).unindexed nodes) few
    unfold visitAll
    rw [← same]
    exact ih _ _ fewer fun other member => agree other (List.mem_cons_of_mem _ member)

/-- More fuel than there are nodes without an index changes nothing. -/
theorem connect_fuel (closed : ∀ node ∈ nodes, ∀ target ∈ next node, target ∈ nodes)
    (fuel more : Nat) (node : Node) (state : Scc Node) (new : state.index node = none) (listed : node ∈ nodes)
    (enough : state.unindexed nodes ≤ fuel) (plenty : state.unindexed nodes ≤ more) :
    connect next fuel node state = connect next more node state := by
  have some_ : 0 < state.unindexed nodes := List.countP_pos_iff.mpr ⟨node, listed, by simp [new]⟩
  induction fuel generalizing more node state with
  | zero => omega
  | succ fuel ih =>
    cases more with
    | zero => omega
    | succ more =>
      have fewer := unindexed_enter listed new
      have agree : visitAll (connect next fuel) (next node) state.nextIndex (state.enter node) =
          visitAll (connect next more) (next node) state.nextIndex (state.enter node) := by
        refine visitAll_congr nodes (keeps_connect next fuel) _ _ _ (Nat.le_refl _) fun target edge other fresh few => ?_
        have inside := closed node listed target edge
        refine ih more target other fresh inside (by omega) (by omega) ?_
        exact List.countP_pos_iff.mpr ⟨target, inside, by simp [fresh]⟩
      unfold connect
      rw [agree]

theorem connectAll_fuel (closed : ∀ node ∈ nodes, ∀ target ∈ next node, target ∈ nodes)
    {fuel more : Nat} {rest : List Node} (listed : rest ⊆ nodes) (state : Scc Node)
    (enough : state.unindexed nodes ≤ fuel) (plenty : state.unindexed nodes ≤ more) :
    connectAll next fuel rest state = connectAll next more rest state := by
  induction rest generalizing state with
  | nil => rfl
  | cons node rest ih =>
    have later : rest ⊆ nodes := fun other member => listed (List.mem_cons_of_mem _ member)
    unfold connectAll
    cases indexed : state.index node with
    | some index => exact ih later state enough plenty
    | none =>
      dsimp only
      rw [connect_fuel closed fuel more node state indexed (listed List.mem_cons_self) enough plenty]
      have keeps := (keeps_connect next more node state indexed).unindexed nodes
      exact ih later _ (Nat.le_trans keeps enough) (Nat.le_trans keeps plenty)

end Fuel

end Scc

/-- The search for components comes to its end: fuel for every node is enough, and more
of it gives the same components. -/
theorem componentsOf_fuel {Node : Type} [DecidableEq Node] {next : Node → List Node} {nodes : List Node}
    (closed : ∀ node ∈ nodes, ∀ target ∈ next node, target ∈ nodes) {fuel : Nat} (enough : nodes.length ≤ fuel) :
    (Scc.connectAll next fuel nodes Scc.empty).components = componentsOf next nodes := by
  have few : (Scc.empty : Scc Node).unindexed nodes ≤ nodes.length := List.countP_le_length
  rw [componentsOf, Scc.connectAll_fuel closed (List.Subset.refl nodes) Scc.empty (Nat.le_trans few enough) few]

/-- No node is in two components, or twice in one. -/
theorem componentsOf_nodup {Node : Type} [DecidableEq Node] {next : Node → List Node} {nodes : List Node}
    (closed : ∀ node ∈ nodes, ∀ target ∈ next node, target ∈ nodes) : (componentsOf next nodes).flatten.Nodup := by
  have few : (Scc.empty : Scc Node).unindexed nodes ≤ nodes.length := List.countP_le_length
  exact (Scc.connectAll_spec closed (List.Subset.refl nodes) Scc.inv_empty few).1.distinct

/-- The components of a closed graph are the classes of mutually reachable nodes,
and every node is in one. -/
theorem componentsOf_spec {Node : Type} [DecidableEq Node] {next : Node → List Node} {nodes : List Node}
    (closed : ∀ node ∈ nodes, ∀ target ∈ next node, target ∈ nodes) :
    (∀ node ∈ nodes, ∃ component ∈ componentsOf next nodes, node ∈ component) ∧
      ∀ component ∈ componentsOf next nodes, ∀ node ∈ component, ∀ other,
        other ∈ component ↔ Mutual next node other := by
  have few : (Scc.empty : Scc Node).unindexed nodes ≤ nodes.length := List.countP_le_length
  obtain ⟨inv, -, indexed⟩ := Scc.connectAll_spec closed (List.Subset.refl nodes) Scc.inv_empty few
  refine ⟨fun node member => ?_, inv.classes⟩
  rcases (inv.placed node).mp (indexed node member) with stacked | popped
  · -- nothing is active any more, so nothing is left on the stack
    obtain ⟨base, none, -⟩ := inv.falls node stacked
    cases none
  · exact List.mem_flatten.mp popped

end RpaEnterprise.Lib
