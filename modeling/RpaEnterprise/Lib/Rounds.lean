import Mathlib.Logic.Relation

/-!
# Graphs that are walked in rounds

A graph with forward edges and body edges.  A loop is a node with a body edge.  Where the
forward edges have no cycle and no loop can be reached from the body of another one
before that other one is passed, whoever leaves a loop by a forward edge never comes back
to it.
-/

namespace RpaEnterprise.Lib

open Relation

section Rounds

variable {Node : Type*} {forward body : Node → Node → Prop}

/-- An edge of either kind. -/
def Walks (forward body : Node → Node → Prop) (node target : Node) : Prop :=
  forward node target ∨ body node target

/-- An edge of either kind that does not leave a given node. -/
def WalksAround (forward body : Node → Node → Prop) (avoided node target : Node) : Prop :=
  Walks forward body node target ∧ node ≠ avoided

structure Separate (forward body : Node → Node → Prop) : Prop where
  acyclic : ∀ node, ¬ TransGen forward node node
  apart : ∀ {first target second other : Node}, body first target → body second other → second ≠ first →
    ¬ ReflTransGen (WalksAround forward body first) target second

/-- A forward path goes around a node or through it. -/
theorem around_or_through {avoided node target : Node} (path : ReflTransGen forward node target) :
    ReflTransGen (WalksAround forward body avoided) node target ∨ ReflTransGen forward avoided target := by
  induction path using ReflTransGen.head_induction_on with
  | refl => exact .inl .refl
  | head edge rest ih =>
    rename_i first next
    rcases ih with around | through
    · by_cases here : first = avoided
      · exact .inr (here ▸ ReflTransGen.head edge rest)
      · exact .inl (.head ⟨.inl edge, here⟩ around)
    · exact .inr through

/-- A loop that can be reached at all can be reached along forward edges. -/
theorem Separate.forward_of_reaches (separate : Separate forward body) {node loop target : Node}
    (isLoop : body loop target) (reaches : ReflTransGen (Walks forward body) node loop) :
    ReflTransGen forward node loop := by
  induction reaches using ReflTransGen.head_induction_on with
  | refl => exact .refl
  | head edge rest ih =>
    rename_i first next
    rcases edge with ahead | inside
    · exact .head ahead ih
    · by_cases same : loop = first
      · exact same ▸ .refl
      · -- from the body of another loop the way leads through that loop
        have passes : ReflTransGen (WalksAround forward body first) next loop ∨ ReflTransGen forward first loop :=
          around_or_through ih
        exact passes.resolve_left (separate.apart inside isLoop same)

/-- Whoever leaves a loop by a forward edge does not come back. -/
theorem Separate.not_reaches_of_exit (separate : Separate forward body) {loop target exit : Node}
    (isLoop : body loop target) (exits : forward loop exit) : ¬ ReflTransGen (Walks forward body) exit loop := by
  intro back
  exact separate.acyclic loop (TransGen.head' exits (separate.forward_of_reaches isLoop back))

end Rounds

end RpaEnterprise.Lib
