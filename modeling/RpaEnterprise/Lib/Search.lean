import Mathlib

/-!
# Worklist search

The loop that takes a node from a stack, passes over it when it was seen and
otherwise pushes what follows it, with fuel for every edge.
-/

namespace RpaEnterprise.Lib

section Search

variable {Node : Type} [DecidableEq Node] (next : Node → List Node)

/-- `target` is one edge after `node`. -/
def Edge (node target : Node) : Prop := target ∈ next node

/-- The nodes seen when the stack has run empty; the last pushed is popped first. -/
def search : Nat → List Node → List Node → List Node
  | 0, _, seen => seen
  | _ + 1, [], seen => seen
  | fuel + 1, node :: stack, seen =>
    if node ∈ seen then search fuel stack seen
    else search fuel ((next node).reverse ++ stack) (node :: seen)

/-- The same loop, stopped as soon as the goal is popped. -/
def finds (goal : Node) : Nat → List Node → List Node → Bool
  | 0, _, _ => false
  | _ + 1, [], _ => false
  | fuel + 1, node :: stack, seen =>
    if node = goal then true
    else if node ∈ seen then finds goal fuel stack seen
    else finds goal fuel ((next node).reverse ++ stack) (node :: seen)

/-- Fuel for a search among the nodes that have edges. -/
def searchFuel (nodes stack : List Node) : Nat :=
  stack.length + (nodes.map fun node => (next node).length).sum + 1

end Search

end RpaEnterprise.Lib
