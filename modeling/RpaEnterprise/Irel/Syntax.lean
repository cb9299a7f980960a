import RpaEnterprise.Lib.Json

/-!
# Syntax of the expression language

The conditions of a scenario are written in a small expression language.  An
expression is parsed and checked when the scenario is saved; the interpreter
sees the syntax tree only.  Numbers are exact rationals.
-/

namespace RpaEnterprise.Irel

open Lib

inductive TypeAtom where
  | int
  | number
  | string
  | boolean
  | null
deriving Repr, DecidableEq

def TypeAtom.text : TypeAtom → String
  | .int => "int"
  | .number => "number"
  | .string => "string"
  | .boolean => "boolean"
  | .null => "null"

inductive IrelValue where
  | num (value : Rat)
  | str (text : String)
  | bool (value : Bool)
  | null
deriving DecidableEq

inductive AdditiveOp where
  | plus
  | minus
deriving Repr, DecidableEq

inductive CompareOp where
  | eq
  | ne
  | gt
  | ge
  | lt
  | le
deriving Repr, DecidableEq

inductive LogicalOp where
  | and
  | or
deriving Repr, DecidableEq

def AdditiveOp.text : AdditiveOp → String
  | .plus => "+"
  | .minus => "-"

def CompareOp.text : CompareOp → String
  | .eq => "=="
  | .ne => "!="
  | .gt => ">"
  | .ge => ">="
  | .lt => "<"
  | .le => "<="

def LogicalOp.text : LogicalOp → String
  | .and => "&&"
  | .or => "||"

/-- `IRELNode`.  `grouped` marks a node the source wrote in parentheses; only
the parser reads it. -/
inductive IrelNode where
  | literal (valueType : TypeAtom) (value : IrelValue) (grouped : Bool)
  | var (path : List String) (grouped : Bool)
  | call (name : String) (args : List IrelNode) (grouped : Bool)
  | unary (expr : IrelNode) (grouped : Bool)
  | binary (op : AdditiveOp) (left right : IrelNode) (grouped : Bool)
  | compare (op : CompareOp) (left right : IrelNode) (grouped : Bool)
  | logical (op : LogicalOp) (left right : IrelNode) (grouped : Bool)

namespace IrelNode

/-- Induction over a syntax tree, with one hypothesis for each argument of a call. -/
@[elab_as_elim]
theorem induct {motive : IrelNode → Prop}
    (literal : ∀ valueType value grouped, motive (.literal valueType value grouped))
    (var : ∀ path grouped, motive (.var path grouped))
    (call : ∀ name args grouped, (∀ arg ∈ args, motive arg) → motive (.call name args grouped))
    (unary : ∀ expr grouped, motive expr → motive (.unary expr grouped))
    (binary : ∀ op left right grouped, motive left → motive right →
      motive (.binary op left right grouped))
    (compare : ∀ op left right grouped, motive left → motive right →
      motive (.compare op left right grouped))
    (logical : ∀ op left right grouped, motive left → motive right →
      motive (.logical op left right grouped))
    (node : IrelNode) : motive node :=
  IrelNode.rec literal var call unary binary compare logical
    (fun _ impossible => absurd impossible List.not_mem_nil)
    (fun arg args first rest other found => by
      rcases List.mem_cons.mp found with rfl | later
      · exact first
      · exact rest other later)
    node

mutual

/-- The variable paths of an expression, in order. -/
def paths : IrelNode → List (List String)
  | .literal .. => []
  | .var path _ => [path]
  | .call _ args _ => pathsOf args
  | .unary expr _ => paths expr
  | .binary _ left right _ => paths left ++ paths right
  | .compare _ left right _ => paths left ++ paths right
  | .logical _ left right _ => paths left ++ paths right

def pathsOf : List IrelNode → List (List String)
  | [] => []
  | node :: rest => paths node ++ pathsOf rest

end

mutual

/-- The arguments of the calls of an expression. -/
def callArguments : IrelNode → List IrelNode
  | .literal .. => []
  | .var .. => []
  | .call _ args _ => args ++ callArgumentsOf args
  | .unary expr _ => callArguments expr
  | .binary _ left right _ => callArguments left ++ callArguments right
  | .compare _ left right _ => callArguments left ++ callArguments right
  | .logical _ left right _ => callArguments left ++ callArguments right

def callArgumentsOf : List IrelNode → List IrelNode
  | [] => []
  | node :: rest => callArguments node ++ callArgumentsOf rest

end

theorem mem_callArgumentsOf {args : List IrelNode} {argument : IrelNode} :
    argument ∈ callArgumentsOf args ↔ ∃ arg ∈ args, argument ∈ arg.callArguments := by
  induction args with
  | nil => simp [callArgumentsOf]
  | cons arg rest ih => simp [callArgumentsOf, ih]

end IrelNode

end RpaEnterprise.Irel
