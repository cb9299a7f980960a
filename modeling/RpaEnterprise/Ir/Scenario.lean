import RpaEnterprise.Irel.Parser
import RpaEnterprise.Lib.Json
import RpaEnterprise.Lib.Text

/-!
# Scenario documents

A scenario is a graph of nodes.  The document has passed the schema when it gets
here, but the analysis reads the flow of a node as unknown values and decides for
itself what each of them is.
-/

namespace RpaEnterprise.Ir

open Lib Irel

/-- `IRScenario`: what the analysis and the translation read.  The keys of an
object are different from each other. -/
structure IrScenario where
  start : String
  version : Rat := 1
  irVersion : Option String := none
  paramsSchema : Option Json := none
  nodes : List (String × Json)
  distinct : (nodes.map Prod.fst).Nodup := by decide

namespace IrScenario

/-- `Object.keys(ir.nodes)`. -/
def nodeIds (ir : IrScenario) : List String := ir.nodes.map Prod.fst

/-- `ir.nodes[nodeId]`. -/
def node (ir : IrScenario) (nodeId : String) : Option Json := Json.lookup nodeId ir.nodes

end IrScenario

/-! ## The flow of a node -/

/-- `Array.isArray(value) ? value : []`. -/
def arrayOr (value : Option Json) : List Json := (value.bind Json.items?).getD []

def onBranchesOf (node : Json) : List Json := arrayOr (node.field "on")

def fallbackChainOf (node : Json) : List Json := arrayOr (node.field "fallback_chain")

/-- `isRecord(loop) ? loop : undefined`. -/
def loopOf (node : Json) : Option Json :=
  match node.field "loop" with
  | some (.obj fields) => some (.obj fields)
  | _ => none

def isLoopNode (node : Option Json) : Bool := (node.bind loopOf).isSome

/-- `node.what ?? []`. -/
def whatOf (node : Json) : List Json := arrayOr (node.field "what")

/-- `node.verify?.criteria ?? []`. -/
def criteriaOf (node : Json) : List Json := arrayOr ((node.field "verify").bind (·.field "criteria"))

/-- `record[key]` when it is a string. -/
def textOf (record : Json) (key : String) : Option String := (record.field key).bind Json.text?

/-- `record[key]` when it is a number. -/
def numberOf (record : Json) (key : String) : Option Rat :=
  match record.field key with
  | some (.num value) => some value
  | _ => none

def hasEmptyResultWitness (node : Json) : Bool :=
  (criteriaOf node).any fun criterion => textOf criterion "type" = some "empty_result_allowed"

/-! ## Targets -/

inductive TargetRefKind where
  | node
  | handlerReturn
  | loopBody
  | loopExit
  | fallbackEntry
  | endNoData
  | invalidReservedHandler
deriving Repr, DecidableEq

structure TargetRef where
  kind : TargetRefKind
  target : Option String := none
  label : String
  reason : Option String := none
deriving Repr, DecidableEq

def endNoDataTarget : String := "@end_no_data"

def returningReservedHandlers : List String := ["@challenge", "@human_task"]

def invalidTarget (label reason : String) (target : Option String := none) : TargetRef :=
  { kind := .invalidReservedHandler, target, label, reason := some reason }

def readTargetRef (value : Option Json) (label : String) : TargetRef :=
  match value with
  | some (.str text) =>
    if text = endNoDataTarget then { kind := .endNoData, target := some text, label }
    else if text ∈ returningReservedHandlers then
      invalidTarget label "reserved_handler_call_shape_invalid" (some text)
    else { kind := .node, target := some text, label }
  | some (.obj fields) =>
    match textOf (.obj fields) "handler" with
    | some handler =>
      if handler = endNoDataTarget then
        if ((Json.obj fields).field "return_node").isSome then
          invalidTarget label "end_no_data_return_node_forbidden" (some endNoDataTarget)
        else invalidTarget label "end_no_data_handler_call_invalid" (some endNoDataTarget)
      else if handler ∈ returningReservedHandlers then
        match textOf (.obj fields) "return_node" with
        | some returnNode =>
          { kind := .handlerReturn, target := some returnNode, label := s!"{label}.return_node" }
        | none => invalidTarget label "handler_return_node_missing" (some handler)
      else invalidTarget label "reserved_handler_unknown"
    | none => invalidTarget label "reserved_handler_unknown"
  | _ => invalidTarget label "target_shape_invalid"

def readNodeTargetRef (value : Option Json) (label : String) (kind : TargetRefKind) : TargetRef :=
  match value with
  | some (.str text) => { kind, target := some text, label }
  | _ => invalidTarget label "target_shape_invalid"

def isNodeEdge (ref : TargetRef) : Bool :=
  match ref.kind with
  | .node | .handlerReturn | .loopBody | .loopExit | .fallbackEntry => true
  | .endNoData | .invalidReservedHandler => false

def targetRefsOf (node : Json) : List TargetRef :=
  ((node.field "next").map fun next => readTargetRef (some next) "next").toList ++
    ((onBranchesOf node).map fun branch => readTargetRef (branch.field "target") "on[].target") ++
    ((fallbackChainOf node).map fun tier =>
      readNodeTargetRef (tier.field "entry_node") "fallback_chain[].entry_node" .fallbackEntry) ++
    match loopOf node with
    | some loop =>
      [readNodeTargetRef (loop.field "body_target") "loop.body_target" .loopBody,
        readNodeTargetRef (loop.field "exit_target") "loop.exit_target" .loopExit]
    | none => []

/-! ## What the schema guarantees

The parts of `ir.schema.json` and `verify.schema.json` that concern the flow, the
expressions and the criteria of a node. -/

def isIdentifier : List Char → Bool
  | [] => false
  | first :: rest => isIdentifierStart first && rest.all isIdentifierPart

/-- `nodeTarget`. -/
def isNodeTarget (value : Option Json) : Bool :=
  match value with
  | some (.str text) => isIdentifier text.toList
  | _ => false

def isRecord (value : Option Json) : Bool :=
  match value with
  | some (.obj _) => true
  | _ => false

/-- `target`: a node, `@end_no_data` or a call of a returning handler. -/
def isTarget (value : Option Json) : Bool :=
  match value with
  | some (.str text) => text = endNoDataTarget || isIdentifier text.toList
  | some (.obj fields) =>
    (match textOf (.obj fields) "handler" with
      | some handler => returningReservedHandlers.contains handler
      | none => false) &&
    isRecord ((Json.obj fields).field "input") && isNodeTarget ((Json.obj fields).field "return_node")
  | _ => false

def isBranch (branch : Json) : Bool :=
  (textOf branch "when").isSome && (numberOf branch "priority").isSome && isTarget (branch.field "target")

def isLoop (loop : Json) : Bool :=
  (textOf loop "until").isSome && isNodeTarget (loop.field "body_target") &&
    isNodeTarget (loop.field "exit_target") && (numberOf loop "max_iterations").isSome

def isTier (tier : Json) : Bool :=
  (match textOf tier "tier" with
    | some name => ["T0", "T1", "T2", "T3"].contains name
    | none => false) &&
  isNodeTarget (tier.field "entry_node") &&
  ((tier.field "advance_when").isNone || (textOf tier "advance_when").isSome)

/-- A non-empty array of things of a kind. -/
def isArrayOf (isEntry : Json → Bool) (value : Json) : Bool :=
  match value with
  | .arr entries => !entries.isEmpty && entries.all isEntry
  | _ => false

def terminals : List String := ["success", "success_empty", "fail_business", "fail_system"]

/-- Exactly one of the keys of the flow, with a value of its kind. -/
def isFlow (node : Json) : Bool :=
  match node.field "next", node.field "on", node.field "loop", node.field "fallback_chain",
      node.field "terminal" with
  | some next, none, none, none, none => isTarget (some next)
  | none, some on, none, none, none => isArrayOf isBranch on
  | none, none, some loop, none, none => isRecord (some loop) && isLoop loop
  | none, none, none, some chain, none => isArrayOf isTier chain
  | none, none, none, none, some (.str terminal) => terminals.contains terminal
  | _, _, _, _, _ => false

def isCriterion (criterion : Json) : Bool :=
  (textOf criterion "type").isSome &&
    (textOf criterion "type" ≠ some "empty_result_allowed" || (textOf criterion "when").isSome)

def isVerify (verify : Option Json) : Bool :=
  match verify with
  | none => true
  | some (.obj fields) =>
    match (Json.obj fields).field "criteria" with
    | some criteria => isArrayOf isCriterion criteria
    | none => false
  | some _ => false

def isNode (node : Json) : Bool := isRecord (some node) && isFlow node && isVerify (node.field "verify")

/-- The nodes are as the schema wants them. -/
def SchemaShaped (ir : IrScenario) : Prop := ∀ entry ∈ ir.nodes, isNode entry.2 = true

instance (ir : IrScenario) : Decidable (SchemaShaped ir) :=
  inferInstanceAs (Decidable (∀ entry ∈ ir.nodes, isNode entry.2 = true))

/-! ## The graph -/

def edgeTargetsOf (node : Json) : List String :=
  (targetRefsOf node).filterMap fun ref => if isNodeEdge ref then ref.target else none

def buildGraph (ir : IrScenario) : List (String × List String) :=
  ir.nodes.map fun entry => (entry.1, edgeTargetsOf entry.2)

/-- `graph.get(nodeId) ?? []`. -/
def edgesFrom (graph : List (String × List String)) (nodeId : String) : List String :=
  (graph.lookup nodeId).getD []

end RpaEnterprise.Ir
