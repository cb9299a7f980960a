import RpaEnterprise.Interpreter.Actions
import RpaEnterprise.Lib.Results

/-!
# From documents to compiled scenarios

`compiledScenarioFrom` puts the document and the compiled trees of its conditions
together.  The trees are counted against the branches, the loop and the tiers of the
document; a difference is refused.
-/

namespace RpaEnterprise.Interpreter

open Lib Ir

/-! ## Verification -/

/-- `policy.max_self_heal` when it is a natural number, else 2. -/
def maxSelfHealOf (policy : Option Json) : Nat :=
  match policy.bind fun policy => numberOf policy "max_self_heal" with
  | some count => if count.den = 1 ∧ 0 ≤ count then count.num.toNat else 2
  | none => 2

def projectVerify (nodeId : String) (rawVerify rawPolicy : Option Json) :
    Except Thrown (Option NodeVerify) :=
  match rawVerify with
  | none => .ok none
  | some verify =>
    match verify.field "criteria" with
    | some (.arr (criterion :: rest)) =>
      .ok (some
        { criteria := criterion :: rest
          onFail := (textOf verify "on_fail").getD "self_heal"
          maxSelfHeal := maxSelfHealOf rawPolicy })
    | _ => refuse nodeId "verify.criteria 누락/빈 배열"

/-! ## Flows -/

def reservedHandlerOf (text : Option Json) : Option ReservedHandler :=
  match text with
  | some (.str "@challenge") => some .challenge
  | some (.str "@human_task") => some .humanTask
  | _ => none

/-- `String(value)`. -/
def handlerText (value : Option Json) : String :=
  match value with
  | some found => stringOf found
  | none => "undefined"

def reservedHandlerFlow (nodeId : String) (raw : Json) : Except Thrown NodeFlow :=
  let called := handlerText (raw.field "handler")
  match reservedHandlerOf (raw.field "handler") with
  | none => refuse nodeId s!"reservedHandlerCall.handler '{called}' 무효(@challenge|@human_task)"
  | some handler =>
    match raw.field "input" with
    | some (.obj input) =>
      match filled raw "return_node" with
      | some returnNode => .ok (.reservedHandler handler (.obj input) returnNode)
      | none => refuse nodeId "reservedHandlerCall.return_node 필요(노드 id)"
    | _ => refuse nodeId "reservedHandlerCall.input 객체 필요"

def toBranch (nodeId : String) (branch : CompiledOnBranch) : Except Thrown OnBranch :=
  match branch.target with
  | some (.str target) => .ok ⟨branch.when_, target, branch.priority⟩
  | some (.obj target) =>
    if (textOf (.obj target) "handler").isSome then refuse nodeId
      "on[] 분기 target 이 reservedHandlerCall(@challenge/@human_task) — 미지원(next-target 사용)"
    else refuse nodeId "compiled on[] branch 형식 오류"
  | _ => refuse nodeId "compiled on[] branch 형식 오류"

def onFlowOf (nodeId : String) (branches : List Json) (compiled : CompiledNode) : Except Thrown NodeFlow :=
  let onAst := compiled.on.getD []
  if branches.length ≠ onAst.length then
    refuse nodeId s!"on[] compiled_ast 드리프트(ir {branches.length} vs compiled {onAst.length})"
  else do
    let branches ← translateAll (toBranch nodeId) onAst
    pure (.on branches)

def loopFlowOf (nodeId : String) (compiled : CompiledNode) : Except Thrown NodeFlow :=
  match compiled.loop with
  | some loop => .ok (.loop loop.until_ loop.bodyTarget loop.exitTarget loop.maxIterations)
  | none => refuse nodeId "loop compiled_ast 드리프트/불완전(until AST·body/exit/max 부재)"

def fallbackFlowOf (nodeId : String) (chain : List Json) (compiled : CompiledNode) : Except Thrown NodeFlow :=
  let tiers := compiled.fallbackChain.getD []
  if tiers = [] ∨ tiers.length ≠ chain.length then
    refuse nodeId s!"fallback_chain compiled_ast 드리프트(ir {chain.length} vs compiled {tiers.length})"
  else .ok (.fallback tiers)

def flowOf (nodeId : String) (raw : Json) (compiled : CompiledNode) : Except Thrown NodeFlow :=
  match textOf raw "terminal", raw.field "next", raw.field "on", loopOf raw, raw.field "fallback_chain" with
  | some terminal, _, _, _, _ => .ok (.terminal terminal)
  | none, some (.str target), _, _, _ => .ok (.next target)
  | none, some (.obj next), _, _, _ => reservedHandlerFlow nodeId (.obj next)
  | none, _, some (.arr branches), _, _ => onFlowOf nodeId branches compiled
  | none, _, _, some _, _ => loopFlowOf nodeId compiled
  | none, _, _, _, some (.arr chain) => fallbackFlowOf nodeId chain compiled
  | none, _, _, _, _ => .error (.interpreter .unsupportedFlow
      s!"compiledScenarioFrom: node '{nodeId}' 미지원 흐름(next/on/loop/fallback_chain/terminal 중 하나 필요)")

/-! ## Nodes -/

/-- `nodeRecordingPolicy`. -/
def nodeRecordingPolicy (policy : Option Json) : Option String :=
  (policy.bind fun policy => textOf policy "recording").filter
    (["always", "masked_on_failure", "never"].contains ·)

/-- `raw.side_effect.kind`. -/
def nodeSideEffectOf (raw : Json) : Option String :=
  (raw.field "side_effect").bind fun effect => textOf effect "kind"

/-- An action of a node, with what the node says about all its actions. -/
def mapNodeAction (host : Host) (params : Option Json) (nodeId : String) (raw action : Json) :
    Except Thrown (Option Json) :=
  mapAction host nodeId action params (nodeSideEffectOf raw) (nodeRecordingPolicy (raw.field "policy"))

def translateNode (host : Host) (compiledAst : CompiledScenarioAst) (params : Option Json)
    (entry : String × Json) : Except Thrown (NodeId × ScenarioNode) :=
  let nodeId := entry.1
  match entry.2 with
  | .obj fields => do
    let raw := Json.obj fields
    let what ← translateAll (mapNodeAction host params nodeId raw) (whatOf raw)
    let flow ← flowOf nodeId raw ((compiledAst.nodes.lookup nodeId).getD {})
    let verify ← projectVerify nodeId (raw.field "verify") (raw.field "policy")
    pure (nodeId, { what := what.filterMap id, flow, verify })
  | _ => refuse nodeId "형식 오류"

def compiledScenarioFrom (host : Host) (ir : IrScenario) (compiledAst : CompiledScenarioAst)
    (params : Option Json) : Except Thrown CompiledScenario := do
  let nodes ← translateAll (translateNode host compiledAst params) ir.nodes
  pure { start := ir.start, nodes }

end RpaEnterprise.Interpreter
