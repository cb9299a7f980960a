import RpaEnterprise.Governance.Compile
import RpaEnterprise.Ir.Scenario
import RpaEnterprise.Irel.Compile
import RpaEnterprise.Lib.Components

/-!
# Static validation of scenarios

`compileScenarioStatic` checks the graph of a scenario, compiles its expressions
and, when no error was reported, returns the compiled trees by node.  The checks
push their issues on two lists; only the errors decide.  A `TypeError` of the
expression checker goes through.
-/

namespace RpaEnterprise.Ir

open Lib Irel
open Governance (ValidationIssue ValidationReport)

/-! ## Issues -/

def issue (rule reason detail : String) (nodeId : Option String := none) : ValidationIssue :=
  { rule, reason, expression := false, nodeId, detail }

def expressionIssue (diagnostic : Diagnostic) (nodeId : Option String := none) : ValidationIssue :=
  { rule := if diagnostic.reason = .unknownNodeField then "V9" else "V8"
    reason := diagnostic.reason.text
    expression := true
    nodeId
    detail := s!"{diagnostic.code.text}: {diagnostic.detail}" }

/-! ## Compiled trees -/

structure CompiledOnBranch where
  when_ : IrelNode
  target : Option Json
  priority : Rat

structure CompiledLoop where
  until_ : IrelNode
  bodyTarget : String
  exitTarget : String
  maxIterations : Rat

structure CompiledFallbackTier where
  tier : String
  entryNode : String
  advanceWhen : Option IrelNode := none

/-- `CompiledNodeAst`; a list that would be empty is left out. -/
structure CompiledNode where
  on : Option (List CompiledOnBranch) := none
  loop : Option CompiledLoop := none
  fallbackChain : Option (List CompiledFallbackTier) := none
  emptyResultAllowed : Option (List IrelNode) := none

/-- `CompiledScenarioAst`. -/
structure CompiledScenarioAst where
  irVersion : String
  scenarioVersion : Rat
  nodes : List (String × CompiledNode)

/-- `CompileScenarioStaticResult`. -/
structure StaticResult where
  report : ValidationReport
  compiledAst : Option CompiledScenarioAst

/-! ## Targets and branches -/

def validateTargets (nodeId : String) (node : Json) (nodeIds : List String) : List ValidationIssue :=
  (targetRefsOf node).filterMap fun ref =>
    if ref.kind = .invalidReservedHandler then
      some (issue "V1" (ref.reason.getD "reserved_handler_call_shape_invalid")
        s!"{ref.label} must use a closed handler-call object with handler, input, and return_node; @end_no_data is terminal and has no return_node"
        nodeId)
    else if isNodeEdge ref then
      match ref.target with
      | some target =>
        if target ∈ nodeIds then none
        else some (issue "V1" "target_not_found" s!"{ref.label} '{target}' does not exist" nodeId)
      | none => some (issue "V1" "target_not_found" s!"{ref.label} '<missing>' does not exist" nodeId)
    else none

def validateOnBranchReservedHandler (nodeId : String) (node : Json) : List ValidationIssue :=
  (onBranchesOf node).filterMap fun branch =>
    match branch.field "target" with
    | some (.obj _) =>
      some (issue "V1" "on_branch_reserved_handler_unsupported"
        "on[].target reservedHandlerCall(@challenge/@human_task) is unsupported on an on[] branch; use 'next' for a returning handler call or a node-id/@end_no_data string target"
        nodeId)
    | _ => none

/-- The priorities that were seen before, in order. -/
def duplicatePriorities : List Rat → List Rat → List Rat
  | _, [] => []
  | seen, priority :: rest =>
    (if priority ∈ seen then [priority] else []) ++ duplicatePriorities (priority :: seen) rest

def validateOnPriorities (nodeId : String) (node : Json) : List ValidationIssue :=
  (duplicatePriorities [] ((onBranchesOf node).filterMap (numberOf · "priority"))).map fun priority =>
    issue "V6" "duplicate_priority" s!"duplicate on[] priority {Json.numText priority}" nodeId

def validateEndNoDataWitness (nodeId : String) (node : Json) : List ValidationIssue :=
  let reachesEndNoData := (targetRefsOf node).any fun ref => ref.kind = .endNoData
  let terminalSuccessEmpty := textOf node "terminal" = some "success_empty"
  if (reachesEndNoData || terminalSuccessEmpty) && !hasEmptyResultWitness node then
    [issue "V7" "empty_result_without_witness"
      "@end_no_data/success_empty requires empty_result_allowed witness" nodeId]
  else []

/-! ## Fallback chains -/

def tierOrder (tier : String) : Option Nat :=
  match tier with
  | "T0" => some 0
  | "T1" => some 1
  | "T2" => some 2
  | "T3" => some 3
  | _ => none

/-- Whether the tiers are not known, not new or not in order. -/
def tiersMisordered : Option Nat → List String → List String → Bool
  | _, _, [] => false
  | previous, seen, tier :: rest =>
    match tierOrder tier with
    | none => true
    | some order =>
      if seen.contains tier || (match previous with | some last => order ≤ last | none => false) then true
      else tiersMisordered (some order) (tier :: seen) rest

def validateFallbackChain (nodeId : String) (node : Json) : List ValidationIssue :=
  if tiersMisordered none [] ((fallbackChainOf node).filterMap (textOf · "tier")) then
    [issue "V11" "fallback_chain_invalid" "fallback_chain tiers must be unique and monotonic T0→T3" nodeId]
  else []

/-- The tiers of a chain that name a tier and an entry node. -/
def namedTiers (node : Json) : List (String × String) :=
  (fallbackChainOf node).filterMap fun tier =>
    match textOf tier "tier", textOf tier "entry_node" with
    | some name, some entryNode => some (name, entryNode)
    | _, _ => none

/-- `ir.nodes[entry_node]?.side_effect`. -/
def sideEffectOf (ir : IrScenario) (nodeId : String) : Option Json :=
  (ir.node nodeId).bind (·.field "side_effect")

def validateFallbackIdempotency (nodeId : String) (node : Json) (ir : IrScenario) :
    List ValidationIssue :=
  let tiers := namedTiers node
  let chainIsNonReadOnly := tiers.any fun tier =>
    match sideEffectOf ir tier.2 with
    | some sideEffect => textOf sideEffect "kind" ≠ some "read_only"
    | none => false
  if chainIsNonReadOnly then
    tiers.filterMap fun tier =>
      match (sideEffectOf ir tier.2).bind (textOf · "idempotency_key") with
      | some key => if key = "" then missing tier else none
      | none => missing tier
  else []
where
  missing (tier : String × String) : Option ValidationIssue :=
    some (issue "V12" "fallback_side_effect_idempotency_missing"
      s!"fallback_chain tier '{tier.1}' entry_node '{tier.2}' requires side_effect.idempotency_key (non-read_only fallback re-executes tiers; §4)"
      nodeId)

/-! ## Value paths, actions and loops -/

/-- `VALUE_PATH_RE.test(path)`. -/
def isValuePath (path : String) : Bool := (path.toList.splitOn '.').all isIdentifier

def validateValuePaths (nodeId : String) (node : Json) : List ValidationIssue :=
  (criteriaOf node).filterMap fun criterion =>
    if textOf criterion "type" ≠ some "value_match" then none
    else
      let path := (textOf criterion "path").getD ""
      if !isValuePath path then
        some (issue "V10" "invalid_value_path" s!"invalid value_match.path '{path}'" nodeId)
      else
        let root := String.ofList ((path.toList.splitOn '.').headD [])
        if root = "extracted" ∨ root = "node" then none
        else some (issue "V10" "invalid_value_path"
          s!"value_match.path '{path}' root '{root}' must be 'extracted' or 'node.<id>'" nodeId)

def validateBrowserProductActions (nodeId : String) (node : Json) : List ValidationIssue :=
  (whatOf node).filterMap fun action =>
    match textOf action "action" with
    | some name =>
      if name = "file" ∨ name = "shell" then
        some (issue "V8" "unsupported_browser_product_action"
          s!"action '{name}' is outside browser product mode; use api_call for supported server-side HTTP integration"
          nodeId)
      else none
    | none => none

def validateSignedCommands (nodeId : String) (node : Json) (signedCommandRefs : Option (List String)) :
    List ValidationIssue :=
  (whatOf node).filterMap fun action =>
    if textOf action "action" ≠ some "shell" then none
    else match signedCommandRefs with
      | none =>
        some (issue "V8" "shell_cmd_registry_unavailable"
          "shell cmd_ref requires signed command registry at save/promote boundary" nodeId)
      | some refs =>
        let cmdRef := (textOf action "cmd_ref").getD "undefined"
        if cmdRef ∈ refs then none
        else some (issue "V8" "shell_cmd_unregistered" s!"shell cmd_ref '{cmdRef}' is not registered" nodeId)

def maxLoopIterations : Nat := 10000

def validateLoopContract (nodeId : String) (node : Json) : List ValidationIssue :=
  match loopOf node with
  | none => []
  | some loop =>
    (if (textOf loop "body_target").isNone || (textOf loop "exit_target").isNone then
      [issue "V4" "loop_target_invalid" "loop requires body_target and exit_target node ids" nodeId]
    else []) ++
    (match numberOf loop "max_iterations" with
      | some count =>
        if count.den ≠ 1 ∨ count < 1 ∨ (maxLoopIterations : Rat) < count then
          [issue "V4" "loop_max_iterations_unbounded"
            s!"loop.max_iterations must be between 1 and {maxLoopIterations}" nodeId]
        else []
      | none =>
        [issue "V4" "loop_max_iterations_unbounded"
          s!"loop.max_iterations must be between 1 and {maxLoopIterations}" nodeId])

/-! ## Human tasks -/

def businessFormFieldType : List (String × List TypeAtom) :=
  [("text", [.string]), ("textarea", [.string]), ("date", [.string]), ("select", [.string]),
    ("number", [.number]), ("boolean", [.boolean])]

/-- `fields.set(key, type)`: a later field of the same key replaces an earlier one. -/
def setField (key : String) (type : Ty) (fields : List (String × Ty)) : List (String × Ty) :=
  (key, type) :: fields.filter (·.1 ≠ key)

def correctionFieldsOf (input : Json) : List (String × Ty) :=
  match input.field "result_schema" with
  | some (.obj schema) =>
    if textOf (.obj schema) "version" = some "business_form_v1" then
      (arrayOr ((Json.obj schema).field "fields")).foldl
        (fun fields field =>
          match textOf field "key", textOf field "type" with
          | some key, some type =>
            match lookupType businessFormFieldType type with
            | some irelType => setField key irelType fields
            | none => fields
          | _, _ => fields) []
    else []
  | _ => []

/-- The owner of a human task: a node whose `next` calls `@human_task`. -/
def humanTaskMetaOf (node : Json) : Option HumanTaskNodeMeta :=
  match node.field "next" with
  | some (.obj next) =>
    if textOf (.obj next) "handler" = some "@human_task" then
      some ⟨correctionFieldsOf (match (Json.obj next).field "input" with
        | some (.obj input) => .obj input
        | _ => .obj [])⟩
    else none
  | _ => none

def buildHumanTaskNodes (ir : IrScenario) : List (String × HumanTaskNodeMeta) :=
  ir.nodes.filterMap fun entry => (humanTaskMetaOf entry.2).map fun found => (entry.1, found)

/-! ## Expressions -/

/-- What `validateExpressions` hands to the compiler for every expression of a node. -/
structure ExpressionScope where
  nodeId : String
  nodeIds : List String
  graph : List (String × List String)
  paramsSchema : Option Json
  humanTaskNodes : List (String × HumanTaskNodeMeta)

def expressionScope (ir : IrScenario) (nodeId : String) : ExpressionScope :=
  { nodeId, nodeIds := ir.nodeIds, graph := buildGraph ir, paramsSchema := ir.paramsSchema,
    humanTaskNodes := buildHumanTaskNodes ir }

/-- The context of a condition; `until` may read the loop, `advance_when` the tiers before. -/
def ExpressionScope.context (scope : ExpressionScope) (allowLoopScope : Bool := false)
    (additionalPriorNodeIds : Option (List String) := none) : CompileContext :=
  { currentNodeId := scope.nodeId
    nodeIds := scope.nodeIds
    graph := scope.graph
    paramsSchema := scope.paramsSchema
    humanTaskNodes := some scope.humanTaskNodes
    additionalPriorNodeIds
    allowLoopScope
    expectedType := some .boolean }

/-- `compileBooleanExpression`: the tree, or the issues of the diagnostics. -/
def compileBooleanExpression (context : CompileContext) (expression : String) :
    Except Thrown (Option IrelNode × List ValidationIssue) :=
  match compileIrelExpression context expression with
  | .error thrown => .error thrown
  | .ok (.failed diagnostics) =>
    .ok (none, diagnostics.map (expressionIssue · context.currentNodeId))
  | .ok (.ok ast _) => .ok (some ast, [])

def compileOn (scope : ExpressionScope) :
    List Json → Except Thrown (List CompiledOnBranch × List ValidationIssue)
  | [] => .ok ([], [])
  | branch :: rest =>
    match textOf branch "when" with
    | none => compileOn scope rest
    | some expression => do
      let (when_, issues) ← compileBooleanExpression scope.context expression
      let (compiled, more) ← compileOn scope rest
      let entry := match when_, numberOf branch "priority" with
        | some when_, some priority => [⟨when_, branch.field "target", priority⟩]
        | _, _ => []
      pure (entry ++ compiled, issues ++ more)

def compileLoop (scope : ExpressionScope) (loop : Option Json) :
    Except Thrown (Option CompiledLoop × List ValidationIssue) :=
  match loop with
  | none => .ok (none, [])
  | some loop =>
    match textOf loop "until" with
    | none => .ok (none, [])
    | some expression => do
      let (until_, issues) ← compileBooleanExpression (scope.context true) expression
      let entry := match until_, textOf loop "body_target", textOf loop "exit_target",
          numberOf loop "max_iterations" with
        | some until_, some bodyTarget, some exitTarget, some maxIterations =>
          some ⟨until_, bodyTarget, exitTarget, maxIterations⟩
        | _, _, _, _ => none
      pure (entry, issues)

/-- The tiers in order, with the entry nodes of the tiers so far. -/
def compileTiers (scope : ExpressionScope) :
    List String → List Json → Except Thrown (List CompiledFallbackTier × List ValidationIssue)
  | _, [] => .ok ([], [])
  | prior, tier :: rest =>
    let prior := prior ++ (textOf tier "entry_node").toList
    match textOf tier "tier", textOf tier "entry_node" with
    | some name, some entryNode => do
      let (advanceWhen, issues) ← match textOf tier "advance_when" with
        | some expression => compileBooleanExpression (scope.context false (some prior)) expression
        | none => .ok (none, [])
      let (compiled, more) ← compileTiers scope prior rest
      pure (⟨name, entryNode, advanceWhen⟩ :: compiled, issues ++ more)
    | _, _ => compileTiers scope prior rest

def compileWitnesses (scope : ExpressionScope) :
    List Json → Except Thrown (List IrelNode × List ValidationIssue)
  | [] => .ok ([], [])
  | criterion :: rest =>
    match textOf criterion "type", textOf criterion "when" with
    | some "empty_result_allowed", some expression => do
      let (witness, issues) ← compileBooleanExpression scope.context expression
      let (compiled, more) ← compileWitnesses scope rest
      pure (witness.toList ++ compiled, issues ++ more)
    | _, _ => compileWitnesses scope rest

/-- `list.length > 0 ? list : undefined`. -/
def nonEmpty {Entry : Type} (entries : List Entry) : Option (List Entry) :=
  if entries.isEmpty then none else some entries

def validateExpressions (scope : ExpressionScope) (node : Json) :
    Except Thrown (Option CompiledNode × List ValidationIssue) := do
  let (on, onIssues) ← compileOn scope (onBranchesOf node)
  let (loop, loopIssues) ← compileLoop scope (loopOf node)
  let (tiers, tierIssues) ← compileTiers scope [] (fallbackChainOf node)
  let (witnesses, witnessIssues) ← compileWitnesses scope (criteriaOf node)
  let compiled : CompiledNode :=
    { on := nonEmpty on, loop, fallbackChain := nonEmpty tiers, emptyResultAllowed := nonEmpty witnesses }
  let found := compiled.on.isSome || compiled.loop.isSome || compiled.fallbackChain.isSome ||
    compiled.emptyResultAllowed.isSome
  pure (if found then some compiled else none, onIssues ++ loopIssues ++ tierIssues ++ witnessIssues)

/-! ## Decisions -/

def irelDecisionValues : List String := ["approve", "reject", "correct", "retry"]

def isLiteralTrue : IrelNode → Bool
  | .literal .boolean (.bool true) _ => true
  | _ => false

/-- The owner of a variable `node.<id>.decision`. -/
def decisionOwner (humanTaskNodes : List (String × HumanTaskNodeMeta)) (path : List String) :
    Option String :=
  match path with
  | ["node", nodeId, "decision"] => if (humanTaskNodes.lookup nodeId).isSome then some nodeId else none
  | _ => none

def decisionVarNodeId (humanTaskNodes : List (String × HumanTaskNodeMeta)) : IrelNode → Option String
  | .var path _ => decisionOwner humanTaskNodes path
  | _ => none

def stringLiteralValue : IrelNode → Option String
  | .literal .string (.str text) _ => some text
  | _ => none

/-- `node.<id>.decision == "literal"`, either way round. -/
def bareDecisionEquality (humanTaskNodes : List (String × HumanTaskNodeMeta)) (ast : IrelNode) :
    Option (String × String) :=
  match ast with
  | .compare .eq left right _ =>
    match decisionVarNodeId humanTaskNodes left, stringLiteralValue right with
    | some nodeId, some literal => some (nodeId, literal)
    | _, _ =>
      match decisionVarNodeId humanTaskNodes right, stringLiteralValue left with
      | some nodeId, some literal => some (nodeId, literal)
      | _, _ => none
  | _ => none

def decisionRefsIn (humanTaskNodes : List (String × HumanTaskNodeMeta)) (ast : IrelNode) : List String :=
  ast.paths.filterMap (decisionOwner humanTaskNodes)

def validateDecisionBranchCompleteness (nodeId : String) (compiled : CompiledNode)
    (humanTaskNodes : List (String × HumanTaskNodeMeta)) : List ValidationIssue :=
  let branches := compiled.on.getD []
  let conditions := (branches.map CompiledOnBranch.when_).filter fun when_ => !isLiteralTrue when_
  let covered := conditions.filterMap (bareDecisionEquality humanTaskNodes)
  let impure := (conditions.filter fun when_ => (bareDecisionEquality humanTaskNodes when_).isNone).flatMap
    (decisionRefsIn humanTaskNodes)
  let referenced := (conditions.flatMap fun when_ =>
    match bareDecisionEquality humanTaskNodes when_ with
    | some equality => [equality.1]
    | none => decisionRefsIn humanTaskNodes when_).eraseDups
  if branches.any fun branch => isLiteralTrue branch.when_ then []
  else referenced.filterMap fun owner =>
    if owner ∈ impure then none
    else
      let missing := irelDecisionValues.filter fun value => (owner, value) ∉ covered
      if missing = [] then none
      else some (issue "V13" "decision_branch_incomplete"
        (s!"on[] branches on node.{owner}.decision do not cover decision value(s) [" ++ Text.join ", " missing ++
          "] and no catch-all branch exists; resume on an uncovered human decision would raise IR_NO_BRANCH_MATCHED and stick the run")
        nodeId)

/-! ## Reachability and cycles -/

def reachableFrom (start : String) (graph : List (String × List String)) : List String :=
  search (edgesFrom graph) (searchFuel (edgesFrom graph) (graph.map Prod.fst) [start]) [start] []

def hasReachableTerminal (ir : IrScenario) (reachable : List String) : Bool :=
  reachable.any fun nodeId =>
    match ir.node nodeId with
    | none => false
    | some node =>
      (node.field "terminal").isSome || (targetRefsOf node).any fun ref => ref.kind = .endNoData

def validateLoopExitReachability (ir : IrScenario) (graph : List (String × List String))
    (reachable : List String) : List ValidationIssue :=
  ir.nodes.filterMap fun entry =>
    match (loopOf entry.2).bind (textOf · "exit_target") with
    | none => none
    | some exitTarget =>
      if entry.1 ∈ reachable ∧ exitTarget ∈ ir.nodeIds ∧ exitTarget ∉ reachableFrom entry.1 graph then
        some (issue "V4" "loop_exit_unreachable"
          s!"loop.exit_target '{exitTarget}' is not reachable from loop node '{entry.1}'" entry.1)
      else none

/-- The edges to nodes that exist. -/
def knownEdges (graph : List (String × List String)) (nodeId : String) : List String :=
  (edgesFrom graph nodeId).filter fun target => (graph.lookup target).isSome

/-- The first node of every cyclic component without a loop node. -/
def findIllegalCycles (ir : IrScenario) (graph : List (String × List String)) : List String :=
  (componentsOf (knownEdges graph) (graph.map Prod.fst)).filterMap fun component =>
    let cyclic := 1 < component.length || component.any fun nodeId => nodeId ∈ edgesFrom graph nodeId
    if cyclic && !component.any fun nodeId => isLoopNode (ir.node nodeId) then component.head? else none

/-! ## The whole check -/

/-- `compiledNodes[nodeId] = compiledNode`: the key `__proto__` names the prototype
of the object and adds no entry to it. -/
def assignCompiled (nodeId : String) (compiled : CompiledNode) (nodes : List (String × CompiledNode)) :
    List (String × CompiledNode) :=
  if nodeId = "__proto__" then nodes else nodes ++ [(nodeId, compiled)]

/-- What the checks of one node report, with its compiled trees. -/
structure NodeChecks where
  errors : List ValidationIssue
  warnings : List ValidationIssue
  compiled : Option CompiledNode

def checkNode (ir : IrScenario) (signedCommandRefs : Option (List String)) (nodeId : String) (node : Json) :
    Except Thrown NodeChecks := do
  let (compiled, expressionErrors) ← validateExpressions (expressionScope ir nodeId) node
  pure
    { errors := validateTargets nodeId node ir.nodeIds ++ validateOnBranchReservedHandler nodeId node ++
        validateOnPriorities nodeId node ++ validateFallbackChain nodeId node ++
        validateFallbackIdempotency nodeId node ir ++ validateValuePaths nodeId node ++
        expressionErrors ++ validateBrowserProductActions nodeId node ++
        validateSignedCommands nodeId node signedCommandRefs ++ validateLoopContract nodeId node
      warnings := validateEndNoDataWitness nodeId node ++
        (match compiled with
          | some compiled => validateDecisionBranchCompleteness nodeId compiled (buildHumanTaskNodes ir)
          | none => [])
      compiled }

/-- The loop over the nodes, with the errors, the warnings and the compiled nodes. -/
def checkNodes (ir : IrScenario) (signedCommandRefs : Option (List String)) :
    List (String × Json) → ValidationReport → List (String × CompiledNode) →
      Except Thrown (ValidationReport × List (String × CompiledNode))
  | [], report, compiledNodes => .ok (report, compiledNodes)
  | (nodeId, node) :: rest, report, compiledNodes => do
    let checks ← checkNode ir signedCommandRefs nodeId node
    checkNodes ir signedCommandRefs rest
      { errors := report.errors ++ checks.errors, warnings := report.warnings ++ checks.warnings }
      (match checks.compiled with
        | some compiled => assignCompiled nodeId compiled compiledNodes
        | none => compiledNodes)

def compileScenarioStatic (ir : IrScenario) (signedCommandRefs : Option (List String) := none) :
    Except Thrown StaticResult := do
  let graph := buildGraph ir
  let startErrors :=
    if ir.start ∈ ir.nodeIds then []
    else [issue "V2" "start_not_found" s!"start node '{ir.start}' does not exist"]
  let schemaErrors := ((validateParamsSchemaForIrel ir.paramsSchema).map (expressionIssue ·)).toList
  let (nodesReport, compiledNodes) ← checkNodes ir signedCommandRefs ir.nodes
    { errors := startErrors ++ schemaErrors, warnings := [] } []
  let reachable := reachableFrom ir.start graph
  let terminalErrors :=
    if ir.start ∈ ir.nodeIds ∧ !hasReachableTerminal ir reachable then
      [issue "V3" "no_reachable_terminal" "no terminal or @end_no_data is reachable from start"]
    else []
  let unreachable := (ir.nodeIds.filter (· ∉ reachable)).map fun (nodeId : String) =>
    issue "V5" "unreachable_node" s!"node '{nodeId}' is not reachable from start" nodeId
  let cycleErrors := (findIllegalCycles ir graph).map fun (nodeId : String) =>
    issue "V4" "illegal_cycle" s!"cycle reaches '{nodeId}' without a loop node" nodeId
  let report : ValidationReport :=
    { errors := nodesReport.errors ++ validateLoopExitReachability ir graph reachable ++ terminalErrors ++
        cycleErrors
      warnings := nodesReport.warnings ++ unreachable }
  pure
    { report
      compiledAst :=
        if report.errors = [] then
          some { irVersion := ir.irVersion.getD "1.x", scenarioVersion := ir.version, nodes := compiledNodes }
        else none }

end RpaEnterprise.Ir
