import RpaEnterprise.Irel.Parser
import RpaEnterprise.Lib.Search
import RpaEnterprise.Lib.Text

/-!
# Type checking of expressions

`compileIrelExpression` parses a text and checks the tree against the names a
scenario declares.  A type is a set of atoms.  A failed check pushes diagnostics
on a list of its own; the result only says that it failed.

Types and names are looked up in objects of the host language.  A lookup of a
name that an object does not own can still find a member it inherits, which is
not a set of atoms; using it as one throws.
-/

namespace RpaEnterprise.Irel

open Lib

/-! ## Types -/

/-- The members every object inherits, with the `length` of those that have one. -/
def objectPrototype : List (String × Option Nat) :=
  [("constructor", some 1), ("__proto__", none), ("hasOwnProperty", some 1),
    ("isPrototypeOf", some 1), ("propertyIsEnumerable", some 1), ("toLocaleString", some 0),
    ("toString", some 0), ("valueOf", some 0), ("__defineGetter__", some 2),
    ("__defineSetter__", some 2), ("__lookupGetter__", some 1), ("__lookupSetter__", some 1)]

/-- What a lookup in a table of types gives: a set of atoms, or an inherited member. -/
inductive Ty where
  | atoms (list : List TypeAtom)
  | inherited (length : Option Nat)
deriving Repr, DecidableEq

/-- `table[key]`, where the table owns the given entries. -/
def lookupType (table : List (String × List TypeAtom)) (key : String) : Option Ty :=
  match table.lookup key with
  | some list => some (.atoms list)
  | none => (objectPrototype.lookup key).map Ty.inherited

/-- `TypeError`s of the host language. -/
inductive TypeError where
  | notIterable
  | noMethod (name : String)
deriving Repr, DecidableEq

def uniqueTypes (atoms : List TypeAtom) : List TypeAtom :=
  [TypeAtom.int, .number, .string, .boolean, .null].filter (· ∈ atoms)

def numericAtom (atom : TypeAtom) : Bool := atom = .int || atom = .number

def numericAtoms (list : List TypeAtom) : Bool := !list.isEmpty && list.all numericAtom

def isNumeric : Ty → Except TypeError Bool
  | .atoms list => .ok (numericAtoms list)
  | .inherited (some (_ + 1)) => .error (.noMethod "every")
  | .inherited _ => .ok false

def isExactly : Ty → TypeAtom → Bool
  | .atoms list, atom => list = [atom]
  | .inherited _, _ => false

def formatAtoms (list : List TypeAtom) : String :=
  if list = [] then "<invalid>" else Text.join "|" (list.map TypeAtom.text)

def formatType : Ty → Except TypeError String
  | .atoms list => .ok (formatAtoms list)
  | .inherited (some 0) => .ok "<invalid>"
  | .inherited _ => .error (.noMethod "join")

/-- `left.some((atom) => atom !== "null" && right.includes(atom))`. -/
def sharesAtom : Ty → Ty → Except TypeError Bool
  | .atoms left, .atoms right => .ok (left.any fun atom => atom != .null && right.contains atom)
  | .atoms left, .inherited _ =>
    if left.any (· != .null) then .error (.noMethod "includes") else .ok false
  | .inherited _, _ => .error (.noMethod "some")

def canCompareEquality (left right : Ty) : Except TypeError Bool := do
  if isExactly left .null || isExactly right .null then return true
  if ← isNumeric left then
    if ← isNumeric right then return true
  sharesAtom left right

def isAssignable (actual expected : List TypeAtom) : Bool :=
  if expected = [] ∨ actual = [] then false
  else if expected.all numericAtom && numericAtoms actual then true
  else actual.all expected.contains

/-! ## Contexts -/

/-- `HumanTaskNodeMeta`: the correction keys of the form with their types. -/
structure HumanTaskNodeMeta where
  correctionFields : List (String × Ty)
deriving Repr, DecidableEq

/-- `IRELCompileContext`. -/
structure CompileContext where
  currentNodeId : String
  nodeIds : List String
  graph : List (String × List String)
  paramsSchema : Option Json := none
  additionalPriorNodeIds : Option (List String) := none
  allowLoopScope : Bool := false
  expectedType : Option TypeAtom := none
  humanTaskNodes : Option (List (String × HumanTaskNodeMeta)) := none

/-! ## Checks and their diagnostics -/

/-- The result of a check with the diagnostics it pushed. -/
structure Checked where
  type : Option Ty
  diagnostics : List Diagnostic := []

def okType (type : Ty) : Checked := { type := some type }

def failType : Checked := { type := none }

/-- `diagnostics.push(diagnostic(code, reason, detail)); return failType();`. -/
def refuse (code : CompileErrorCode) (reason : DiagnosticReason) (detail : String) : Checked :=
  { type := none, diagnostics := [{ code, reason, detail }] }

def typeMismatch (detail : String) : Checked := refuse .typeError .irelTypeError detail

/-! ## Parameters -/

def schemaCanBeObject (schema : Json) : Bool :=
  match schema.field "type" with
  | none => true
  | some (.str text) => text = "object"
  | some _ => false

def literalType : Json → Option TypeAtom
  | .null => some .null
  | .str _ => some .string
  | .bool _ => some .boolean
  | .num value => some (if value.den = 1 then .int else .number)
  | .arr _ | .obj _ => none

def schemaTypeAtom : String → Option (List TypeAtom)
  | "integer" => some [.int]
  | "number" => some [.number]
  | "string" => some [.string]
  | "boolean" => some [.boolean]
  | "null" => some [.null]
  | _ => none

/-- The union of the types a list gives, unless one of its entries gives none. -/
def unionTypes (entries : List Json) (typeOf : Json → Option (List TypeAtom)) :
    Option (List TypeAtom) :=
  (entries.mapM typeOf).map fun types => uniqueTypes types.flatten

/-- `inferPrimitiveSchemaType`; an empty `enum` or `type` list is a type without atoms. -/
def inferPrimitiveSchemaType (schema : Json) : Option (List TypeAtom) :=
  match (schema.field "const").bind literalType with
  | some atom => some [atom]
  | none =>
    match schema.field "enum" with
    | some (.arr entries) => unionTypes entries fun entry => (literalType entry).map ([·])
    | _ =>
      match schema.field "type" with
      | some (.str text) => schemaTypeAtom text
      | some (.arr entries) => unionTypes entries fun entry => entry.text?.bind schemaTypeAtom
      | _ => none

/-- `properties[part]` as a record; `__proto__` finds the object every object inherits from. -/
def schemaChild (schema : Json) (part : String) : Option Json :=
  let properties := ((schema.field "properties").bind Json.record?).getD []
  match Json.lookup part properties with
  | some (.obj fields) => some (.obj fields)
  | some _ => none
  | none => if part = "__proto__" then some (.obj []) else none

/-- The path of a parameter through the schema, from the part after `done` on. -/
def resolveParamPath (done : List String) (schema : Json) : List String → Checked
  | [] => refuse .unknownVariable .unknownVariable "empty params path"
  | part :: rest =>
    let label := "params." ++ Text.join "." (done ++ [part])
    match schemaChild schema part with
    | none =>
      refuse .unknownVariable .unknownVariable s!"{label} is not declared in params_schema"
    | some child =>
      match rest with
      | [] =>
        match inferPrimitiveSchemaType child with
        | none =>
          refuse .typeError .paramsSchemaTypeInvalid
            s!"{label} must have a deterministic scalar JSON Schema type"
        | some inferred => okType (.atoms inferred)
      | next :: rest =>
        if schemaCanBeObject child then resolveParamPath (done ++ [part]) child (next :: rest)
        else
          refuse .typeError .paramsSchemaTypeInvalid
            s!"{label} must be an object schema for nested params access"

def resolveParamVariable (path : List String) (paramsSchema : Option Json) : Checked :=
  match path, paramsSchema with
  | [], _ => refuse .unknownVariable .unknownVariable "params namespace requires a property path"
  | path, none =>
    refuse .unknownVariable .unknownVariable
      ("params." ++ Text.join "." path ++ " is not declared because params_schema is absent")
  | path, some schema =>
    if schemaCanBeObject schema then resolveParamPath [] schema path
    else
      refuse .typeError .paramsSchemaTypeInvalid
        "params_schema must be an object schema for params.* references"

/-! ## Nodes -/

/-- An edge of the graph of a scenario. -/
def GraphEdge (graph : List (String × List String)) (source target : String) : Prop :=
  ∃ targets, (source, targets) ∈ graph ∧ target ∈ targets

/-- `reverse.get(nodeId)`: the nodes with an edge to a node, once for each edge. -/
def incoming (graph : List (String × List String)) (nodeId : String) : List String :=
  graph.flatMap fun entry => (entry.2.filter (· = nodeId)).map fun _ => entry.1

/-- The nodes that have incoming edges. -/
def edgeTargets (graph : List (String × List String)) : List String := graph.flatMap Prod.snd

def isAncestor (candidate current : String) (graph : List (String × List String)) : Bool :=
  let stack := (incoming graph current).reverse
  finds (incoming graph) candidate (searchFuel (incoming graph) (edgeTargets graph) stack) stack []

def allowedNodeFields : List String :=
  ["row_count", "status", "extracted_ref", "tier", "http_status", "http_ok"]

def standardFieldType (field : String) : List TypeAtom :=
  if field = "row_count" ∨ field = "http_status" then [.int]
  else if field = "http_ok" then [.boolean]
  else [.string]

def unknownNodeField (detail : String) : Checked :=
  refuse .unknownVariable .unknownNodeField detail

def CompileContext.humanTaskMeta (context : CompileContext) (nodeId : String) :
    Option HumanTaskNodeMeta :=
  (context.humanTaskNodes.getD []).lookup nodeId

/-- `resolveNodeFieldType` of `node.<nodeId>.<field>` with the given rest. -/
def resolveNodeFieldType (nodeId field : String) (rest path : List String)
    (context : CompileContext) : Checked :=
  let text := Text.join "." path
  if field ∈ allowedNodeFields then
    if rest ≠ [] then
      unknownNodeField s!"node output field '{field}' takes no sub-path, got '{text}'"
    else okType (.atoms (standardFieldType field))
  else if field = "decision" then
    match context.humanTaskMeta nodeId with
    | none =>
      unknownNodeField s!"node.{nodeId}.decision is only available on an @human_task owning node"
    | some _ =>
      if rest ≠ [] then
        unknownNodeField s!"node.<id>.decision takes no sub-path, got '{text}'"
      else okType (.atoms [.string])
  else if field = "correction" then
    match context.humanTaskMeta nodeId with
    | none =>
      unknownNodeField
        s!"node.{nodeId}.correction is only available on an @human_task owning node"
    | some humanTaskMeta =>
      match rest with
      | [key] =>
        match humanTaskMeta.correctionFields.lookup key with
        | none =>
          unknownNodeField
            s!"unknown business_form_v1 correction field '{key}' on node.{nodeId}"
        | some type => okType type
      | _ =>
        unknownNodeField
          s!"node.<id>.correction requires a single business_form_v1 field key, got '{text}'"
  else unknownNodeField s!"unknown node output field '{field}'"

/-- Whether a node may be referred to: a tier that ran before, or an ancestor. -/
def CompileContext.isPrior (context : CompileContext) (nodeId : String) : Bool :=
  (context.additionalPriorNodeIds.getD []).contains nodeId ||
    (nodeId ≠ context.currentNodeId && isAncestor nodeId context.currentNodeId context.graph)

def resolveNodeVariable (path : List String) (context : CompileContext) : Checked :=
  match path with
  | _ :: nodeId :: field :: rest =>
    let checked := resolveNodeFieldType nodeId field rest path context
    match checked.type with
    | none => checked
    | some type =>
      if nodeId ∉ context.nodeIds then
        refuse .unknownVariable .unknownVariable s!"unknown node reference '{nodeId}'"
      else if context.isPrior nodeId then okType type
      else
        refuse .forwardRef .forwardRef
          s!"node '{nodeId}' is not a prior dependency of '{context.currentNodeId}'"
  | path =>
    refuse .unknownVariable .unknownVariable
      ("node references must be node.<id>.<field>, got '" ++ Text.join "." path ++ "'")

/-! ## Variables -/

def allowedFlags : List String :=
  ["flags.no_next_page", "flags.cursor_reached", "flags.login_required", "flags.blocked",
    "flags.not_found", "flags.no_review_message_visible", "flags.reviews_visible"]

def cursorFields : List (String × List TypeAtom) := [("last_review_id", [.string, .null])]

def resolveFlag (path : List String) : Checked :=
  let full := Text.join "." path
  if path.length ≠ 2 ∨ full ∉ allowedFlags then
    refuse .unknownVariable .unknownFlag s!"unknown flag '{full}'"
  else okType (.atoms [.boolean])

def resolveLoop (path : List String) (context : CompileContext) : Checked :=
  if !context.allowLoopScope then
    refuse .scopeViolation .loopScopeViolation
      s!"loop scope is not available at node '{context.currentNodeId}'"
  else if path.tail = ["iteration"] ∨ path.tail = ["page_count"] then okType (.atoms [.int])
  else refuse .unknownVariable .unknownVariable ("unknown loop variable '" ++ Text.join "." path ++ "'")

def resolveCursor (path : List String) : Checked :=
  match path with
  | [_, field] =>
    match lookupType cursorFields field with
    | some type => okType type
    | none =>
      refuse .unknownVariable .unknownVariable ("unknown cursor variable '" ++ Text.join "." path ++ "'")
  | path => refuse .unknownVariable .unknownVariable ("unknown cursor variable '" ++ Text.join "." path ++ "'")

def resolveVariable (path : List String) (context : CompileContext) : Checked :=
  match path with
  | [] => refuse .unknownVariable .unknownVariable "empty variable path"
  | "flags" :: _ => resolveFlag path
  | "loop" :: _ => resolveLoop path context
  | "cursor" :: _ => resolveCursor path
  | "node" :: _ => resolveNodeVariable path context
  | "params" :: rest => resolveParamVariable rest context.paramsSchema
  | root :: _ => refuse .unknownVariable .unknownVariable s!"unknown variable namespace '{root}'"

/-! ## Calls -/

def wrongArity (name : String) (expected got : Nat) : Checked :=
  typeMismatch s!"{name} expects {expected} arguments, got {got}"

/-- The first argument that does not fit, counted from `index`. -/
def firstMisfit (name : String) : Nat → List (List TypeAtom) → List (List TypeAtom) → Option String
  | index, actual :: actuals, expected :: rest =>
    if isAssignable actual expected then firstMisfit name (index + 1) actuals rest
    else some
      s!"{name} argument {index} expects {formatAtoms expected}, got {formatAtoms actual}"
  | _, _, _ => none

def expectArgs (name : String) (actual expected : List (List TypeAtom)) (returnType : TypeAtom) :
    Checked :=
  if actual.length ≠ expected.length then wrongArity name expected.length actual.length
  else match firstMisfit name 1 actual expected with
    | some detail => typeMismatch detail
    | none => okType (.atoms [returnType])

def typeCheckCoalesce (argTypes : List (List TypeAtom)) : Checked :=
  match argTypes with
  | [first, second] =>
    if .null ∉ first then
      typeMismatch s!"coalesce first argument must include null, got {formatAtoms first}"
    else
      let firstWithoutNull := first.filter (· ≠ .null)
      if firstWithoutNull ≠ [] ∧ !isAssignable second firstWithoutNull then
        typeMismatch
          s!"coalesce fallback must match {formatAtoms firstWithoutNull}, got {formatAtoms second}"
      else okType (.atoms (if firstWithoutNull ≠ [] then firstWithoutNull else second))
  | argTypes => wrongArity "coalesce" 2 argTypes.length

/-- `typeCheckCall`, after its arguments are checked. -/
def typeCheckCall (name : String) (argTypes : List (List TypeAtom)) : Checked :=
  if argTypes.any List.isEmpty then failType
  else match name with
    | "len" => expectArgs name argTypes [[.string]] .int
    | "is_null" =>
      if argTypes.length ≠ 1 then wrongArity name 1 argTypes.length else okType (.atoms [.boolean])
    | "coalesce" => typeCheckCoalesce argTypes
    | "date_before" | "date_after" | "starts_with" | "contains" =>
      expectArgs name argTypes [[.string], [.string]] .boolean
    | name => refuse .unknownFunction .unknownFunction s!"unknown function '{name}'"

/-! ## Operators -/

/-- The diagnostic of an operator that refuses its operands. -/
def refuseOperands (requires : String) (left right : Ty) : Except TypeError Checked := do
  let left ← formatType left
  let right ← formatType right
  pure (typeMismatch s!"{requires}, got {left} and {right}")

def typeCheckUnary (inner : Ty) : Except TypeError Checked := do
  if isExactly inner .boolean then return okType (.atoms [.boolean])
  let got ← formatType inner
  pure (typeMismatch s!"! requires boolean, got {got}")

/-- `type.includes(atom)`. -/
def includesAtom : Ty → TypeAtom → Bool
  | .atoms list, atom => list.contains atom
  | .inherited _, _ => false

/-- `!isNumeric(left) || !isNumeric(right)` as a check that refuses. -/
def requireNumeric (requires : String) (left right : Ty) (accepted : Ty) :
    Except TypeError Checked := do
  if ← isNumeric left then
    if ← isNumeric right then return okType accepted
  refuseOperands requires left right

def typeCheckBinary (op : AdditiveOp) (left right : Ty) : Except TypeError Checked :=
  requireNumeric s!"{op.text} requires numeric operands" left right
    (.atoms [if includesAtom left .number || includesAtom right .number then .number else .int])

def typeCheckCompare (op : CompareOp) (left right : Ty) : Except TypeError Checked :=
  if op = .eq ∨ op = .ne then do
    if ← canCompareEquality left right then return okType (.atoms [.boolean])
    refuseOperands s!"{op.text} requires compatible operands" left right
  else
    requireNumeric s!"{op.text} requires numeric operands" left right (.atoms [.boolean])

def typeCheckLogical (op : LogicalOp) (left right : Ty) : Except TypeError Checked :=
  if isExactly left .boolean && isExactly right .boolean then .ok (okType (.atoms [.boolean]))
  else refuseOperands s!"{op.text} requires boolean operands" left right

/-- An operator checks its operands from left to right and then itself. -/
def checkOperands (left right : Except TypeError Checked)
    (check : Ty → Ty → Except TypeError Checked) : Except TypeError Checked := do
  let left ← left
  let right ← right
  let pushed := left.diagnostics ++ right.diagnostics
  match left.type, right.type with
  | some leftType, some rightType => do
    let checked ← check leftType rightType
    pure { checked with diagnostics := pushed ++ checked.diagnostics }
  | _, _ => pure { failType with diagnostics := pushed }

/-- `[...result.type]`; a failed argument has no atoms. -/
def spreadAtoms : Option Ty → Except TypeError (List TypeAtom)
  | none => .ok []
  | some (.atoms list) => .ok list
  | some (.inherited _) => .error .notIterable

/-! ## The checker -/

section Check

variable (context : CompileContext)

mutual

def typeCheck : IrelNode → Except TypeError Checked
  | .literal valueType _ _ => .ok (okType (.atoms [valueType]))
  | .var path _ => .ok (resolveVariable path context)
  | .call name args _ => do
    let (argTypes, pushed) ← typeCheckArgs args
    let checked := typeCheckCall name argTypes
    pure { checked with diagnostics := pushed ++ checked.diagnostics }
  | .unary expr _ => do
    let inner ← typeCheck expr
    match inner.type with
    | none => pure inner
    | some type => do
      let checked ← typeCheckUnary type
      pure { checked with diagnostics := inner.diagnostics ++ checked.diagnostics }
  | .binary op left right _ => checkOperands (typeCheck left) (typeCheck right) (typeCheckBinary op)
  | .compare op left right _ => checkOperands (typeCheck left) (typeCheck right) (typeCheckCompare op)
  | .logical op left right _ => checkOperands (typeCheck left) (typeCheck right) (typeCheckLogical op)

/-- The atoms of each argument of a call, with the diagnostics they pushed. -/
def typeCheckArgs : List IrelNode → Except TypeError (List (List TypeAtom) × List Diagnostic)
  | [] => .ok ([], [])
  | arg :: args => do
    let checked ← typeCheck arg
    let atoms ← spreadAtoms checked.type
    let (rest, pushed) ← typeCheckArgs args
    pure (atoms :: rest, checked.diagnostics ++ pushed)

end

/-- `typeCheckIrelExpression`: the type, or the diagnostics. -/
def typeCheckIrelExpression (ast : IrelNode) : Except TypeError (Except (List Diagnostic) Ty) := do
  let checked ← typeCheck context ast
  match checked.type, context.expectedType with
  | none, _ => pure (.error checked.diagnostics)
  | some type, none => pure (if checked.diagnostics = [] then .ok type else .error checked.diagnostics)
  | some type, some expected =>
    if isExactly type expected then
      pure (if checked.diagnostics = [] then .ok type else .error checked.diagnostics)
    else do
      let got ← formatType type
      pure (.error (checked.diagnostics ++
        [{ code := .typeError, reason := .irelTypeError,
           detail := s!"expression must return {expected.text}, got {got}" }]))

/-- What stops a compilation that returns nothing. -/
inductive Thrown where
  | typeError (error : TypeError)
  | outOfFuel
deriving Repr, DecidableEq

/-- `IRELCompileResult`. -/
inductive CompileResult where
  | ok (ast : IrelNode) (type : Ty)
  | failed (diagnostics : List Diagnostic)

def compileIrelExpression (expression : String) : Except Thrown CompileResult :=
  match parseIrelExpression expression with
  | .error none => .error .outOfFuel
  | .error (some diagnostic) => .ok (.failed [diagnostic])
  | .ok ast =>
    match typeCheckIrelExpression context ast with
    | .error error => .error (.typeError error)
    | .ok (.error diagnostics) => .ok (.failed diagnostics)
    | .ok (.ok type) => .ok (.ok ast type)

end Check

/-- `validateParamsSchemaForIrel`. -/
def validateParamsSchemaForIrel (paramsSchema : Option Json) : Option Diagnostic :=
  match paramsSchema with
  | none => none
  | some schema =>
    if schemaCanBeObject schema then none
    else some
      { code := .typeError, reason := .paramsSchemaTypeInvalid,
        detail := "params_schema must be an object schema for deterministic params.* type inference" }

end RpaEnterprise.Irel
