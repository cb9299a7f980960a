import RpaEnterprise.Irel.Syntax
import RpaEnterprise.Lib.Text

/-!
# Evaluation of expressions

`evaluateIrelExpression` is a pure function of a syntax tree and a scope of five
namespaces.  Nothing is coerced and nothing missing is read as false: whatever
does not fit is an `IREL_RUNTIME_MISSING` error.  `Date.parse` belongs to the
engine and is a parameter.
-/

namespace RpaEnterprise.Irel

open Lib

/-- `IRELScope`. -/
structure IrelScope where
  params : Option Json := none
  node : Option Json := none
  cursor : Option Json := none
  flags : Option Json := none
  loop : Option Json := none

/-- What `IRELRuntimeMissingError` is thrown for. -/
inductive RuntimeMissing where
  | operand (detail : String) (wanted : TypeAtom) (got : TypeAtom)
  | arity (name : String) (expected got : Nat)
  | unknownFunction (name : String)
  | unknownNamespace (root : Option String)
  | invalidNodePath (path : List String)
  | noPropertyPath (label : String)
  | missing (label : String)
  | notScalar (label : String)
  | dateOffset (detail value : String)
  | dateFormat (detail : String)
deriving Repr, DecidableEq

abbrev Evaluated := Except RuntimeMissing

/-! ## Values -/

def runtimeTypeOf : IrelValue → TypeAtom
  | .null => .null
  | .num value => if value.den = 1 then .int else .number
  | .str _ => .string
  | .bool _ => .boolean

def expectRuntimeBoolean (value : IrelValue) (detail : String) : Evaluated Bool :=
  match value with
  | .bool value => .ok value
  | other => .error (.operand detail .boolean (runtimeTypeOf other))

def expectRuntimeNumber (value : IrelValue) (detail : String) : Evaluated Rat :=
  match value with
  | .num value => .ok value
  | other => .error (.operand detail .number (runtimeTypeOf other))

def expectRuntimeString (value : IrelValue) (detail : String) : Evaluated String :=
  match value with
  | .str text => .ok text
  | other => .error (.operand detail .string (runtimeTypeOf other))

/-! ## Variables -/

def toRuntimeValue (value : Json) (label : String) : Evaluated IrelValue :=
  match value with
  | .null => .ok .null
  | .str text => .ok (.str text)
  | .bool value => .ok (.bool value)
  | .num value => .ok (.num value)
  | .arr _ | .obj _ => .error (.notScalar label)

/-- The own property of a record, part after part. -/
def ownPath : Option Json → List String → Option Json
  | current, [] => current
  | current, part :: rest =>
    match current with
    | some (.obj fields) =>
      match Json.lookup part fields with
      | some value => ownPath (some value) rest
      | none => none
    | _ => none

def readRuntimePath (root : Option Json) (path : List String) (label : String) : Evaluated Json :=
  match path with
  | [] => .error (.noPropertyPath label)
  | part :: rest =>
    match ownPath root (part :: rest) with
    | some value => .ok value
    | none => .error (.missing label)

def readScalar (root : Option Json) (path : List String) (label : String) : Evaluated IrelValue := do
  let value ← readRuntimePath root path label
  toRuntimeValue value label

/-- `node.<id>.<field>`, or `node.<id>.correction.<key>`. -/
def resolveNodePath (path : List String) (scope : IrelScope) : Evaluated IrelValue :=
  match path.drop 1 with
  | nodeId :: fieldPath =>
    if (path.length = 3 ∨ path.length = 4) ∧ fieldPath ≠ [] then do
      let nodeOutput ← readRuntimePath scope.node [nodeId] s!"node.{nodeId}"
      match nodeOutput with
      | .obj fields => readScalar (some (.obj fields)) fieldPath (Text.join "." path)
      | _ => .error (.missing s!"node.{nodeId}")
    else .error (.invalidNodePath path)
  | [] => .error (.invalidNodePath path)

def resolveRuntimeVariable (path : List String) (scope : IrelScope) : Evaluated IrelValue :=
  match path.head? with
  | some "params" => readScalar scope.params (path.drop 1) (Text.join "." path)
  | some "node" => resolveNodePath path scope
  | some "cursor" => readScalar scope.cursor (path.drop 1) (Text.join "." path)
  | some "flags" => readScalar scope.flags (path.drop 1) (Text.join "." path)
  | some "loop" => readScalar scope.loop (path.drop 1) (Text.join "." path)
  | other => .error (.unknownNamespace other)

/-! ## Operators -/

def evaluateAdditive (op : AdditiveOp) (left right : Evaluated IrelValue) : Evaluated IrelValue := do
  let left ← expectRuntimeNumber (← left) s!"{op.text} left operand"
  let right ← expectRuntimeNumber (← right) s!"{op.text} right operand"
  match op with
  | .plus => pure (.num (left + right))
  | .minus => pure (.num (left - right))

/-- An order comparison, with its operands read from left to right. -/
def evaluateOrder (op : CompareOp) (test : Rat → Rat → Bool) (left right : IrelValue) :
    Evaluated IrelValue := do
  let left ← expectRuntimeNumber left s!"{op.text} left operand"
  let right ← expectRuntimeNumber right s!"{op.text} right operand"
  pure (.bool (test left right))

def evaluateCompare (op : CompareOp) (left right : Evaluated IrelValue) : Evaluated IrelValue := do
  let left ← left
  let right ← right
  match op with
  | .eq => pure (.bool (left = right))
  | .ne => pure (.bool (left ≠ right))
  | .gt => evaluateOrder .gt (fun one two => two < one) left right
  | .ge => evaluateOrder .ge (fun one two => two ≤ one) left right
  | .lt => evaluateOrder .lt (fun one two => one < two) left right
  | .le => evaluateOrder .le (fun one two => one ≤ two) left right

/-- Both operands are evaluated; the connectives do not short-circuit. -/
def evaluateLogical (op : LogicalOp) (left right : Evaluated IrelValue) : Evaluated IrelValue := do
  let left ← expectRuntimeBoolean (← left) s!"{op.text} left operand"
  let right ← expectRuntimeBoolean (← right) s!"{op.text} right operand"
  match op with
  | .or => pure (.bool (left || right))
  | .and => pure (.bool (left && right))

/-! ## Calls -/

/-- `/[tT]/.test(value)`. -/
def mentionsTime (text : String) : Bool := text.toList.any fun char => char = 't' || char = 'T'

/-- `[+-]\d{2}:?\d{2}` at the end, on the characters from the last to the first. -/
def endsInHours : List Char → Bool
  | four :: three :: ':' :: two :: one :: sign :: _
  | four :: three :: two :: one :: sign :: _ =>
    [one, two, three, four].all Char.isDigit && (sign = '+' || sign = '-')
  | _ => false

/-- `/(?:[zZ]|[+-]\d{2}:?\d{2})$/.test(value)`. -/
def hasOffset (text : String) : Bool :=
  let reversed := text.toList.reverse
  reversed.head? = some 'z' || reversed.head? = some 'Z' || endsInHours reversed

def startsWith (text start : String) : Bool := start.toList.isPrefixOf text.toList

def includes (text needle : String) : Bool := text.toList.tails.any needle.toList.isPrefixOf

section Call

variable (parseDate : String → Option Rat)

/-- `runtimeDateMillis`: a time of day needs an offset. -/
def runtimeDateMillis (argument : Evaluated IrelValue) (detail : String) : Evaluated Rat := do
  let value ← expectRuntimeString (← argument) detail
  if mentionsTime value && !hasOffset value then .error (.dateOffset detail value)
  else match parseDate value with
    | some millis => pure millis
    | none => .error (.dateFormat detail)

/-- A comparison of two dates, read from left to right. -/
def evaluateDates (name : String) (test : Rat → Rat → Bool) (first second : Evaluated IrelValue) :
    Evaluated IrelValue := do
  let first ← runtimeDateMillis parseDate first s!"{name} argument 1"
  let second ← runtimeDateMillis parseDate second s!"{name} argument 2"
  pure (.bool (test first second))

/-- A test of two strings, read from left to right. -/
def evaluateStrings (name : String) (test : String → String → Bool)
    (first second : Evaluated IrelValue) : Evaluated IrelValue := do
  let first ← expectRuntimeString (← first) s!"{name} argument 1"
  let second ← expectRuntimeString (← second) s!"{name} argument 2"
  pure (.bool (test first second))

/-- A function of one argument, after `requireRuntimeArity`. -/
def unaryCall (name : String) (body : Evaluated IrelValue → Evaluated IrelValue) :
    List (Evaluated IrelValue) → Evaluated IrelValue
  | [argument] => body argument
  | args => .error (.arity name 1 args.length)

/-- A function of two arguments, after `requireRuntimeArity`. -/
def binaryCall (name : String)
    (body : Evaluated IrelValue → Evaluated IrelValue → Evaluated IrelValue) :
    List (Evaluated IrelValue) → Evaluated IrelValue
  | [first, second] => body first second
  | args => .error (.arity name 2 args.length)

def evaluateLen (argument : Evaluated IrelValue) : Evaluated IrelValue := do
  let text ← expectRuntimeString (← argument) "len argument 1"
  pure (.num (Text.utf16Length text))

def evaluateIsNull (argument : Evaluated IrelValue) : Evaluated IrelValue := do
  let value ← argument
  pure (.bool (value = .null))

/-- The second argument counts only when the first is null. -/
def evaluateCoalesce (first second : Evaluated IrelValue) : Evaluated IrelValue := do
  let value ← first
  if value = .null then second else pure value

def evaluateCall (name : String) (args : List (Evaluated IrelValue)) : Evaluated IrelValue :=
  match name with
  | "len" => unaryCall "len" evaluateLen args
  | "is_null" => unaryCall "is_null" evaluateIsNull args
  | "coalesce" => binaryCall "coalesce" evaluateCoalesce args
  | "date_before" =>
    binaryCall "date_before" (evaluateDates parseDate "date_before" fun one two => one < two) args
  | "date_after" =>
    binaryCall "date_after" (evaluateDates parseDate "date_after" fun one two => two < one) args
  | "starts_with" => binaryCall "starts_with" (evaluateStrings "starts_with" startsWith) args
  | "contains" => binaryCall "contains" (evaluateStrings "contains" includes) args
  | other => .error (.unknownFunction other)

end Call

/-! ## The evaluator -/

section Evaluate

variable (parseDate : String → Option Rat) (scope : IrelScope)

mutual

def evaluateIrelExpression : IrelNode → Evaluated IrelValue
  | .literal _ value _ => .ok value
  | .var path _ => resolveRuntimeVariable path scope
  | .call name args _ => evaluateCall parseDate name (evaluateArgs args)
  | .unary expr _ => do
    let value ← expectRuntimeBoolean (← evaluateIrelExpression expr) "! operand"
    pure (.bool !value)
  | .binary op left right _ =>
    evaluateAdditive op (evaluateIrelExpression left) (evaluateIrelExpression right)
  | .compare op left right _ =>
    evaluateCompare op (evaluateIrelExpression left) (evaluateIrelExpression right)
  | .logical op left right _ =>
    evaluateLogical op (evaluateIrelExpression left) (evaluateIrelExpression right)

/-- What each argument of a call would give; evaluation has no effects, so an
argument that is not used costs nothing. -/
def evaluateArgs : List IrelNode → List (Evaluated IrelValue)
  | [] => []
  | arg :: rest => evaluateIrelExpression arg :: evaluateArgs rest

end

def evaluateIrelBooleanExpression (node : IrelNode) : Evaluated Bool := do
  expectRuntimeBoolean (← evaluateIrelExpression parseDate scope node) "expression result"

theorem evaluateArgs_eq_map (args : List IrelNode) :
    evaluateArgs parseDate scope args = args.map (evaluateIrelExpression parseDate scope) := by
  induction args with
  | nil => rfl
  | cons arg rest ih => simp [evaluateArgs, ih]

end Evaluate

end RpaEnterprise.Irel
