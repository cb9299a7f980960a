import RpaEnterprise.Interpreter.Outputs

/-!
# The input of `@human_task`

`parseHumanTaskInput` checks the input of the handler call and puts the values of
run parameters into its payload.  An error is the message of an `IR_SCHEMA_INVALID`.
-/

namespace RpaEnterprise.Interpreter

open Lib

/-! ## Timeouts -/

def humanTaskMinTimeoutMs : Nat := 1000

def humanTaskMaxTimeoutMs : Nat := 30 * 24 * 60 * 60 * 1000

def maxSafeInteger : Nat := 9007199254740991

/-- The milliseconds of a unit, in any case. -/
def unitFactor (unit : List Char) : Option Nat :=
  match unit.map Char.toLower with
  | ['m', 's'] => some 1
  | ['s'] => some 1000
  | ['m'] => some (60 * 1000)
  | ['h'] => some (60 * 60 * 1000)
  | ['d'] => some (24 * 60 * 60 * 1000)
  | _ => none

def digitsValue (digits : List Char) : Nat :=
  digits.foldl (fun value digit => value * 10 + (digit.toNat - '0'.toNat)) 0

/-- `/^\s*(\d+)\s*(ms|s|m|h|d)\s*$/i`, then the bounds. -/
def parseHumanTaskTimeoutMs (value : String) : Option Nat :=
  let chars := Text.trimChars value.toList
  let digits := chars.takeWhile Char.isDigit
  let unit := (chars.dropWhile Char.isDigit).dropWhile Text.isSpace
  if digits.isEmpty then none
  else
    match unitFactor unit with
    | none => none
    | some factor =>
      let amount := digitsValue digits
      let ms := amount * factor
      if amount = 0 ∨ maxSafeInteger < amount then none
      else if maxSafeInteger < ms ∨ ms < humanTaskMinTimeoutMs ∨ humanTaskMaxTimeoutMs < ms then none
      else some ms

/-! ## The payload -/

/-- `{ from_param: key }`. -/
def fromParam? : List (String × Json) → Option String
  | [("from_param", .str key)] => some key
  | _ => none

def isScalar : Json → Bool
  | .str _ | .num _ | .bool _ => true
  | _ => false

/-- `params?.[key]`. -/
def paramOf (params : Option Json) (key : String) : Option Json := params.bind (·.field key)

def payloadParam (params : Option Json) (nodeId key : String) : Except String Json :=
  match paramOf params key with
  | some value =>
    if isScalar value then .ok value else .error unresolved
  | none => .error unresolved
where
  unresolved : String :=
    s!"@human_task node '{nodeId}': payload from_param '{key}' 미해소 — run params 에 스칼라 값 없음(리뷰어 컨텍스트 유실; 조용한 false 금지)"

section Payload

variable (params : Option Json) (nodeId : String)

mutual

def resolvePayloadParams : Json → Except String Json
  | .arr items => do return .arr (← resolvePayloadItems items)
  | .obj fields =>
    match fromParam? fields with
    | some key => payloadParam params nodeId key
    | none => do return .obj (← resolvePayloadFields fields)
  | .null => .ok .null
  | .bool value => .ok (.bool value)
  | .num value => .ok (.num value)
  | .str text => .ok (.str text)

def resolvePayloadItems : List Json → Except String (List Json)
  | [] => .ok []
  | item :: rest => do
    let item ← resolvePayloadParams item
    let rest ← resolvePayloadItems rest
    pure (item :: rest)

/-- Each value of a record. -/
def resolvePayloadFields : List (String × Json) → Except String (List (String × Json))
  | [] => .ok []
  | (key, value) :: rest => do
    let value ← resolvePayloadParams value
    let rest ← resolvePayloadFields rest
    pure ((key, value) :: rest)

end

end Payload

/-! ## The input -/

structure HumanTaskInput where
  humanTaskKind : Runtime.HandlerTaskKind
  assigneeRole : String
  onTimeout : Runtime.OnTimeout
  timeoutMs : Option Nat
  payload : Option (List (String × Json))
  resultSchema : Option (List (String × Json))
  artifactRefs : Option (List String)

/-- `String(value)` of a scalar; other values only occur in the text of an error. -/
def stringOf : Json → String
  | .str text => text
  | .num value => Json.numText value
  | .bool value => if value then "true" else "false"
  | .null => "null"
  | .obj _ => "[object Object]"
  | .arr items => Text.join "," (items.map fun
      | .str text => text
      | .num value => Json.numText value
      | .bool value => if value then "true" else "false"
      | _ => "")

def parseKind (nodeId : String) (raw : Option Json) : Except String Runtime.HandlerTaskKind :=
  match raw with
  | none => .ok .exception
  | some (.str "approval") => .ok .approval
  | some (.str "validation") => .ok .validation
  | some (.str "exception") => .ok .exception
  | some other => .error
      s!"@human_task node '{nodeId}': input.kind '{stringOf other}' 무효(approval|validation|exception)"

def parseAssigneeRole (nodeId : String) (raw : Option Json) : Except String String :=
  match raw with
  | some (.str role) => if Text.blank role then .error missing else .ok role
  | _ => .error missing
where
  missing : String :=
    s!"@human_task node '{nodeId}': input.assignee_role 필수(비어있지 않은 string)"

def parseOnTimeout (nodeId : String) (raw : Option Json) : Except String Runtime.OnTimeout :=
  match raw with
  | none => .ok .fail
  | some (.str "fail") => .ok .fail
  | some (.str "escalate") => .ok .escalate
  | some other => .error
      s!"@human_task node '{nodeId}': input.on_timeout '{stringOf other}' 무효(fail|escalate)"

def parseTimeout (nodeId : String) (raw : Option Json) : Except String (Option Nat) :=
  match raw with
  | none => .ok none
  | some (.str text) =>
    match parseHumanTaskTimeoutMs text with
    | some ms => .ok (some ms)
    | none => .error
        s!"@human_task node '{nodeId}': input.timeout '{text}' invalid (ms|s|m|h|d, {humanTaskMinTimeoutMs}-{humanTaskMaxTimeoutMs}ms)"
  | some _ => .error
      s!"@human_task node '{nodeId}': input.timeout must be a duration string"

def optionalRecordInput (nodeId : String) (value : Option Json) (fieldName : String) :
    Except String (Option (List (String × Json))) :=
  match value with
  | none => .ok none
  | some (.obj fields) => .ok (some fields)
  | some _ => .error s!"@human_task node '{nodeId}': input.{fieldName} 는 object 여야 함"

def optionalStringArrayInput (nodeId : String) (value : Option Json) (fieldName : String) :
    Except String (Option (List String)) :=
  match value with
  | none => .ok none
  | some (.arr items) =>
    let texts := items.filterMap Json.text?
    if texts.length = items.length ∧ texts.all (· ≠ "") then .ok (some texts) else .error invalid
  | some _ => .error invalid
where
  invalid : String :=
    s!"@human_task node '{nodeId}': input.{fieldName} 는 non-empty string[] 이어야 함"

def parseHumanTaskInput (nodeId : String) (input : Json) (params : Option Json) :
    Except String HumanTaskInput := do
  let humanTaskKind ← parseKind nodeId (input.field "kind")
  let assigneeRole ← parseAssigneeRole nodeId (input.field "assignee_role")
  let onTimeout ← parseOnTimeout nodeId (input.field "on_timeout")
  let timeoutMs ← parseTimeout nodeId (input.field "timeout")
  let payload ← match ← optionalRecordInput nodeId (input.field "payload") "payload" with
    | some fields => some <$> resolvePayloadFields params nodeId fields
    | none => .ok none
  let resultSchema ← optionalRecordInput nodeId (input.field "result_schema") "result_schema"
  let artifactRefs ← optionalStringArrayInput nodeId (input.field "artifact_refs") "artifact_refs"
  pure { humanTaskKind, assigneeRole, onTimeout, timeoutMs, payload, resultSchema, artifactRefs }

end RpaEnterprise.Interpreter
