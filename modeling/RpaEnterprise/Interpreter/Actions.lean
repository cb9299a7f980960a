import RpaEnterprise.Interpreter.Flow

/-!
# Actions

`mapAction` turns an action of the document into the action the executor gets.  The
references to run parameters are resolved here, and an action that is ambiguous or
incomplete is refused.
-/

namespace RpaEnterprise.Interpreter

open Lib Ir

/-- What the translation asks of its surroundings. -/
structure Host where
  /-- `new RegExp(pattern)` does not throw. -/
  validPattern : String → Bool
  /-- `originOf(value) !== null`: an absolute http(s) URL. -/
  isHttpUrl : String → Bool

def refuse {Value : Type} (nodeId text : String) : Except Thrown Value :=
  .error (schemaInvalid s!"compiledScenarioFrom: node '{nodeId}' {text}")

/-- A check that throws its text. -/
def require (nodeId : String) (holds : Bool) (text : String) : Except Thrown Unit :=
  if holds then .ok () else refuse nodeId text

/-- A text that is there and not empty. -/
def filled (record : Json) (key : String) : Option String := (textOf record key).filter (· ≠ "")

/-- A text that is more than blanks. -/
def filledText (record : Json) (key : String) : Option String :=
  (textOf record key).filter fun text => !Text.blank text

def recordField (key : String) (value : Option Json) : List (String × Json) :=
  match value with
  | some (.obj fields) => [(key, .obj fields)]
  | _ => []

def textField (key : String) (value : Option String) : List (String × Json) :=
  optionalField key (value.map Json.str)

/-- `isRec(a.args) ? a.args : {}`. -/
def argsOf (action : Json) : Json :=
  match action.field "args" with
  | some (.obj fields) => .obj fields
  | _ => .obj []

def withRecording (fields : List (String × Json)) (recording : Option String) : Json :=
  .obj (match recording with
    | some policy => Json.assign "recording" (.str policy) fields
    | none => fields)

/-! ## URLs -/

def typeOf : Json → String
  | .str _ => "string"
  | .num _ => "number"
  | .bool _ => "boolean"
  | .null | .arr _ | .obj _ => "object"

/-- `resolveUrlRef`, with its errors as those of the interpreter. -/
def resolveUrlRef (host : Host) (nodeId rawRef : String) (params : Option Json) : Except Thrown String :=
  match paramOf params rawRef with
  | none => failure "URL_REF_PARAM_MISSING"
      s!"url_ref '{rawRef}' 가 run params 에 없음 — 파라미터 시나리오는 실행 시 params 로 URL 값을 공급해야 함"
  | some (.str value) =>
    if value = "" then failure "URL_REF_PARAM_EMPTY" s!"params['{rawRef}'] 가 빈 문자열"
    else if !host.isHttpUrl value then failure "URL_REF_VALUE_NOT_ABSOLUTE_URL"
      s!"params['{rawRef}'] 의 값 '{value}' 가 절대 URL 아님"
    else .ok value
  | some other => failure "URL_REF_PARAM_NOT_STRING"
      s!"params['{rawRef}'] 는 문자열 URL 이어야 함(got {typeOf other})"
where
  failure (code message : String) : Except Thrown String :=
    .error (.interpreter (.site code) s!"node '{nodeId}': {message}")

/-! ## `api_call` -/

/-- `args.first ?? args.second` among texts. -/
def textEither (args : Json) (first second : String) : Option String :=
  (textOf args first).or (textOf args second)

def parseApiCallAction (host : Host) (nodeId : String) (action : Json) (params : Option Json) :
    Except Thrown (List (String × Json)) :=
  match textOf action "url_ref" with
  | none => refuse nodeId "api_call.url_ref 누락"
  | some urlRef => do
    let args := argsOf action
    let url ← resolveUrlRef host nodeId urlRef params
    let timeoutMs := (numberOf args "timeout_ms").or (numberOf args "timeoutMs")
    pure ([("type", .str "api_call"),
        ("method", .str (((textOf args "method").map String.toUpper).getD "GET")), ("url", .str url)] ++
      recordField "headers" (args.field "headers") ++ optionalField "body" (args.field "body") ++
      recordField "auth" (args.field "auth") ++
      textField "connectorId" (textEither args "connector_id" "connectorId") ++
      optionalField "timeoutMs" (timeoutMs.map .num) ++
      textField "sideEffect" (textEither args "side_effect" "sideEffect") ++
      textField "idempotencyKey" (textEither args "idempotency_key" "idempotencyKey"))

/-! ## `extract` -/

def needAnchor (nodeId : String) (raw : Json) (irKey : String) : Except Thrown String :=
  match filledText raw irKey with
  | some value => .ok value
  | none => refuse nodeId s!"extract.args.row_anchor.{irKey}(비빈 문자열) 필요"

def parseRowAnchor (host : Host) (nodeId : String) (raw : Option Json) : Except Thrown (Option Json) :=
  match raw with
  | none => .ok none
  | some (.obj fields) => do
    let raw := Json.obj fields
    let pattern ← needAnchor nodeId raw "pattern"
    require nodeId (host.validPattern pattern) "extract.args.row_anchor.pattern 정규식 무효"
    require nodeId ((raw.field "text_selector").isNone || (filledText raw "text_selector").isSome)
      "extract.args.row_anchor.text_selector 는 선언 시 비빈 문자열"
    require nodeId ((raw.field "require_full_coverage").isNone || (boolOf raw "require_full_coverage").isSome)
      "extract.args.row_anchor.require_full_coverage 는 boolean"
    let selector ← needAnchor nodeId raw "selector"
    let matchField ← needAnchor nodeId raw "match_field"
    let fieldName ← needAnchor nodeId raw "field"
    let attributeName ← needAnchor nodeId raw "attribute"
    let template ← needAnchor nodeId raw "template"
    pure (some (.obj ([("selector", .str selector)] ++
      textField "textSelector" (textOf raw "text_selector") ++
      [("matchField", .str matchField), ("field", .str fieldName), ("attribute", .str attributeName),
        ("pattern", .str pattern), ("template", .str template)] ++
      optionalField "requireFullCoverage" ((boolOf raw "require_full_coverage").map .bool))))
  | some _ => refuse nodeId "extract.args.row_anchor 는 객체여야 함"

def mapExtract (host : Host) (nodeId : String) (action : Json) : Except Thrown (List (String × Json)) :=
  match filledText action "instruction" with
  | none => refuse nodeId "extract.instruction 필요"
  | some instruction =>
    match filled action "schema_ref" with
    | none => refuse nodeId "extract.schema_ref 필요"
    | some schemaRef => do
      let args := argsOf action
      let rowAnchor ← parseRowAnchor host nodeId (args.field "row_anchor")
      let output := [("schemaRef", Json.str schemaRef),
        ("schemaVersion", .str ((textOf args "schema_version").getD "1")),
        ("strict", .bool ((boolOf args "strict").getD true))] ++ recordField "schema" (args.field "schema")
      pure ([("type", .str "extract"), ("instruction", .str instruction), ("output", .obj output)] ++
        optionalField "rowAnchor" rowAnchor)

/-! ## `act` -/

/-- The first of `vars`, if it is a text. -/
def secretRefOf (action : Json) : Option String :=
  match action.field "vars" with
  | some (.arr (.str first :: _)) => if first = "" then none else some first
  | _ => none

def valueFromNodeOf (nodeId : String) (args : Json) : Except Thrown (Option Json) :=
  match args.field "value_from_node" with
  | none => .ok none
  | some raw =>
    match filled raw "node", filled raw "key" with
    | some node, some key => .ok (some (.obj [("node", .str node), ("key", .str key)]))
    | _, _ => refuse nodeId
        "act.args.value_from_node 는 \x7bnode:비빈문자열, key:비빈문자열\x7d 이어야 함"

def mapAct (nodeId : String) (action : Json) (params : Option Json) (nodeSideEffect : Option String) :
    Except Thrown (List (String × Json)) :=
  match filledText action "instruction" with
  | none => refuse nodeId "act.instruction 필요"
  | some instruction => do
    let args := argsOf action
    let secretRef := secretRefOf action
    let valueRef := filled args "value_ref"
    require nodeId (!(valueRef.isSome && secretRef.isSome))
      "act 는 vars(secret) 와 args.value_ref(비-secret) 동시 사용 불가"
    let value := valueRef.bind fun key => (paramOf params key).bind Json.text?
    let clickSelector := filled args "click_selector"
    let clickText := filled args "click_text"
    let assertAbsent := filled args "assert_absent"
    let fillSelector := filled args "fill_selector"
    let richBodyFrame := filled args "rich_body_frame"
    let valueFromNode ← valueFromNodeOf nodeId args
    let sources := [secretRef.isSome, valueRef.isSome, valueFromNode.isSome].countP (·)
    require nodeId (sources ≤ 1)
      "act 는 vars(secret)/args.value_ref/args.value_from_node 중 하나만 사용 가능(단일 fill 값 소스)"
    let selectSelector := filled args "select_selector"
    let selectValue := textOf args "select_value"
    let clickModes := [clickSelector.isSome, clickText.isSome, assertAbsent.isSome].countP (·)
    require nodeId (clickModes ≤ 1)
      "act 는 click_selector/click_text/assert_absent 중 하나만 사용 가능(결정형 모드 상호배타)"
    let hasFill := valueRef.isSome || secretRef.isSome || fillSelector.isSome || richBodyFrame.isSome ||
      valueFromNode.isSome
    let hasSelect := selectSelector.isSome || selectValue.isSome
    let modeGroups := [decide (0 < clickModes), hasFill, hasSelect].countP (·)
    require nodeId (modeGroups ≤ 1)
      "act 는 click/fill/select 결정형 모드를 함께 쓸 수 없음(상호배타)"
    require nodeId (fillSelector.isNone || 0 < sources)
      "act.args.fill_selector 는 채울 값 출처(args.value_ref / vars[secret] / args.value_from_node)가 필요"
    require nodeId (richBodyFrame.isNone || valueRef.isSome || valueFromNode.isSome)
      "act.args.rich_body_frame 는 채울 값 출처(args.value_ref 또는 args.value_from_node) 필요"
    require nodeId (richBodyFrame.isNone || (fillSelector.isNone && secretRef.isNone))
      "act.args.rich_body_frame 는 fill_selector/vars(secret) 와 함께 쓸 수 없음"
    require nodeId (secretRef.isNone || fillSelector.isSome ||
        boolOf args "allow_llm_secret_selector" = some true)
      "자격증명 fill(vars[secret])은 args.fill_selector(결정형 셀렉터) 또는 명시 args.allow_llm_secret_selector=true 필요 — LLM 셀렉터 환각으로 비밀이 엉뚱한 필드에 채워지는 것 방지(SSB-01)"
    require nodeId (!hasSelect || (selectSelector.isSome && selectValue.isSome))
      "act.args.select_selector 와 select_value 는 둘 다 필요"
    pure ([("type", .str "act"), ("instruction", .str instruction)] ++
      textField "sideEffect" nodeSideEffect ++ textField "secretRef" secretRef ++
      textField "valueRef" valueRef ++ optionalField "valueFromNode" valueFromNode ++
      textField "value" value ++ textField "clickSelector" clickSelector ++
      textField "clickText" clickText ++ textField "assertAbsent" assertAbsent ++
      textField "fillSelector" fillSelector ++ textField "richBodyFrame" richBodyFrame ++
      textField "selectSelector" selectSelector ++ textField "selectValue" selectValue)

/-! ## All actions -/

/-- `mapAction`; an observation without an instruction is dropped. -/
def mapAction (host : Host) (nodeId : String) (action : Json) (params : Option Json)
    (nodeSideEffect nodeRecording : Option String) : Except Thrown (Option Json) :=
  match textOf action "action" with
  | none => refuse nodeId "action 형식 오류"
  | some "observe" =>
    match action.field "instruction" with
    | none | some .null => .ok none
    | some _ =>
      match filledText action "instruction" with
      | none => refuse nodeId "observe.instruction 필요"
      | some instruction =>
        .ok (some (withRecording [("type", .str "observe"), ("instruction", .str instruction)]
          nodeRecording))
  | some "navigate" =>
    match textOf action "url_ref" with
    | none => refuse nodeId "navigate.url_ref 누락"
    | some urlRef => do
      let url ← resolveUrlRef host nodeId urlRef params
      pure (some (withRecording [("type", .str "navigate"), ("url", .str url)] nodeRecording))
  | some "api_call" => do
    let fields ← parseApiCallAction host nodeId action params
    pure (some (withRecording fields nodeRecording))
  | some "act" => do
    let fields ← mapAct nodeId action params nodeSideEffect
    pure (some (withRecording fields nodeRecording))
  | some "extract" => do
    let fields ← mapExtract host nodeId action
    pure (some (withRecording fields nodeRecording))
  | some other => .error (.interpreter .actionUnsupported
      s!"compiledScenarioFrom: node '{nodeId}' action '{other}' 미지원(1단계: navigate/observe/act/extract)")

end RpaEnterprise.Interpreter
