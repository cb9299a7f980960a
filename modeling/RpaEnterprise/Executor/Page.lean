import RpaEnterprise.Executor.Session

/-!
# The parts of a step that only talk to the page

The rich body fill of an act and the row anchors of an extract.  The polling loop
stops at its deadline; since every poll sleeps, the number of polls is bounded and
the loop recurses on it.
-/

namespace RpaEnterprise.Executor

open Lib Gateway

/-! ## Rich bodies -/

def clickPollMs : Nat := 500

/-- `Date.now() >= deadline`. -/
def expired (deadline : Nat) : PageStep Bool := do
  let now ← clock
  pure (decide (deadline ≤ now))

def stableMs : Nat := 2000

/-- `value.slice(0, Math.min(24, value.length))`, in code units. -/
def probeOf (value : String) : List UInt16 := (CodeUnits.ofString value).take 24

/-- The status an insertion ends a poll with; a page that cannot be reached gives none. -/
def insertStatus (frame value : String) : PageStep Json := do
  match ← tryEvaluate (.insertRichBody frame value (probeOf value)) with
  | .ok status => pure status
  | .error _ => pure (.str "")

/-- Whether the text has stayed in the body for long enough, and since when it is there. -/
def stableSince (status : Json) (okSince : Nat) : PageStep (Bool × Nat) :=
  match status with
  | .str "ok" => do
    let since ← if okSince = 0 then clock else pure okSince
    let now ← clock
    pure (decide (stableMs ≤ now - since), since)
  | _ => pure (false, 0)

def statusText (status : Json) : String := if status.truthy then typeText status else "none"

def richBodyTimeout (deps : Deps) (stepId frame : String) (status : Json) : String :=
  s!"step '{stepId}' rich_body_frame '{frame}' 본문 채움 정착 실패(마지막 상태: {statusText status}, settle {deps.clickSettleMs}ms 초과) — 빈 본문 전송 방지(조용한 false 금지)"

/-- The loop of a rich body fill: the inserted text has to stay for `stableMs`. -/
def settleRichBody (deps : Deps) (stepId frame value : String) (deadline : Nat) :
    Nat → Nat → PageStep Unit
  | polls, okSince => do
    if ← aborted then
      raiseAborted s!"step '{stepId}' aborted while filling rich body frame '{frame}'"
    else do
      let status ← insertStatus frame value
      match status with
      | .str "cross-origin" =>
        raise s!"step '{stepId}' rich_body_frame '{frame}' 는 교차 출처라 본문 접근 불가"
      | _ => do
        let (stable, okSince) ← stableSince status okSince
        if stable then pure ()
        else if ← expired deadline then raise (richBodyTimeout deps stepId frame status)
        else
          match polls with
          | 0 => raise (richBodyTimeout deps stepId frame status)
          | polls + 1 => settleRichBody deps stepId frame value deadline polls okSince

def executeRichBodyFill (deps : Deps) (stepId frame : String) (value sideEffect : Option String)
    (ctx : RunContext) : PageStep StepResult :=
  match value.filter (· ≠ "") with
  | none =>
    raise s!"step '{stepId}' rich_body_frame 은 value_ref 해소값 필요(빈/미해소 본문 금지)"
  | some value => do
    let start ← clock
    settleRichBody deps stepId frame value (start + deps.clickSettleMs)
      (deps.clickSettleMs / clickPollMs) 0
    pure
      { stepId
        action := .act
        status := .success
        plan := .fill s!"{frame} (rich_body_frame)" none none
        pageStateBefore := pageStateRef ctx.pageState
        pageStateAfter := pageStateRef ctx.pageState
        cache := .bypass
        sideEffect := ⟨sideEffect.getD "update", true⟩ }

/-! ## Row anchors -/

/-- What the anchors on the page gave: the values by join key, the keys that
stand for several values and the anchors that gave none. -/
structure Anchors where
  byKey : List (String × String) := []
  ambiguous : List String := []
  unresolvable : Nat := 0
deriving Repr, DecidableEq

def norm : Option Json → String
  | some (.str text) => Text.collapseSpaces text
  | _ => ""

def maxAttrChars : Nat := 4096

def anchorValue (anchor : ExtractRowAnchor) (id : String) : String :=
  let template := anchor.template.toList
  String.ofList (Text.substitute "$1".toList id.toList template.length template)

def Anchors.get (anchors : Anchors) (key : String) : Option String :=
  (anchors.byKey.find? fun entry => entry.1 = key).map Prod.snd

/-- One anchor: a key with two values is ambiguous and keeps its first. -/
def Anchors.add (anchors : Anchors) (key value : String) : Anchors :=
  match anchors.get key with
  | none => { anchors with byKey := anchors.byKey ++ [(key, value)] }
  | some prior =>
    if prior = value then anchors
    else { anchors with ambiguous := anchors.ambiguous.insert key }

def Anchors.lose (anchors : Anchors) : Anchors :=
  { anchors with unresolvable := anchors.unresolvable + 1 }

/-- The id that the pattern finds in the attribute of an anchor. -/
def anchorId (deps : Deps) (anchor : ExtractRowAnchor) (pair : Json) : Option String := do
  let attributeText ← (stringField pair "v").filter (Text.utf16Length · ≤ maxAttrChars)
  (deps.capture anchor.pattern attributeText).filter (· ≠ "")

def collectAnchor (deps : Deps) (anchor : ExtractRowAnchor) (anchors : Anchors) (pair : Json) :
    Anchors :=
  match anchorId deps anchor pair with
  | none => anchors.lose
  | some id =>
    let key := norm (pair.field "k")
    if key = "" then anchors.lose else anchors.add key (anchorValue anchor id)

/-- The own members of what `typeof` calls an object; an array has its indices. -/
def ownMembers : Json → Option (List (String × Json))
  | .obj fields => some fields
  | .arr items => some (items.zipIdx.map fun entry => (toString entry.2, entry.1))
  | _ => none

def rowKey (anchor : ExtractRowAnchor) (fields : List (String × Json)) : String :=
  norm (Json.lookup anchor.matchField fields)

/-- The rows that found their anchor, with the anchor's value set. -/
def keepRow (anchor : ExtractRowAnchor) (usable : Anchors) (row : Json) : Option (String × Json) := do
  let fields ← ownMembers row
  let key := rowKey anchor fields
  let value ← if key = "" then none else usable.get key
  pure (key, .obj (Json.assign anchor.field (.str value) fields))

def anchorRows (deps : Deps) (stepId : String) (anchor : ExtractRowAnchor)
    (fields : List (String × Json)) (rows pairs : List Json) : Except Raised Json :=
  let found := pairs.foldl (collectAnchor deps anchor) {}
  if found.byKey = [] then
    .error (.executor (schemaInvalid
      s!"step '{stepId}' extract.row_anchor: 앵커 {pairs.length}개이나 attribute '{anchor.attributeName}'/pattern 으로 추출된 키 0개(드리프트) — 조용한 false 금지"))
  else
    let usable := { found with byKey := found.byKey.filter fun entry => entry.1 ∉ found.ambiguous }
    let kept := rows.filterMap (keepRow anchor usable)
    let uncovered := usable.byKey.length - (kept.map Prod.fst).dedup.length
    let ambiguous := found.ambiguous.length
    let lost := uncovered + ambiguous + found.unresolvable
    if 0 < lost ∧ (anchor.requireFullCoverage ≠ some false ∨ kept = []) then
      .error (.executor (schemaInvalid
        s!"step '{stepId}' extract.row_anchor: 권위 앵커 손실 {lost}건(LLM 미커버 {uncovered} / 모호키 {ambiguous} / 미해소앵커 {found.unresolvable}) — 조용한 누락 금지"))
    else .ok (.obj (Json.assign "rows" (.arr (kept.map Prod.snd)) fields))

def applyRowAnchor (deps : Deps) (stepId : String) (anchor : ExtractRowAnchor) (parsed : Json) :
    PageStep Json :=
  match (parsed.field "rows").bind Json.items? with
  | none => raise s!"step '{stepId}' extract.row_anchor: 출력 봉투에 rows 배열 없음"
  | some rows => do
    let pairs ← evaluate
      (.rowAnchors anchor.selector anchor.textSelector anchor.attributeName)
    match pairs.items?.getD [] with
    | [] =>
      raise s!"step '{stepId}' extract.row_anchor: 셀렉터 '{anchor.selector}' 0개 매칭(DOM 미settle/오셀렉터) — 조용한 false 금지"
    | pairs => .lift (anchorRows deps stepId anchor parsed.fields rows pairs)

end RpaEnterprise.Executor
