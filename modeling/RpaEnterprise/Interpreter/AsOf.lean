import RpaEnterprise.Interpreter.Outcomes
import RpaEnterprise.Interpreter.Runs
import RpaEnterprise.Lib.Results

/-!
# The reference instant of a run

A run is created with parameters and with a reference instant, which goes into a
column of its own.  The drives of the run read the parameters, not the column, so a
condition sees the instant only if whoever created the run also put it among the
parameters.
-/

namespace RpaEnterprise.Interpreter

open Lib Ir Irel
open Lib.Text (readDigits readChar)
open Executor (PageState)

/-! ## Date-times in requests -/

structure IsoDateTime where
  year : Nat
  month : Nat
  day : Nat
  hour : Nat
  minute : Nat
  second : Nat
  /-- Hours and minutes; `none` is `Z`. -/
  offset : Option (Nat × Nat)
deriving DecidableEq

/-- The optional fraction `(?:\.\d{1,9})?`. -/
def readFraction (chars : List Char) : Option (List Char) :=
  match chars with
  | '.' :: rest =>
    let digits := rest.takeWhile Char.isDigit
    if 1 ≤ digits.length ∧ digits.length ≤ 9 then some (rest.dropWhile Char.isDigit) else none
  | _ => some chars

/-- The zone `(Z|[+-]\d{2}:\d{2})$`. -/
def readOffset (chars : List Char) : Option (Option (Nat × Nat)) :=
  match chars with
  | ['Z'] => some none
  | sign :: rest =>
    if sign = '+' ∨ sign = '-' then do
      let (hours, rest) ← readDigits 2 rest
      let rest ← readChar ':' rest
      let (minutes, rest) ← readDigits 2 rest
      if rest = [] then some (some (hours, minutes)) else none
    else none
  | [] => none

/-- The match of `ISO_8601_RE`. -/
def readIsoDateTime (text : String) : Option IsoDateTime := do
  let (year, rest) ← readDigits 4 text.toList
  let rest ← readChar '-' rest
  let (month, rest) ← readDigits 2 rest
  let rest ← readChar '-' rest
  let (day, rest) ← readDigits 2 rest
  let rest ← readChar 'T' rest
  let (hour, rest) ← readDigits 2 rest
  let rest ← readChar ':' rest
  let (minute, rest) ← readDigits 2 rest
  let rest ← readChar ':' rest
  let (second, rest) ← readDigits 2 rest
  let rest ← readFraction rest
  let offset ← readOffset rest
  some { year, month, day, hour, minute, second, offset }

def isLeapYear (year : Nat) : Bool := year % 4 = 0 && (year % 100 ≠ 0 || year % 400 = 0)

def daysInMonth (year month : Nat) : Nat :=
  if month = 2 then (if isLeapYear year then 29 else 28)
  else if [4, 6, 9, 11].contains month then 30 else 31

/-- The check of `createRun` and `rerunRun`. -/
def isStrictIsoDateTime (text : String) : Bool :=
  match readIsoDateTime text with
  | none => false
  | some read =>
    1 ≤ read.month && read.month ≤ 12 && read.hour ≤ 23 && read.minute ≤ 59 && read.second ≤ 59 &&
      (match read.offset with
        | none => true
        | some (hours, minutes) => hours ≤ 23 && minutes ≤ 59) &&
      1 ≤ read.day && read.day ≤ daysInMonth read.year read.month

/-! ## Who creates runs -/

/-- What the database and the host make of date-times. -/
structure Calendar where
  Instant : Type
  /-- The cast `::timestamptz`, which fails on other texts. -/
  timestamptz : String → Option Instant
  /-- `toISOString` of the `Date` a column is read into. -/
  toISOString : Instant → String
  /-- `new Date(text)` is a valid date. -/
  isDate : String → Bool

variable (calendar : Calendar)

/-- The columns of a row of `runs` that say what the run is about. -/
structure RunRow where
  params : Option Json
  asOf : Option calendar.Instant

/-- The part of `CreateRunInTxInput` that goes into those columns. -/
structure CreateRunInTxInput where
  params : List (String × Json)
  asOf : String

/-- A row of a list of approvals that has a document and an approval. -/
structure FanOutRow where
  docRef : String
  approvalId : String
  row : Json

/-- The requests that end in `createRunInTx`. -/
inductive RunRequest where
  | createRun (params : Option Json)
  | webAttended (params : Option Json)
  | rerunSameInput (source : RunRow calendar)
  | rerunEditedInput (params : Option Json)
  | cronTrigger (params : Option Json) (scheduledFor : String)
  | webhookTrigger (params : Option Json) (eventId : String) (payload : Json)
  | approvalDecision (docRef decision : String) (reason : Option String)
  | approvalFanOut (row : FanOutRow)
  | generatedScenario (params : List (String × Json)) (startUrl : Option String)

/-- The fields of an object, and an error for anything else. -/
def requireObject (value : Option Json) (reason : String) : Except String (List (String × Json)) :=
  match value with
  | some (.obj fields) => .ok fields
  | _ => .error reason

/-- `recordOrEmpty`. -/
def recordOrEmpty (value : Option Json) : List (String × Json) :=
  match value with
  | some (.obj fields) => fields
  | _ => []

def coerceParams (params : Option Json) : Except String (List (String × Json)) :=
  match params with
  | none | some .null => .ok []
  | some (.obj fields) => .ok fields
  | some _ => .error "source_params_not_object"

/-- The instant of the request: `params.as_of` if it is given, else now. -/
def paramsAsOf (strict : String → Bool) (now : String) (params : List (String × Json)) : Except String String :=
  match Json.lookup "as_of" params with
  | none => .ok now
  | some (.str text) => if strict text then .ok text else .error "invalid_as_of"
  | some _ => .error "invalid_as_of"

def textOr (row : Json) (key fallback : String) : Json :=
  .str (((textOf row key).filter (· ≠ "")).getD fallback)

/-- The parameters of a review run. -/
def FanOutRow.params (row : FanOutRow) : List (String × Json) :=
  [("doc_ref", .str row.docRef), ("approval_id", .str row.approvalId),
    ("drafter", textOr row.row "drafter" "(기안자 미상)"), ("doc_type", textOr row.row "doc_type" "(유형 미상)"),
    ("title", textOr row.row "title" "(제목 없음)")] ++
    (((textOf row.row "drafted_at").filter (· ≠ "")).map fun text => ("drafted_at", .str text)).toList

/-- What each request hands to `createRunInTx`; `now` is the time of the request. -/
def RunRequest.input (now : String) : RunRequest calendar → Except String CreateRunInTxInput
  | .createRun params => do
    let params ← requireObject params "params_object_required"
    let asOf ← paramsAsOf isStrictIsoDateTime now params
    pure { params, asOf }
  | .webAttended params => do
    let params ← requireObject params "params_object_required"
    let asOf ← paramsAsOf (fun text => (readIsoDateTime text).isSome && calendar.isDate text) now params
    pure { params, asOf }
  | .rerunSameInput source => do
    let params ← coerceParams source.params
    pure { params, asOf := (source.asOf.map calendar.toISOString).getD now }
  | .rerunEditedInput params => do
    let params ← requireObject params "params_object_required"
    let asOf ← paramsAsOf isStrictIsoDateTime now params
    pure { params, asOf }
  | .cronTrigger params scheduledFor => .ok { params := recordOrEmpty params, asOf := scheduledFor }
  | .webhookTrigger params eventId payload =>
    let webhook : Json := .obj [("event_id", .str eventId), ("received_at", .str now), ("payload", payload)]
    .ok { params := Json.assign "webhook" webhook (recordOrEmpty params), asOf := now }
  | .approvalDecision docRef decision reason =>
    .ok
      { params := [("doc_ref", .str docRef), ("decision", .str decision)] ++
          (reason.map fun text => ("reason", .str text)).toList
        asOf := now }
  | .approvalFanOut row => .ok { params := row.params, asOf := now }
  | .generatedScenario params startUrl =>
    let asOf := match Json.lookup "as_of" params with
      | some (.str text) => text
      | _ => now
    let params := match startUrl with
      | some url => Json.assign "start_url" (.str url) params
      | none => params
    .ok { params := Json.assign "as_of" (.str asOf) params, asOf }

/-- The row `createRunInTx` inserts once its checks have passed. -/
def createRunInTx (input : CreateRunInTxInput) : Option (RunRow calendar) :=
  (calendar.timestamptz input.asOf).map fun instant => { params := some (.obj input.params), asOf := some instant }

/-- `normalizeRunParams` of a column with an object. -/
def normalizeRunParams (params : Option Json) : Option Json :=
  match params with
  | some (.obj fields) => some (.obj fields)
  | _ => none

/-- A drive of the run evaluates with the parameters of its row. -/
def DrivesRow (row : RunRow calendar) (deps : Deps) : Prop := deps.params = normalizeRunParams row.params

/-! ## What conditions see -/

/-- Every condition was evaluated over the parameters of the drives. -/
def SeesParams (deps : Deps) (machine : Machine) : Prop :=
  ∀ nodeId scope, .evaluated nodeId scope ∈ machine.log → scope.params = deps.params

section Runs

variable {deps : Deps} {machine after : Machine}

theorem SeesParams.kept (sees : SeesParams deps machine)
    (same : ∀ nodeId scope, .evaluated nodeId scope ∈ after.log → .evaluated nodeId scope ∈ machine.log) :
    SeesParams deps after :=
  fun nodeId scope member => sees nodeId scope (same nodeId scope member)

theorem SeesParams.evaluating (sees : SeesParams deps machine) (at_ : NodeId) {seen : IrelScope}
    (params : seen.params = deps.params) : SeesParams deps (machine.evaluating at_ seen) := by
  intro nodeId scope member
  rw [Machine.evaluating, Machine.emit_log, List.mem_append, List.mem_singleton] at member
  rcases member with before | here
  · exact sees nodeId scope before
  · cases here
    exact params

theorem SeesParams.moves (sees : SeesParams deps machine) (moves : Moves deps machine after) :
    SeesParams deps after := by
  cases moves with
  | exited _ _ _ _ _ _ _ _ _ _ seen | looped _ _ _ _ _ _ _ _ _ _ seen | branched _ _ _ _ _ _ _ _ _ seen =>
    exact (sees.evaluating machine.nodeId seen.1).kept (by simp)
  | undecided ctx nodeId scope thrown seen => exact (sees.evaluating nodeId seen.1).kept (by simp)
  | adoptedWhen _ frame _ _ _ _ seen | advancedWhen _ frame _ _ _ _ _ _ _ seen =>
    exact (sees.evaluating frame.nodeId seen.1).kept (by simp)
  | _ => exact sees.kept (by simp)

theorem seesParams_run (deps : Deps) (pageState : PageState) (inputs : List RunInput) :
    Throughout (runStep deps) (SeesParams deps) (claimedRun deps pageState) inputs := by
  have anyInput : Along (runStep deps) (fun _ _ => True) (claimedRun deps pageState) inputs :=
    along_of_mem _ (fun _ _ _ => trivial) _
  refine run_keeps ?_ ?_ anyInput ?_
  · exact fun _ _ _ sees moves => sees.moves moves
  · intro machine context pageState rows _ _ sees nodeId scope member
    exact sees nodeId scope (by simpa using member)
  · intro nodeId scope member
    simp [claimedRun, runScenario] at member

end Runs

/-- Every condition of the run saw the instant of its row as `params.as_of`. -/
def AsOfVisible (row : RunRow calendar) (machine : Machine) : Prop :=
  ∀ nodeId scope, .evaluated nodeId scope ∈ machine.log →
    ∃ text, resolveRuntimeVariable ["params", "as_of"] scope = .ok (.str text) ∧
      calendar.timestamptz text = row.asOf

/-- The parameters have a text `as_of` that the database reads like another one. -/
def ReadsAs (params : List (String × Json)) (text : String) : Prop :=
  ∃ own, Json.lookup "as_of" params = some (.str own) ∧ calendar.timestamptz own = calendar.timestamptz text

theorem resolve_asOf {scope : IrelScope} {fields : List (String × Json)}
    (params : scope.params = some (.obj fields)) (text : String) :
    resolveRuntimeVariable ["params", "as_of"] scope = .ok (.str text) ↔
      Json.lookup "as_of" fields = some (.str text) := by
  simp only [resolveRuntimeVariable, readScalar, readRuntimePath, List.head?_cons, List.drop_succ_cons,
    List.drop_zero, params, ownPath]
  cases found : Json.lookup "as_of" fields with
  | none => simp [bind, Except.bind]
  | some value => cases value <;> simp [bind, Except.bind, toRuntimeValue]

/-- A scenario with one condition. -/
def oneCondition (params : Option Json) : Deps where
  scenario :=
    { start := "check"
      nodes := [("check", { what := [], flow := .on [⟨.literal .boolean (.bool true) false, "check", 1⟩] })] }
  params := params
  maxSteps := some 10

def evaluateOnce : List RunInput :=
  [.reply .proceed, .reply (.pause (.ok none)), .reply .proceed, .reply .proceed,
    .reply (.resolved (.ok blankPage))]

theorem oneCondition_evaluated (params : Option Json) :
    ∃ scope, .evaluated "check" scope ∈
      (exec (runStep (oneCondition params)) (claimedRun (oneCondition params) blankPage) evaluateOnce).log ∧
      scope.params = params := by
  refine ⟨{ params, node := some (.obj []), flags := some (.obj []), loop := none }, ?_, rfl⟩
  have log : (exec (runStep (oneCondition params)) (claimedRun (oneCondition params) blankPage) evaluateOnce).log =
      [.started "check", .visited none "check",
        .evaluated "check" { params, node := some (.obj []), flags := some (.obj []), loop := none },
        .moved "check" "check"] := rfl
  simp [log]

variable {calendar}

/-- The drives of a row see its instant exactly if its parameters say the same. -/
theorem asOfVisible_iff {input : CreateRunInTxInput} {row : RunRow calendar}
    (created : createRunInTx calendar input = some row) :
    (∀ deps, DrivesRow calendar row deps → ∀ pageState inputs,
      Throughout (runStep deps) (AsOfVisible calendar row) (claimedRun deps pageState) inputs) ↔
      ReadsAs calendar input.params input.asOf := by
  obtain ⟨instant, cast, rfl⟩ := Option.map_eq_some_iff.mp created
  constructor
  · intro visible
    have drives : DrivesRow calendar ⟨some (.obj input.params), some instant⟩
        (oneCondition (some (.obj input.params))) := rfl
    have throughout := visible _ drives blankPage evaluateOnce
    obtain ⟨scope, evaluated, params⟩ := oneCondition_evaluated (some (.obj input.params))
    obtain ⟨text, seen, same⟩ := throughout _ List.prefix_rfl "check" scope evaluated
    exact ⟨text, (resolve_asOf params text).mp seen, same.trans cast.symm⟩
  · rintro ⟨own, held, same⟩ deps drives pageState inputs first begins nodeId scope evaluated
    have params := seesParams_run deps pageState inputs first begins nodeId scope evaluated
    exact ⟨own, (resolve_asOf (params.trans drives) own).mpr held, same.trans cast⟩

/-- Where the instant of a request stands in the parameters it hands over.  The runs of
approvals have none; the runs of a generated scenario always have it. -/
def RunRequest.CarriesAsOf (now : String) : RunRequest calendar → Prop
  | .createRun params | .webAttended params | .rerunEditedInput params =>
    (Json.lookup "as_of" (recordOrEmpty params)).isSome = true
  | .rerunSameInput source =>
    ReadsAs calendar (recordOrEmpty source.params) ((source.asOf.map calendar.toISOString).getD now)
  | .cronTrigger params scheduledFor => ReadsAs calendar (recordOrEmpty params) scheduledFor
  | .webhookTrigger params _ _ => ReadsAs calendar (recordOrEmpty params) now
  | .approvalDecision .. | .approvalFanOut _ => False
  | .generatedScenario .. => True

theorem requireObject_eq_ok {value : Option Json} {reason : String} {fields : List (String × Json)}
    (required : requireObject value reason = .ok fields) : recordOrEmpty value = fields := by
  unfold requireObject at required
  split at required
  · cases required
    rfl
  · cases required

/-- An instant taken from the parameters is read as it is written there. -/
theorem readsAs_paramsAsOf {strict : String → Bool} {now asOf : String} {params : List (String × Json)}
    (taken : paramsAsOf strict now params = .ok asOf) :
    ReadsAs calendar params asOf ↔ (Json.lookup "as_of" params).isSome = true := by
  unfold paramsAsOf at taken
  unfold ReadsAs
  cases found : Json.lookup "as_of" params with
  | none => simp
  | some value =>
    cases value with
    | str text =>
      simp only [found] at taken
      split at taken
      · cases taken
        exact ⟨fun _ => rfl, fun _ => ⟨_, rfl, rfl⟩⟩
      · cases taken
    | null | bool value | num value | arr items | obj fields =>
      rw [found] at taken
      cases taken

theorem readsAs_input_iff {now : String} {request : RunRequest calendar} {input : CreateRunInTxInput}
    (handed : request.input calendar now = .ok input) :
    ReadsAs calendar input.params input.asOf ↔ request.CarriesAsOf now := by
  cases request with
  | createRun params | webAttended params | rerunEditedInput params =>
    simp only [RunRequest.input, bind_eq_ok, pure, Except.pure, Except.ok.injEq] at handed
    obtain ⟨fields, required, asOf, taken, rfl⟩ := handed
    rw [readsAs_paramsAsOf taken, RunRequest.CarriesAsOf, requireObject_eq_ok required]
  | rerunSameInput source =>
    simp only [RunRequest.input, bind_eq_ok, pure, Except.pure, Except.ok.injEq] at handed
    obtain ⟨fields, coerced, rfl⟩ := handed
    have same : recordOrEmpty source.params = fields := by
      unfold coerceParams at coerced
      split at coerced <;> simp_all [recordOrEmpty]
    rw [RunRequest.CarriesAsOf, same]
  | cronTrigger params scheduledFor =>
    cases handed
    rfl
  | webhookTrigger params eventId payload =>
    cases handed
    simp [RunRequest.CarriesAsOf, ReadsAs, Json.lookup_assign]
  | approvalDecision docRef decision reason =>
    cases handed
    cases reason <;> simp [RunRequest.CarriesAsOf, ReadsAs, Json.lookup]
  | approvalFanOut row =>
    cases handed
    have none : Json.lookup "as_of" row.params = none := by
      unfold FanOutRow.params
      cases (textOf row.row "drafted_at").filter (· ≠ "") <;> simp [Json.lookup]
    simp [RunRequest.CarriesAsOf, ReadsAs, none]
  | generatedScenario params startUrl =>
    cases handed
    simp [RunRequest.CarriesAsOf, ReadsAs, Json.lookup_assign]

/-- The conditions of every run that a request creates see the instant of the row exactly
if the request carries it in its parameters. -/
theorem asOf_visible_iff (calendar : Calendar) (now : String) (request : RunRequest calendar)
    (input : CreateRunInTxInput) (row : RunRow calendar) (handed : request.input calendar now = .ok input)
    (created : createRunInTx calendar input = some row) :
    (∀ deps, DrivesRow calendar row deps → ∀ pageState inputs,
      Throughout (runStep deps) (AsOfVisible calendar row) (claimedRun deps pageState) inputs) ↔
      request.CarriesAsOf now := by
  rw [asOfVisible_iff created, readsAs_input_iff handed]

/-- A calendar that takes every text for its own instant. -/
def textCalendar : Calendar where
  Instant := String
  timestamptz := some
  toISOString := id
  isDate := fun _ => true

theorem asOf_visible_iff_cron :
    ∃ input row, RunRequest.input textCalendar "2026-06-01T00:00:00.000Z"
        (.cronTrigger (some (.obj [])) "2026-06-01T00:00:00.000Z") = .ok input ∧
      createRunInTx textCalendar input = some row ∧
      ((∀ deps, DrivesRow textCalendar row deps → ∀ pageState inputs,
        Throughout (runStep deps) (AsOfVisible textCalendar row) (claimedRun deps pageState) inputs) ↔
        @RunRequest.CarriesAsOf textCalendar "2026-06-01T00:00:00.000Z"
          (.cronTrigger (some (.obj [])) "2026-06-01T00:00:00.000Z")) :=
  ⟨_, _, rfl, rfl, asOf_visible_iff textCalendar _ _ _ _ rfl rfl⟩

/-- A run of a schedule without parameters: its instant is stored, and a condition that
reads `params.as_of` finds nothing. -/
theorem cron_asOf_missing :
    ∃ input row, RunRequest.input textCalendar "2026-06-01T00:00:00.000Z"
        (.cronTrigger (some (.obj [])) "2026-06-01T00:00:00.000Z") = .ok input ∧
      createRunInTx textCalendar input = some row ∧ row.asOf = some "2026-06-01T00:00:00.000Z" ∧
      ∃ scope, .evaluated "check" scope ∈ (exec (runStep (oneCondition (normalizeRunParams row.params)))
          (claimedRun (oneCondition (normalizeRunParams row.params)) blankPage) evaluateOnce).log ∧
        resolveRuntimeVariable ["params", "as_of"] scope = .error (.missing "params.as_of") := by
  refine ⟨_, _, rfl, rfl, rfl, ?_⟩
  obtain ⟨scope, evaluated, params⟩ := oneCondition_evaluated (some (.obj []))
  refine ⟨scope, evaluated, ?_⟩
  simp [resolveRuntimeVariable, readScalar, readRuntimePath, params, ownPath, Json.lookup, Text.join, bind,
    Except.bind]

end RpaEnterprise.Interpreter
