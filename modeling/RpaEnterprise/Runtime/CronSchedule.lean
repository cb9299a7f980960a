import RpaEnterprise.Lib.Results
import RpaEnterprise.Lib.Text

/-!
# Cron schedules

A cron expression names the minutes, hours, days and months at which it fires.
The next fire after an instant is found by walking the minutes after it, for
five years at most, and reading each of them in the time zone of the trigger.
-/

namespace RpaEnterprise.Runtime.CronSchedule

open Lib

inductive CronFieldName where
  | minute | hour | dayOfMonth | month | dayOfWeek
deriving Repr, DecidableEq

structure CronFieldSpec where
  name : CronFieldName
  min : Nat
  max : Nat

def minuteSpec : CronFieldSpec := ⟨.minute, 0, 59⟩

def hourSpec : CronFieldSpec := ⟨.hour, 0, 23⟩

def dayOfMonthSpec : CronFieldSpec := ⟨.dayOfMonth, 1, 31⟩

def monthSpec : CronFieldSpec := ⟨.month, 1, 12⟩

def dayOfWeekSpec : CronFieldSpec := ⟨.dayOfWeek, 0, 7⟩

structure CronScheduleError where
  reason : String
  field : Option CronFieldName := none
deriving Repr, DecidableEq

structure ParsedCronField where
  values : List Nat
  wildcard : Bool
deriving Repr, DecidableEq

structure ParsedCronExpression where
  minute : ParsedCronField
  hour : ParsedCronField
  dayOfMonth : ParsedCronField
  month : ParsedCronField
  dayOfWeek : ParsedCronField
deriving Repr, DecidableEq

/-! ## Parsing -/

def parseInteger (token : List Char) (spec : CronFieldSpec) (reason : String) :
    Except CronScheduleError Nat :=
  if token.isEmpty || !token.all Char.isDigit then .error ⟨reason, spec.name⟩
  else
    let parsed := token.foldl (fun value digit => 10 * value + (digit.toNat - '0'.toNat)) 0
    if parsed < spec.min ∨ spec.max < parsed then .error ⟨reason, spec.name⟩ else .ok parsed

def parseRange (token : List Char) (spec : CronFieldSpec) : Except CronScheduleError (Nat × Nat) :=
  if token = ['*'] then .ok (spec.min, spec.max)
  else
    match token.splitOn '-' with
    | [start] =>
      if start.isEmpty then .error ⟨"invalid_range", spec.name⟩
      else (parseInteger start spec "invalid_number").map fun value => (value, value)
    | [start, stop] =>
      if start.isEmpty then .error ⟨"invalid_range", spec.name⟩
      else do
        let first ← parseInteger start spec "invalid_number"
        let last ← parseInteger stop spec "invalid_number"
        if last < first then .error ⟨"descending_range", spec.name⟩ else .ok (first, last)
    | _ => .error ⟨"invalid_range", spec.name⟩

/-- Sunday is 0 and 7. -/
def normalizeValue (value : Nat) (spec : CronFieldSpec) : Nat :=
  if spec.name = .dayOfWeek ∧ value = 7 then 0 else value

def fieldCardinality (spec : CronFieldSpec) : Nat :=
  if spec.name = .dayOfWeek then 7 else spec.max - spec.min + 1

/-- The values of a range, `step` apart. -/
def addValues (values : List Nat) (spec : CronFieldSpec) (first last step : Nat) : List Nat :=
  (List.range ((last - first) / step + 1)).foldl
    (fun values index => values.insert (normalizeValue (first + index * step) spec)) values

def addRange (values : List Nat) (range : List Char) (step : Nat) (spec : CronFieldSpec) :
    Except CronScheduleError (List Nat) :=
  (parseRange range spec).map fun bounds => addValues values spec bounds.1 bounds.2 step

def addPart (values : List Nat) (part : List Char) (spec : CronFieldSpec) :
    Except CronScheduleError (List Nat) :=
  match part.splitOn '/' with
  | [range] =>
    if range.isEmpty then .error ⟨"invalid_step_syntax", spec.name⟩ else addRange values range 1 spec
  | [range, stepToken] =>
    if range.isEmpty then .error ⟨"invalid_step_syntax", spec.name⟩
    else do
      let step ← parseInteger stepToken spec "invalid_step"
      if step < 1 then .error ⟨"invalid_step", spec.name⟩ else addRange values range step spec
  | _ => .error ⟨"invalid_step_syntax", spec.name⟩

def addParts (spec : CronFieldSpec) : List Nat → List (List Char) → Except CronScheduleError (List Nat)
  | values, [] => .ok values
  | values, part :: rest => (addPart values part spec).bind fun values => addParts spec values rest

def parseField (raw : List Char) (spec : CronFieldSpec) : Except CronScheduleError ParsedCronField :=
  if raw.isEmpty then .error ⟨"empty_field", spec.name⟩
  else do
    let values ← addParts spec [] (raw.splitOn ',')
    if values.isEmpty then .error ⟨"empty_value_set", spec.name⟩
    else .ok ⟨values, values.length == fieldCardinality spec⟩

def maxDay (month : Nat) : Nat :=
  if month = 2 then 29 else if month ∈ [4, 6, 9, 11] then 30 else 31

def hasPossibleDayOfMonth (days months : List Nat) : Bool :=
  months.any fun month => days.any fun day => day ≤ maxDay month

/-- `expression.trim().split(/\s+/)`. -/
def cronFields (expression : String) : List (List Char) :=
  (expression.toList.splitOnP Text.isSpace).filter fun field => !field.isEmpty

def checkDays (parsed : ParsedCronExpression) : Except CronScheduleError ParsedCronExpression :=
  if !parsed.dayOfMonth.wildcard && !parsed.dayOfWeek.wildcard then
    .error ⟨"day_of_month_and_day_of_week_both_specific", none⟩
  else if !parsed.dayOfMonth.wildcard && !parsed.month.wildcard &&
      !hasPossibleDayOfMonth parsed.dayOfMonth.values parsed.month.values then
    .error ⟨"impossible_day_of_month", some .dayOfMonth⟩
  else .ok parsed

def parseCronExpression (expression : String) : Except CronScheduleError ParsedCronExpression :=
  match cronFields expression with
  | [minute, hour, dayOfMonth, month, dayOfWeek] => do
    let minute ← parseField minute minuteSpec
    let hour ← parseField hour hourSpec
    let dayOfMonth ← parseField dayOfMonth dayOfMonthSpec
    let month ← parseField month monthSpec
    let dayOfWeek ← parseField dayOfWeek dayOfWeekSpec
    checkDays ⟨minute, hour, dayOfMonth, month, dayOfWeek⟩
  | _ => .error ⟨"expected_five_fields", none⟩

/-! ## The next fire -/

structure LocalDateParts where
  month : Nat
  day : Nat
  hour : Nat
  minute : Nat
  dayOfWeek : Nat

/-- Time zones: what a clock there shows at an instant. -/
abbrev Zones := String → Option (Int → LocalDateParts)

def minuteMs : Int := 60000

def maxLookaheadDays : Nat := 366 * 5

def CronMatches (schedule : ParsedCronExpression) (parts : LocalDateParts) : Bool :=
  schedule.minute.values.contains parts.minute && schedule.hour.values.contains parts.hour &&
    schedule.dayOfMonth.values.contains parts.day && schedule.month.values.contains parts.month &&
    schedule.dayOfWeek.values.contains parts.dayOfWeek

/-- The first of the next candidates that passes the test, a minute apart. -/
def firstMatch (test : Int → Bool) : Nat → Int → Option Int
  | 0, _ => none
  | more + 1, candidate =>
    if test candidate then some candidate else firstMatch test more (candidate + minuteMs)

def startMs (after : Int) : Int := after / minuteMs * minuteMs + minuteMs

def nextCronFireAfter (zones : Zones) (expression timezone : String) (after : Int) :
    Except CronScheduleError Int := do
  let schedule ← parseCronExpression expression
  match zones timezone with
  | none => .error ⟨"invalid_timezone", none⟩
  | some localParts =>
    match firstMatch (fun instant => CronMatches schedule (localParts instant))
      (maxLookaheadDays * 24 * 60 + 1) (startMs after) with
    | some next => .ok next
    | none => .error ⟨"no_fire_within_lookahead", none⟩

theorem lt_startMs (after : Int) : after < startMs after := by
  unfold startMs minuteMs
  omega

/-- The walk stops at the first minute that passes. -/
theorem firstMatch_eq_some {test : Int → Bool} {more : Nat} {candidate next : Int}
    (found : firstMatch test more candidate = some next) :
    ∃ minutes : Nat, minutes < more ∧ next = candidate + minutes * minuteMs ∧ test next = true ∧
      ∀ earlier : Nat, earlier < minutes → test (candidate + earlier * minuteMs) = false := by
  induction more generalizing candidate with
  | zero => cases found
  | succ more ih =>
    unfold firstMatch at found
    by_cases passes : test candidate = true
    · rw [if_pos passes] at found
      cases found
      exact ⟨0, by omega, by simp, passes, fun earlier none => absurd none (Nat.not_lt_zero earlier)⟩
    · rw [if_neg passes] at found
      obtain ⟨minutes, within, reached, passed, before⟩ := ih found
      refine ⟨minutes + 1, by omega, ?_, passed, fun earlier sooner => ?_⟩
      · unfold minuteMs at reached ⊢
        omega
      · cases earlier with
        | zero => simpa using passes
        | succ earlier =>
          have failed := before earlier (by omega)
          have shift : candidate + (earlier + 1 : Nat) * minuteMs =
              candidate + minuteMs + earlier * minuteMs := by
            unfold minuteMs
            omega
          rwa [shift]

/-- The next fire is the first whole minute after the instant at which the
clock of the zone shows a time of the schedule. -/
structure NextFire (schedule : ParsedCronExpression) (localParts : Int → LocalDateParts)
    (after next : Int) : Prop where
  later : after < next
  whole : next % minuteMs = 0
  fires : CronMatches schedule (localParts next) = true
  first : ∀ instant, after < instant → instant < next → instant % minuteMs = 0 →
    CronMatches schedule (localParts instant) = false

theorem nextCronFireAfter_eq_ok {zones : Zones} {expression timezone : String} {after next : Int}
    (found : nextCronFireAfter zones expression timezone after = .ok next) :
    ∃ schedule localParts, parseCronExpression expression = .ok schedule ∧
      zones timezone = some localParts ∧ NextFire schedule localParts after next := by
  obtain ⟨schedule, parsed, rest⟩ := bind_eq_ok.mp found
  split at rest
  · cases rest
  · rename_i localParts zone
    split at rest
    · rename_i next' walked
      cases rest
      obtain ⟨minutes, -, reached, fires, before⟩ := firstMatch_eq_some walked
      refine ⟨schedule, localParts, parsed, zone, ?_, ?_, fires, fun instant later sooner whole => ?_⟩
      · have start := lt_startMs after
        unfold minuteMs at reached
        omega
      · unfold startMs minuteMs at reached
        unfold minuteMs
        omega
      · -- a whole minute between the two is one the walk has passed
        have earlier : instant = startMs after +
            ((instant - startMs after) / minuteMs).toNat * minuteMs := by
          unfold startMs minuteMs at *
          omega
        rw [earlier]
        apply before
        unfold startMs minuteMs at *
        omega
    · cases rest

end RpaEnterprise.Runtime.CronSchedule
