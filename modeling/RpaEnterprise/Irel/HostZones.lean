import Mathlib.Logic.Relation
import Mathlib.Tactic.Linarith
import RpaEnterprise.Irel.Evaluate

/-!
# Expressions on hosts in different time zones

`Date.parse` reads a calendar date as midnight UTC and a string with an offset as
an instant; everything else the engine accepts is a wall clock time of the host.
The date functions refuse a string with a `t` in it that does not end like an
offset.  That leaves wall clock times without a `t`, such as
`2024-01-02 10:00`, and strings whose last part only looks like an offset.  Such a
time matters where it is compared with a date so near to it that the offset of
the host decides.
-/

namespace RpaEnterprise.Irel

open Lib

/-! ## Engines and zones -/

/-- How an engine reads a string: an instant, or a wall clock time. -/
inductive Reading where
  | instant (millis : Rat)
  | wall (millis : Rat)
deriving DecidableEq

def digits (chars : List Char) : Option Nat :=
  if chars.all Char.isDigit then some (chars.foldl (fun sum char => 10 * sum + (char.toNat - 48)) 0)
  else none

/-- Days from the first of January 1970 to a date of the civil calendar. -/
def civilDays (year month day : Nat) : Int :=
  let shifted := if month ≤ 2 then year - 1 else year
  let era := shifted / 400
  let yearOfEra := shifted % 400
  let dayOfYear := (153 * (if 2 < month then month - 3 else month + 9) + 2) / 5 + (day - 1)
  let dayOfEra := yearOfEra * 365 + yearOfEra / 4 - yearOfEra / 100 + dayOfYear
  (era * 146097 + dayOfEra : Int) - 719468

/-- `YYYY-MM-DD` at the start, as milliseconds, with what follows. -/
def isoDate : List Char → Option (Rat × List Char)
  | y1 :: y2 :: y3 :: y4 :: '-' :: m1 :: m2 :: '-' :: d1 :: d2 :: rest => do
    let year ← digits [y1, y2, y3, y4]
    let month ← digits [m1, m2]
    let day ← digits [d1, d2]
    pure (((civilDays year month day * 86400000 : Int) : Rat), rest)
  | _ => none

/-- `HH:MM` at the start, as milliseconds, with what follows. -/
def isoTime : List Char → Option (Rat × List Char)
  | h1 :: h2 :: ':' :: m1 :: m2 :: rest => do
    let hour ← digits [h1, h2]
    let minute ← digits [m1, m2]
    pure (((hour * 60 + minute) * 60000 : Nat), rest)
  | _ => none

/-- A calendar date. -/
def IsoDay (text : String) : Prop := ∃ day, isoDate text.toList = some (day, [])

/-- A date and time in UTC. -/
def IsoZoned (text : String) : Prop :=
  ∃ day rest time, isoDate text.toList = some (day, 'T' :: rest) ∧ isoTime rest = some (time, ['Z'])

/-- An engine: what its `Date.parse` accepts, and how. -/
structure DateEngine where
  read : String → Option Reading
  dayIsInstant : ∀ text, IsoDay text → ∀ wall, read text ≠ some (.wall wall)
  zonedIsInstant : ∀ text, IsoZoned text → ∀ wall, read text ≠ some (.wall wall)

def dayMillis : Rat := 86400000

/-- The time zone of a host: the offset in force at a wall clock time, which is
less than a day. -/
structure HostZone where
  offset : Rat → Rat
  bounded : ∀ wall, |offset wall| < dayMillis

def HostZone.fixed (offset : Rat) (bounded : |offset| < dayMillis) : HostZone :=
  ⟨fun _ => offset, fun _ => bounded⟩

/-- The instant of a reading on a host. -/
def HostZone.millis (host : HostZone) : Reading → Rat
  | .instant millis => millis
  | .wall wall => wall - host.offset wall

/-- `Date.parse` on a host. -/
def DateEngine.parse (engine : DateEngine) (host : HostZone) (text : String) : Option Rat :=
  (engine.read text).map host.millis

def DateEngine.evaluate (engine : DateEngine) (host : HostZone) (scope : IrelScope) (node : IrelNode) :
    Evaluated IrelValue :=
  evaluateIrelExpression (engine.parse host) scope node

/-! ## Comparisons -/

/-- No offset decides which of the readings comes first. -/
def Steady : Reading → Reading → Prop
  | .instant _, .instant _ => True
  | .wall wall, .instant millis => dayMillis ≤ |wall - millis|
  | .instant millis, .wall wall => dayMillis ≤ |wall - millis|
  | .wall one, .wall two => one = two ∨ 2 * dayMillis ≤ |one - two|

variable {name : String} {one two : Reading}

theorem Steady.symm (steady : Steady one two) : Steady two one := by
  cases one <;> cases two
  · exact steady
  · exact steady
  · exact steady
  · exact steady.imp Eq.symm fun far => by rwa [abs_sub_comm]

/-- Two hosts of which only the second shifts a time before another. -/
theorem exists_offsets {gap limit : Rat} (near : |gap| < limit) :
    ∃ later, |later| < limit ∧ gap < later := by
  obtain ⟨low, high⟩ := abs_lt.mp near
  exact ⟨(gap + limit) / 2, abs_lt.mpr ⟨by linarith, by linarith⟩, by linarith⟩

theorem steady_of_agrees
    (agrees : ∀ here there : HostZone, here.millis one < here.millis two ↔ there.millis one < there.millis two) :
    Steady one two := by
  cases one with
  | instant millis =>
    cases two with
    | instant other => trivial
    | wall wall =>
      by_contra near
      rw [Steady, not_le] at near
      obtain ⟨later, bounded, less⟩ := exists_offsets (abs_sub_comm wall millis ▸ near)
      have split := agrees (.fixed (wall - millis) near) (.fixed (-later) (by rwa [abs_neg]))
      simp only [HostZone.millis, HostZone.fixed] at split
      have after : millis < wall - -later := by linarith
      linarith [split.mpr after]
  | wall wall =>
    cases two with
    | instant millis =>
      by_contra near
      rw [Steady, not_le] at near
      obtain ⟨later, bounded, less⟩ := exists_offsets near
      have split := agrees (.fixed (wall - millis) near) (.fixed later bounded)
      simp only [HostZone.millis, HostZone.fixed] at split
      have before : wall - later < millis := by linarith
      linarith [split.mpr before]
    | wall other =>
      by_contra unsteady
      rw [Steady, not_or, not_le] at unsteady
      obtain ⟨differ, near⟩ := unsteady
      -- The offset changes between the two times by what lies between them, and by more.
      have half : |(wall - other) / 2| < dayMillis := by
        rw [abs_div, abs_two]
        linarith
      have halfBack : |-((wall - other) / 2)| < dayMillis := by rwa [abs_neg]
      obtain ⟨later, bounded, less⟩ := exists_offsets half
      have split := agrees
        ⟨fun time => if time = wall then (wall - other) / 2 else -((wall - other) / 2), fun time => by
          split <;> assumption⟩
        ⟨fun time => if time = wall then later else -((wall - other) / 2), fun time => by
          split <;> assumption⟩
      simp only [HostZone.millis, if_true, if_neg (Ne.symm differ)] at split
      have before : wall - later < other - -((wall - other) / 2) := by linarith
      linarith [split.mpr before]

theorem Steady.agrees (steady : Steady one two) (here there : HostZone) :
    here.millis one < here.millis two ↔ there.millis one < there.millis two := by
  cases one with
  | instant millis =>
    cases two with
    | instant other => rfl
    | wall wall =>
      obtain ⟨low, high⟩ := abs_lt.mp (here.bounded wall)
      obtain ⟨low', high'⟩ := abs_lt.mp (there.bounded wall)
      simp only [HostZone.millis]
      rcases le_abs.mp steady with far | far <;> constructor <;> intro before <;> linarith
  | wall wall =>
    obtain ⟨low, high⟩ := abs_lt.mp (here.bounded wall)
    obtain ⟨low', high'⟩ := abs_lt.mp (there.bounded wall)
    cases two with
    | instant millis =>
      simp only [HostZone.millis]
      rcases le_abs.mp steady with far | far <;> constructor <;> intro before <;> linarith
    | wall other =>
      obtain ⟨otherLow, otherHigh⟩ := abs_lt.mp (here.bounded other)
      obtain ⟨otherLow', otherHigh'⟩ := abs_lt.mp (there.bounded other)
      simp only [HostZone.millis]
      rcases steady with rfl | far
      · simp
      · rcases le_abs.mp far with far | far <;> constructor <;> intro before <;> linarith

/-! ## Date arguments -/

/-- The reading of an argument that is a string the date functions let through. -/
def dateReading (engine : DateEngine) : Evaluated IrelValue → Option Reading
  | .ok (.str text) => if mentionsTime text && !hasOffset text then none else engine.read text
  | _ => none

section Hosts

variable {engine : DateEngine} {scope : IrelScope} {here there : HostZone}

theorem runtimeDateMillis_of_reading {argument : Evaluated IrelValue} {reading : Reading}
    (read : dateReading engine argument = some reading) (host : HostZone) (detail : String) :
    runtimeDateMillis (engine.parse host) argument detail = .ok (host.millis reading) := by
  unfold dateReading at read
  split at read
  · split at read
    · cases read
    · rename_i passes
      simp [runtimeDateMillis, expectRuntimeString, DateEngine.parse, read, bind, Except.bind, pure,
        Except.pure, passes]
  · cases read

theorem runtimeDateMillis_of_none {argument : Evaluated IrelValue} (unread : dateReading engine argument = none)
    (detail : String) : ∃ missing, ∀ host : HostZone,
      runtimeDateMillis (engine.parse host) argument detail = .error missing := by
  cases argument with
  | error missing => exact ⟨missing, fun _ => rfl⟩
  | ok value =>
    cases value with
    | str text =>
      simp only [dateReading] at unread
      split at unread
      · rename_i refused
        exact ⟨_, fun _ => by
          simp [runtimeDateMillis, expectRuntimeString, bind, Except.bind, refused]; rfl⟩
      · rename_i passes
        exact ⟨_, fun _ => by
          simp [runtimeDateMillis, expectRuntimeString, DateEngine.parse, unread, bind, Except.bind,
            passes]; rfl⟩
    | num number => exact ⟨_, fun _ => rfl⟩
    | bool answer => exact ⟨_, fun _ => rfl⟩
    | null => exact ⟨_, fun _ => rfl⟩

theorem evaluateDates_of_readings {test : Rat → Rat → Bool} {first second : Evaluated IrelValue}
    (readOne : dateReading engine first = some one)
    (readTwo : dateReading engine second = some two) (host : HostZone) :
    evaluateDates (engine.parse host) name test first second =
      .ok (.bool (test (host.millis one) (host.millis two))) := by
  rw [evaluateDates, runtimeDateMillis_of_reading readOne, runtimeDateMillis_of_reading readTwo]
  rfl

theorem evaluateDates_agrees {test : Rat → Rat → Bool} {first second : Evaluated IrelValue}
    (tests : ∀ one two, dateReading engine first = some one → dateReading engine second = some two →
      test (here.millis one) (here.millis two) = test (there.millis one) (there.millis two)) :
    evaluateDates (engine.parse here) name test first second =
      evaluateDates (engine.parse there) name test first second := by
  cases readOne : dateReading engine first with
  | none =>
    obtain ⟨missing, fails⟩ := runtimeDateMillis_of_none readOne s!"{name} argument 1"
    rw [evaluateDates, evaluateDates, fails, fails]
    rfl
  | some one =>
    cases readTwo : dateReading engine second with
    | none =>
      obtain ⟨missing, fails⟩ := runtimeDateMillis_of_none readTwo s!"{name} argument 2"
      rw [evaluateDates, evaluateDates, fails, fails, runtimeDateMillis_of_reading readOne,
        runtimeDateMillis_of_reading readOne]
      rfl
    | some two =>
      rw [evaluateDates_of_readings readOne readTwo, evaluateDates_of_readings readOne readTwo,
        tests one two readOne readTwo]

/-! ## What is evaluated -/

/-- The number of arguments of a function. -/
def arityOf : String → Option Nat
  | "len" | "is_null" => some 1
  | "coalesce" | "date_before" | "date_after" | "starts_with" | "contains" => some 2
  | _ => none

def comparesDates (name : String) : Bool := name = "date_before" || name = "date_after"

def operands : IrelNode → List IrelNode
  | .literal .. | .var .. => []
  | .unary expr _ => [expr]
  | .binary _ left right _ | .compare _ left right _ | .logical _ left right _ => [left, right]
  | .call name args _ => if arityOf name = some args.length then args else []

theorem operands_two (arity : arityOf name = some 2) (first second : IrelNode) (grouped : Bool) :
    operands (.call name [first, second] grouped) = [first, second] := if_pos arity

/-- The second operand is evaluated after the first one gave this. -/
def goesOn (engine : DateEngine) (node : IrelNode) (first : Evaluated IrelValue) : Bool :=
  match node, first with
  | .binary .., .ok (.num _) | .logical .., .ok (.bool _) | .compare .., .ok _ => true
  | .call name _ _, .ok value =>
    if name = "coalesce" then value = .null
    else if comparesDates name then (dateReading engine (.ok value)).isSome
    else runtimeTypeOf value = .string
  | _, _ => false

/-- The operands of a node that are evaluated, on a host. -/
def evaluatedIn (engine : DateEngine) (host : HostZone) (scope : IrelScope) (node : IrelNode) :
    List IrelNode :=
  match operands node with
  | [first, second] =>
    first :: if goesOn engine node (engine.evaluate host scope first) then [second] else []
  | others => others

/-- The evaluation of the first expression evaluates the second. -/
def Reaches (engine : DateEngine) (host : HostZone) (scope : IrelScope) : IrelNode → IrelNode → Prop :=
  Relation.ReflTransGen fun node operand => operand ∈ evaluatedIn engine host scope node

/-- The evaluation of an expression compares two dates. -/
def Compares (engine : DateEngine) (host : HostZone) (scope : IrelScope) (ast : IrelNode)
    (one two : Reading) : Prop :=
  ∃ name first second grouped, comparesDates name = true ∧
    Reaches engine host scope ast (.call name [first, second] grouped) ∧
    dateReading engine (engine.evaluate host scope first) = some one ∧
    dateReading engine (engine.evaluate host scope second) = some two

variable (engine scope) in
/-- The same value or the same error on every two hosts. -/
def HostIndependent (node : IrelNode) : Prop :=
  ∀ here there, engine.evaluate here scope node = engine.evaluate there scope node

theorem operands_induct {motive : IrelNode → Prop}
    (node : ∀ node, (∀ operand ∈ operands node, motive operand) → motive node) (ast : IrelNode) :
    motive ast := by
  induction ast using IrelNode.induct with
  | literal valueType value grouped => exact node _ (by simp [operands])
  | var path grouped => exact node _ (by simp [operands])
  | call name args grouped ih =>
    refine node _ fun operand member => ih operand ?_
    rw [operands] at member
    split at member
    · exact member
    · cases member
  | unary expr grouped ih => exact node _ (by simpa [operands] using ih)
  | binary op left right grouped leftIh rightIh => exact node _ (by simp [operands, leftIh, rightIh])
  | compare op left right grouped leftIh rightIh => exact node _ (by simp [operands, leftIh, rightIh])
  | logical op left right grouped leftIh rightIh => exact node _ (by simp [operands, leftIh, rightIh])

theorem binaryCall_agrees
    {one two : Evaluated IrelValue → Evaluated IrelValue → Evaluated IrelValue} {args : List IrelNode}
    (agrees : ∀ first second, args = [first, second] →
      one (engine.evaluate here scope first) (engine.evaluate here scope second) =
        two (engine.evaluate there scope first) (engine.evaluate there scope second)) :
    binaryCall name one (evaluateArgs (engine.parse here) scope args) =
      binaryCall name two (evaluateArgs (engine.parse there) scope args) := by
  match args with
  | [first, second] => exact agrees first second rfl
  | [] => rfl
  | [_] => rfl
  | _ :: _ :: _ :: _ => simp [evaluateArgs_eq_map, binaryCall]

theorem unaryCall_agrees {body : Evaluated IrelValue → Evaluated IrelValue} {args : List IrelNode}
    (agrees : ∀ argument, args = [argument] →
      engine.evaluate here scope argument = engine.evaluate there scope argument) :
    unaryCall name body (evaluateArgs (engine.parse here) scope args) =
      unaryCall name body (evaluateArgs (engine.parse there) scope args) := by
  match args with
  | [argument] => exact congrArg body (agrees argument rfl)
  | [] => rfl
  | _ :: _ :: _ => simp [evaluateArgs_eq_map, unaryCall]

theorem goesOn_dates (compares : comparesDates name = true) (args : List IrelNode) (grouped : Bool)
    (first : Evaluated IrelValue) :
    goesOn engine (.call name args grouped) first = (dateReading engine first).isSome := by
  cases first with
  | error missing => rfl
  | ok value =>
    have other : name ≠ "coalesce" := by
      rintro rfl
      cases compares
    simp [goesOn, compares, other]

/-- A date comparison agrees if its first argument does, its second where the first is read,
and no offset decides. -/
theorem dateCall_agrees {test : Rat → Rat → Bool} {first second : IrelNode}
    (firstAgrees : engine.evaluate here scope first = engine.evaluate there scope first)
    (secondAgrees : (dateReading engine (engine.evaluate here scope first)).isSome = true →
      engine.evaluate here scope second = engine.evaluate there scope second)
    (tests : ∀ one two, dateReading engine (engine.evaluate here scope first) = some one →
      dateReading engine (engine.evaluate here scope second) = some two →
      test (here.millis one) (here.millis two) = test (there.millis one) (there.millis two)) :
    evaluateDates (engine.parse here) name test (engine.evaluate here scope first)
        (engine.evaluate here scope second) =
      evaluateDates (engine.parse there) name test (engine.evaluate there scope first)
        (engine.evaluate there scope second) := by
  rw [← firstAgrees]
  cases read : dateReading engine (engine.evaluate here scope first) with
  | none =>
    obtain ⟨missing, fails⟩ := runtimeDateMillis_of_none read s!"{name} argument 1"
    rw [evaluateDates, evaluateDates, fails, fails]
    rfl
  | some one =>
    rw [← secondAgrees (by rw [read]; rfl)]
    exact evaluateDates_agrees tests

theorem evaluateStrings_agrees {test : String → String → Bool}
    {first second first' second' : Evaluated IrelValue}
    (firstAgrees : first = first') (secondAgrees : ∀ text, first = .ok (.str text) → second = second') :
    evaluateStrings name test first second = evaluateStrings name test first' second' := by
  subst firstAgrees
  cases first with
  | error missing => rfl
  | ok value =>
    cases value with
    | str text => rw [secondAgrees text rfl]
    | _ => rfl

/-- A node is a function of those of its operands that are evaluated, and of the host only
in a comparison of dates that is not steady. -/
theorem evaluate_agrees {node : IrelNode}
    (firstAgrees : ∀ first rest, operands node = first :: rest →
      engine.evaluate here scope first = engine.evaluate there scope first)
    (secondAgrees : ∀ first second, operands node = [first, second] →
      goesOn engine node (engine.evaluate here scope first) = true →
      engine.evaluate here scope second = engine.evaluate there scope second)
    (steady : ∀ name first second grouped, node = .call name [first, second] grouped →
      comparesDates name = true → ∀ one two,
      dateReading engine (engine.evaluate here scope first) = some one →
      dateReading engine (engine.evaluate here scope second) = some two → Steady one two) :
    engine.evaluate here scope node = engine.evaluate there scope node := by
  unfold DateEngine.evaluate at *
  cases node with
  | literal valueType value grouped => simp only [evaluateIrelExpression]
  | var path grouped => simp only [evaluateIrelExpression]
  | unary expr grouped => simp only [evaluateIrelExpression, firstAgrees expr [] rfl]
  | binary op left right grouped =>
    have agrees := secondAgrees left right rfl
    simp only [evaluateIrelExpression]
    rw [firstAgrees left [right] rfl] at agrees ⊢
    cases found : evaluateIrelExpression (engine.parse there) scope left with
    | error missing => simp only [evaluateAdditive, bind, Except.bind]
    | ok value =>
      cases value with
      | num number => rw [agrees (by rw [found]; rfl)]
      | _ => simp only [evaluateAdditive, expectRuntimeNumber, bind, Except.bind]
  | compare op left right grouped =>
    have agrees := secondAgrees left right rfl
    simp only [evaluateIrelExpression]
    rw [firstAgrees left [right] rfl] at agrees ⊢
    cases found : evaluateIrelExpression (engine.parse there) scope left with
    | error missing => simp only [evaluateCompare, bind, Except.bind]
    | ok value => rw [agrees (by rw [found]; rfl)]
  | logical op left right grouped =>
    have agrees := secondAgrees left right rfl
    simp only [evaluateIrelExpression]
    rw [firstAgrees left [right] rfl] at agrees ⊢
    cases found : evaluateIrelExpression (engine.parse there) scope left with
    | error missing => simp only [evaluateLogical, bind, Except.bind]
    | ok value =>
      cases value with
      | bool answer => rw [agrees (by rw [found]; rfl)]
      | _ => simp only [evaluateLogical, expectRuntimeBoolean, bind, Except.bind]
  | call name args grouped =>
    simp only [evaluateIrelExpression, evaluateCall]
    split
    · exact unaryCall_agrees fun argument same => firstAgrees argument [] (by simp [same, operands, arityOf])
    · exact unaryCall_agrees fun argument same => firstAgrees argument [] (by simp [same, operands, arityOf])
    · refine binaryCall_agrees fun first second same => ?_
      subst same
      have agrees := secondAgrees first second (operands_two rfl ..)
      simp only [DateEngine.evaluate]
      rw [firstAgrees first [second] (operands_two rfl ..)] at agrees ⊢
      cases found : evaluateIrelExpression (engine.parse there) scope first with
      | error missing => simp only [evaluateCoalesce, bind, Except.bind]
      | ok value =>
        cases value with
        | null => rw [agrees (by simp [found, goesOn])]
        | _ => simp [evaluateCoalesce, bind, Except.bind]
    · refine binaryCall_agrees fun first second same => ?_
      subst same
      refine dateCall_agrees (firstAgrees first [second] (operands_two rfl ..))
        (fun read => secondAgrees first second (operands_two rfl ..) ((goesOn_dates rfl _ _ _).trans read))
        fun one two readOne readTwo => decide_eq_decide.mpr ?_
      exact (steady _ _ _ _ rfl rfl one two readOne readTwo).agrees here there
    · refine binaryCall_agrees fun first second same => ?_
      subst same
      refine dateCall_agrees (firstAgrees first [second] (operands_two rfl ..))
        (fun read => secondAgrees first second (operands_two rfl ..) ((goesOn_dates rfl _ _ _).trans read))
        fun one two readOne readTwo => decide_eq_decide.mpr ?_
      exact (steady _ _ _ _ rfl rfl one two readOne readTwo).symm.agrees here there
    · refine binaryCall_agrees fun first second same => ?_
      subst same
      refine evaluateStrings_agrees (firstAgrees first [second] (operands_two rfl ..)) fun text found =>
        secondAgrees first second (operands_two rfl ..) ?_
      rw [DateEngine.evaluate] at found
      simp [found, goesOn, comparesDates, runtimeTypeOf]
    · refine binaryCall_agrees fun first second same => ?_
      subst same
      refine evaluateStrings_agrees (firstAgrees first [second] (operands_two rfl ..)) fun text found =>
        secondAgrees first second (operands_two rfl ..) ?_
      rw [DateEngine.evaluate] at found
      simp [found, goesOn, comparesDates, runtimeTypeOf]
    · rfl

/-! ## Two hosts -/

variable (engine scope) in
/-- The dates that the evaluation of an expression compares, on whatever host, are steady. -/
def ComparesSteadily (ast : IrelNode) : Prop :=
  ∀ host one two, Compares engine host scope ast one two → Steady one two

theorem first_evaluated {node first : IrelNode} {rest : List IrelNode} (listed : operands node = first :: rest)
    (host : HostZone) : first ∈ evaluatedIn engine host scope node := by
  unfold evaluatedIn
  split
  · rename_i one two same
    rw [listed] at same
    rw [(List.cons.inj same).1]
    exact List.mem_cons_self
  · rw [listed]
    exact List.mem_cons_self

theorem second_evaluated_iff {node first second : IrelNode} (listed : operands node = [first, second])
    (host : HostZone) {operand : IrelNode} : operand ∈ evaluatedIn engine host scope node ↔
      operand = first ∨ goesOn engine node (engine.evaluate host scope first) = true ∧ operand = second := by
  simp only [evaluatedIn, listed, List.mem_cons]
  by_cases goes : goesOn engine node (engine.evaluate host scope first) = true <;> simp [goes]

theorem ComparesSteadily.of_evaluated {node operand : IrelNode} (steady : ComparesSteadily engine scope node)
    (evaluated : ∀ host, operand ∈ evaluatedIn engine host scope node) :
    ComparesSteadily engine scope operand := by
  rintro host one two ⟨name, first, second, grouped, compares, reaches, readOne, readTwo⟩
  exact steady host one two
    ⟨name, first, second, grouped, compares, reaches.head (evaluated host), readOne, readTwo⟩

/-- What is evaluated on one host is evaluated on every one, if the first operand gives the same
on them. -/
theorem evaluated_everywhere {node operand : IrelNode}
    (independent : ∀ first rest, operands node = first :: rest → HostIndependent engine scope first)
    (evaluated : operand ∈ evaluatedIn engine here scope node) (host : HostZone) :
    operand ∈ evaluatedIn engine host scope node := by
  match listed : operands node with
  | [first, second] =>
    rw [second_evaluated_iff listed] at evaluated ⊢
    rwa [independent first [second] listed host here]
  | [] | [_] | _ :: _ :: _ :: _ =>
    simp only [evaluatedIn, listed] at evaluated ⊢
    exact evaluated

/-- By induction on the tree: the operands that are evaluated compare steadily. -/
theorem hostIndependent_of_steady (ast : IrelNode) (steady : ComparesSteadily engine scope ast) :
    HostIndependent engine scope ast := by
  induction ast using operands_induct with
  | node node ih =>
    have independent : ∀ first rest, operands node = first :: rest → HostIndependent engine scope first :=
      fun first rest listed => ih first (by simp [listed])
        (steady.of_evaluated (first_evaluated listed))
    intro here there
    refine evaluate_agrees (fun first rest listed => independent first rest listed here there) ?_ ?_
    · intro first second listed goes
      have evaluated : second ∈ evaluatedIn engine here scope node :=
        (second_evaluated_iff listed here).mpr (.inr ⟨goes, rfl⟩)
      exact ih second (by simp [listed])
        (steady.of_evaluated (evaluated_everywhere independent evaluated)) here there
    · rintro name first second grouped rfl compares one two readOne readTwo
      exact steady here one two ⟨name, first, second, grouped, compares, .refl, readOne, readTwo⟩

theorem ComparesSteadily.reached {ast part : IrelNode} (steady : ComparesSteadily engine scope ast)
    (reaches : Reaches engine here scope ast part) : ComparesSteadily engine scope part := by
  induction reaches with
  | refl => exact steady
  | tail _ evaluated ih =>
    exact ih.of_evaluated (evaluated_everywhere (fun first rest listed =>
      hostIndependent_of_steady first (ih.of_evaluated (first_evaluated listed))) evaluated)

theorem arityOf_dates (compares : comparesDates name = true) : arityOf name = some 2 := by
  simp only [comparesDates, Bool.or_eq_true, decide_eq_true_eq] at compares
  rcases compares with rfl | rfl <;> rfl

theorem steady_of_answers {node : IrelNode} (independent : HostIndependent engine scope node)
    (answers : ∀ host, engine.evaluate host scope node = .ok (.bool (host.millis one < host.millis two))) :
    Steady one two := by
  refine steady_of_agrees fun here there => ?_
  have same := independent here there
  rw [answers, answers] at same
  simpa using same

/-- A comparison that gives the same on every host is steady. -/
theorem steady_of_hostIndependent {first second : IrelNode} {grouped : Bool}
    (compares : comparesDates name = true)
    (independent : HostIndependent engine scope (.call name [first, second] grouped))
    (readOne : ∀ host, dateReading engine (engine.evaluate host scope first) = some one)
    (readTwo : ∀ host, dateReading engine (engine.evaluate host scope second) = some two) :
    Steady one two := by
  simp only [comparesDates, Bool.or_eq_true, decide_eq_true_eq] at compares
  rcases compares with rfl | rfl
  · refine steady_of_answers independent fun host => ?_
    simp only [DateEngine.evaluate, evaluateIrelExpression, evaluateArgs, evaluateCall, binaryCall]
    exact evaluateDates_of_readings (readOne host) (readTwo host) host
  · refine (steady_of_answers independent fun host => ?_).symm
    simp only [DateEngine.evaluate, evaluateIrelExpression, evaluateArgs, evaluateCall, binaryCall]
    exact evaluateDates_of_readings (readOne host) (readTwo host) host

end Hosts

/-- Everything that the evaluation of an expression evaluates gives the same on every two
hosts exactly if no offset decides one of the comparisons it makes; and then the
expression does. -/
theorem evaluateIrelExpression_host_independent (engine : DateEngine) (scope : IrelScope) (ast : IrelNode) :
    ((∀ host part, Reaches engine host scope ast part → HostIndependent engine scope part) ↔
      ComparesSteadily engine scope ast) ∧
    (ComparesSteadily engine scope ast → HostIndependent engine scope ast) := by
  refine ⟨⟨?_, fun steady host part reaches => hostIndependent_of_steady part (steady.reached reaches)⟩,
    hostIndependent_of_steady ast⟩
  rintro independent host one two ⟨name, first, second, grouped, compares, reaches, readOne, readTwo⟩
  have listed := operands_two (arityOf_dates compares) first second grouped
  have firstReached := reaches.tail (first_evaluated listed host)
  have goes : goesOn engine (.call name [first, second] grouped) (engine.evaluate host scope first) = true := by
    rw [goesOn_dates compares, readOne]
    rfl
  have secondReached := reaches.tail ((second_evaluated_iff listed host).mpr (.inr ⟨goes, rfl⟩))
  refine steady_of_hostIndependent compares (independent host _ reaches) (fun other => ?_) fun other => ?_
  · rw [independent host first firstReached other host, readOne]
  · rw [independent host second secondReached other host, readTwo]

/-- An engine for dates and for dates with a time, after a `T` or a blank. -/
def readIso (text : String) : Option Reading :=
  match isoDate text.toList with
  | some (day, []) => some (.instant day)
  | some (day, separator :: rest) =>
    if separator = 'T' ∨ separator = ' ' then
      match isoTime rest with
      | some (time, []) => some (.wall (day + time))
      | some (time, ['Z']) => some (.instant (day + time))
      | _ => none
    else none
  | none => none

def isoEngine : DateEngine where
  read := readIso
  dayIsInstant := by
    rintro text ⟨day, isDay⟩ wall
    simp [readIso, isDay]
  zonedIsInstant := by
    rintro text ⟨day, rest, time, isDate, isTime⟩ wall
    simp [readIso, isDate, isTime]

/-- `date_before(text, instant)` of two literals. -/
def dateBefore (text instant : String) : IrelNode :=
  .call "date_before" [.literal .string (.str text) false, .literal .string (.str instant) false] false

def london : HostZone := .fixed 0 (by norm_num [dayMillis])

def seoul : HostZone := .fixed (9 * 3600000) (by norm_num [dayMillis])

/-- `2024-01-02 10:00` is before five o'clock UTC of that day in Seoul, and not in London. -/
theorem evaluateIrelExpression_depends_on_host :
    evaluateIrelExpression (isoEngine.parse london) {}
        (dateBefore "2024-01-02 10:00" "2024-01-02T05:00Z") = .ok (.bool false) ∧
      evaluateIrelExpression (isoEngine.parse seoul) {}
        (dateBefore "2024-01-02 10:00" "2024-01-02T05:00Z") = .ok (.bool true) := by
  have wall : dateReading isoEngine (.ok (.str "2024-01-02 10:00")) = some (.wall 1704189600000) := by
    decide +kernel
  have instant : dateReading isoEngine (.ok (.str "2024-01-02T05:00Z")) = some (.instant 1704171600000) := by
    decide +kernel
  simp only [dateBefore, evaluateIrelExpression, evaluateArgs, evaluateCall, binaryCall,
    evaluateDates_of_readings wall instant]
  exact ⟨by norm_num [HostZone.millis, london, HostZone.fixed], by norm_num [HostZone.millis, seoul, HostZone.fixed]⟩

end RpaEnterprise.Irel
