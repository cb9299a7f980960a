import RpaEnterprise.Lib.Calendar
import RpaEnterprise.Runtime.CronSchedule
import Mathlib.Data.Finset.Card
import Mathlib.Order.Interval.Finset.Nat

/-!
# The set semantics of cron expressions

A field of a cron expression is a list of parts.  A part is a range with a step:
`*` for all values, a number or two numbers with a hyphen, and a step after a
slash.  It stands for the values of the range that are a multiple of the step
away from its start.  The parser finds exactly these values.
-/

namespace RpaEnterprise.Runtime.CronSchedule

open Lib Lib.Calendar

/-! ## What a field stands for -/

/-- A number written in decimal digits. -/
structure IsNumber (token : List Char) (value : Nat) : Prop where
  nonempty : token ≠ []
  digits : ∀ char ∈ token, char.isDigit = true
  value_eq : value = Nat.ofDigitChars 10 token 0

inductive RangeText (spec : CronFieldSpec) : List Char → Nat → Nat → Prop
  | any : RangeText spec ['*'] spec.min spec.max
  | single {token : List Char} {value : Nat} (number : IsNumber token value) :
      RangeText spec token value value
  | between {start stop : List Char} {first last : Nat} (low : IsNumber start first)
      (high : IsNumber stop last) : RangeText spec (start ++ '-' :: stop) first last

inductive PartText (spec : CronFieldSpec) : List Char → Nat → Nat → Nat → Prop
  | plain {token : List Char} {first last : Nat} (range : RangeText spec token first last) :
      PartText spec token first last 1
  | stepped {token stepToken : List Char} {first last step : Nat}
      (range : RangeText spec token first last) (number : IsNumber stepToken step) :
      PartText spec (token ++ '/' :: stepToken) first last step

/-- The values of a range that are whole steps away from its start. -/
def InSteps (spec : CronFieldSpec) (first last step value : Nat) : Prop :=
  ∃ index, first + index * step ≤ last ∧ value = normalizeValue (first + index * step) spec

/-- A part of a field stands for a value. -/
def PartDenotes (spec : CronFieldSpec) (part : List Char) (value : Nat) : Prop :=
  ∃ first last step, PartText spec part first last step ∧ InSteps spec first last step value

/-- A field stands for a value. -/
def Denotes (spec : CronFieldSpec) (raw : List Char) (value : Nat) : Prop :=
  ∃ part ∈ raw.splitOn ',', PartDenotes spec part value

/-! ## Each part stands for one range -/

variable {spec : CronFieldSpec} {token : List Char}

theorem IsNumber.unique {one two : Nat} (first : IsNumber token one)
    (second : IsNumber token two) : one = two :=
  first.value_eq.trans second.value_eq.symm

theorem IsNumber.not_mem {value : Nat} (number : IsNumber token value) {char : Char}
    (other : char.isDigit = false) : char ∉ token := by
  intro member
  rw [number.digits char member] at other
  cases other

theorem IsNumber.ne_star {value : Nat} : ¬ IsNumber ['*'] value :=
  fun number => number.not_mem (by decide) (List.mem_singleton_self '*')

theorem RangeText.slash_not_mem {first last : Nat}
    (range : RangeText spec token first last) : '/' ∉ token := by
  cases range with
  | any => decide
  | single number => exact number.not_mem (by decide)
  | between low high =>
    simp only [List.mem_append, List.mem_cons, not_or]
    exact ⟨low.not_mem (by decide), by decide, high.not_mem (by decide)⟩

theorem star_ne_between {start stop : List Char} {first : Nat} (low : IsNumber start first) :
    ['*'] ≠ start ++ '-' :: stop := by
  intro same
  cases start with
  | nil => exact low.nonempty rfl
  | cons char rest => simp at same

theorem IsNumber.not_between {start stop : List Char} {value : Nat} :
    ¬ IsNumber (start ++ '-' :: stop) value := by
  intro number
  have absent : '-' ∉ start ++ '-' :: stop := number.not_mem (by decide)
  exact absent (List.mem_append_right _ List.mem_cons_self)

theorem RangeText.unique {first last first' last' : Nat}
    (one : RangeText spec token first last) (two : RangeText spec token first' last') :
    first = first' ∧ last = last' := by
  cases one with
  | any =>
    generalize same : ['*'] = token at two
    cases two with
    | any => exact ⟨rfl, rfl⟩
    | single number => exact absurd (same ▸ number) IsNumber.ne_star
    | between low high => exact absurd same (star_ne_between low)
  | single number =>
    cases two with
    | any => exact absurd number IsNumber.ne_star
    | single other => exact ⟨number.unique other, number.unique other⟩
    | between low high => exact absurd number IsNumber.not_between
  | @between start stop _ _ low high =>
    generalize same : start ++ '-' :: stop = token at two
    cases two with
    | any => exact absurd same.symm (star_ne_between low)
    | single number => exact absurd (same ▸ number) IsNumber.not_between
    | between low' high' =>
      have absent : '-' ∉ start := low.not_mem (by decide)
      have absent' : '-' ∉ stop := high.not_mem (by decide)
      obtain ⟨rfl, _, rfl⟩ := (List.append_cons_inj_of_notMem absent absent').mp same
      exact ⟨low.unique low', high.unique high'⟩

theorem PartText.unique {first last step first' last' step' : Nat}
    (one : PartText spec token first last step) (two : PartText spec token first' last' step') :
    first = first' ∧ last = last' ∧ step = step' := by
  have plain : ∀ {token stepToken : List Char} {first last : Nat},
      ¬ RangeText spec (token ++ '/' :: stepToken) first last :=
    fun range => range.slash_not_mem (List.mem_append_right _ List.mem_cons_self)
  cases one with
  | plain range =>
    cases two with
    | plain range' =>
      obtain ⟨rfl, rfl⟩ := range.unique range'
      exact ⟨rfl, rfl, rfl⟩
    | stepped => exact absurd range plain
  | @stepped token stepToken _ _ _ range number =>
    generalize same : token ++ '/' :: stepToken = whole at two
    cases two with
    | plain range' => exact absurd (same ▸ range') plain
    | stepped range' number' =>
      have absent : '/' ∉ stepToken := number.not_mem (by decide)
      obtain ⟨rfl, _, rfl⟩ := (List.append_cons_inj_of_notMem range.slash_not_mem absent).mp same
      obtain ⟨rfl, rfl⟩ := range.unique range'
      exact ⟨rfl, rfl, number.unique number'⟩

/-! ## The parser finds the range of a part -/

theorem parseInteger_eq_ok {reason : String} {value : Nat}
    (parsed : parseInteger token spec reason = .ok value) :
    IsNumber token value ∧ spec.min ≤ value ∧ value ≤ spec.max := by
  unfold parseInteger at parsed
  split at parsed
  · cases parsed
  · rename_i plain
    simp only [Bool.or_eq_true, Bool.not_eq_true', not_or, Bool.not_eq_true, Bool.not_eq_false] at plain
    dsimp only at parsed
    split at parsed
    · cases parsed
    · rename_i within
      cases parsed
      refine ⟨⟨?_, List.all_eq_true.mp plain.2, rfl⟩, by omega, by omega⟩
      rintro rfl
      exact absurd plain.1 (by decide)

/-- The text of a range and its bounds. -/
structure Ranges (spec : CronFieldSpec) (token : List Char) (bounds : Nat × Nat) : Prop where
  text : RangeText spec token bounds.1 bounds.2
  low : spec.min ≤ bounds.1
  order : bounds.1 ≤ bounds.2
  high : bounds.2 ≤ spec.max

theorem eq_of_splitOn_single {separator : Char} {token part : List Char}
    (split : token.splitOn separator = [part]) : token = part := by
  have joined : [separator].intercalate (token.splitOn separator) = token := List.intercalate_splitOn _
  rw [split] at joined
  simpa using joined.symm

theorem eq_of_splitOn_pair {separator : Char} {token one two : List Char}
    (split : token.splitOn separator = [one, two]) : token = one ++ separator :: two := by
  have joined : [separator].intercalate (token.splitOn separator) = token := List.intercalate_splitOn _
  rw [split] at joined
  simpa using joined.symm

theorem parseRange_eq_ok {bounds : Nat × Nat}
    (ordered : spec.min ≤ spec.max) (parsed : parseRange token spec = .ok bounds) :
    Ranges spec token bounds := by
  unfold parseRange at parsed
  split at parsed
  · rename_i star
    cases parsed
    exact star ▸ ⟨.any, Nat.le_refl _, ordered, Nat.le_refl _⟩
  · split at parsed
    · rename_i start split
      split at parsed
      · cases parsed
      · cases read : parseInteger start spec "invalid_number" with
        | error error =>
          rw [read] at parsed
          cases parsed
        | ok value =>
          rw [read] at parsed
          cases parsed
          obtain ⟨number, low, high⟩ := parseInteger_eq_ok read
          exact eq_of_splitOn_single split ▸ ⟨.single number, low, Nat.le_refl _, high⟩
    · rename_i start stop split
      split at parsed
      · cases parsed
      · obtain ⟨first, lowRead, parsed⟩ := bind_eq_ok.mp parsed
        obtain ⟨last, highRead, parsed⟩ := bind_eq_ok.mp parsed
        obtain ⟨lowNumber, low, _⟩ := parseInteger_eq_ok lowRead
        obtain ⟨highNumber, _, high⟩ := parseInteger_eq_ok highRead
        split at parsed
        · cases parsed
        · rename_i order
          cases parsed
          exact eq_of_splitOn_pair split ▸ ⟨.between lowNumber highNumber, low, by omega, high⟩
    · cases parsed

theorem mem_addValues {values : List Nat} {first last step value : Nat}
    (order : first ≤ last) (positive : 1 ≤ step) :
    value ∈ addValues values spec first last step ↔
      value ∈ values ∨ InSteps spec first last step value := by
  have steps : ∀ index, index < (last - first) / step + 1 ↔ first + index * step ≤ last := by
    intro index
    rw [Nat.lt_succ_iff, Nat.le_div_iff_mul_le positive]
    omega
  have folded : ∀ (indices : List Nat) (values : List Nat),
      value ∈ indices.foldl (fun values index =>
        values.insert (normalizeValue (first + index * step) spec)) values ↔
      value ∈ values ∨ ∃ index ∈ indices, value = normalizeValue (first + index * step) spec := by
    intro indices
    induction indices with
    | nil => simp
    | cons index rest ih =>
      intro values
      rw [List.foldl_cons, ih, List.mem_insert_iff]
      simp only [List.mem_cons, exists_eq_or_imp]
      tauto
  unfold addValues InSteps
  rw [folded]
  simp only [List.mem_range, steps]

theorem nodup_addValues {values : List Nat} {first last step : Nat}
    (nodup : values.Nodup) : (addValues values spec first last step).Nodup := by
  unfold addValues
  generalize List.range _ = indices
  induction indices generalizing values with
  | nil => exact nodup
  | cons index rest ih => exact ih nodup.insert

/-- What a part adds to the values of its field. -/
structure Adds (spec : CronFieldSpec) (part : List Char) (values values' : List Nat)
    (first last step : Nat) : Prop where
  text : PartText spec part first last step
  low : spec.min ≤ first
  order : first ≤ last
  high : last ≤ spec.max
  positive : 1 ≤ step
  added : values' = addValues values spec first last step

theorem addPart_eq_ok {values values' : List Nat} {part : List Char}
    (ordered : spec.min ≤ spec.max) (parsed : addPart values part spec = .ok values') :
    ∃ first last step, Adds spec part values values' first last step := by
  unfold addPart at parsed
  split at parsed
  · rename_i range split
    split at parsed
    · cases parsed
    · cases read : parseRange range spec with
      | error error =>
        rw [addRange, read] at parsed
        cases parsed
      | ok bounds =>
        rw [addRange, read] at parsed
        cases parsed
        obtain ⟨text, low, order, high⟩ := parseRange_eq_ok ordered read
        rw [eq_of_splitOn_single split]
        exact ⟨_, _, 1, .plain text, low, order, high, Nat.le_refl 1, rfl⟩
  · rename_i range stepToken split
    split at parsed
    · cases parsed
    · obtain ⟨step, stepRead, parsed⟩ := bind_eq_ok.mp parsed
      obtain ⟨number, _, _⟩ := parseInteger_eq_ok stepRead
      split at parsed
      · cases parsed
      · rename_i positive
        cases read : parseRange range spec with
        | error error =>
          rw [addRange, read] at parsed
          cases parsed
        | ok bounds =>
          rw [addRange, read] at parsed
          cases parsed
          obtain ⟨text, low, order, high⟩ := parseRange_eq_ok ordered read
          rw [eq_of_splitOn_pair split]
          exact ⟨_, _, step, .stepped text number, low, order, high, by omega, rfl⟩
  · cases parsed

theorem Adds.mem_iff {part : List Char} {values values' : List Nat}
    {first last step value : Nat} (adds : Adds spec part values values' first last step) :
    value ∈ values' ↔ value ∈ values ∨ PartDenotes spec part value := by
  rw [adds.added, mem_addValues adds.order adds.positive]
  constructor
  · rintro (old | new)
    · exact .inl old
    · exact .inr ⟨first, last, step, adds.text, new⟩
  · rintro (old | ⟨_, _, _, text, new⟩)
    · exact .inl old
    · obtain ⟨rfl, rfl, rfl⟩ := adds.text.unique text
      exact .inr new

/-! ## The parser finds the values of a field -/

/-- The values a field can have. -/
def allValues (spec : CronFieldSpec) : Finset Nat :=
  (Finset.Icc spec.min spec.max).image (normalizeValue · spec)

/-- The bounds of a field leave as many values as its cardinality. -/
structure CronFieldSpec.Sound (spec : CronFieldSpec) : Prop where
  ordered : spec.min ≤ spec.max
  card : (allValues spec).card = fieldCardinality spec

theorem minuteSpec_sound : minuteSpec.Sound := ⟨by decide, by decide +kernel⟩

theorem hourSpec_sound : hourSpec.Sound := ⟨by decide, by decide +kernel⟩

theorem dayOfMonthSpec_sound : dayOfMonthSpec.Sound := ⟨by decide, by decide +kernel⟩

theorem monthSpec_sound : monthSpec.Sound := ⟨by decide, by decide +kernel⟩

theorem dayOfWeekSpec_sound : dayOfWeekSpec.Sound := ⟨by decide, by decide +kernel⟩

/-- The values collected so far. -/
structure Collected (spec : CronFieldSpec) (values : List Nat) : Prop where
  nodup : values.Nodup
  within : ∀ value ∈ values, value ∈ allValues spec

theorem Adds.collected {part : List Char} {values values' : List Nat}
    {first last step : Nat} (adds : Adds spec part values values' first last step)
    (collected : Collected spec values) : Collected spec values' := by
  constructor
  · rw [adds.added]
    exact nodup_addValues collected.nodup
  · intro value member
    rw [adds.added, mem_addValues adds.order adds.positive] at member
    rcases member with old | ⟨index, least, rfl⟩
    · exact collected.within value old
    · refine Finset.mem_image_of_mem _ (Finset.mem_Icc.mpr ⟨?_, ?_⟩)
      · exact Nat.le_trans adds.low (Nat.le_add_right _ _)
      · exact Nat.le_trans least adds.high

theorem addParts_eq_ok (sound : spec.Sound) {parts : List (List Char)}
    {values values' : List Nat} (collected : Collected spec values)
    (parsed : addParts spec values parts = .ok values') :
    Collected spec values' ∧
      ∀ value, value ∈ values' ↔ value ∈ values ∨ ∃ part ∈ parts, PartDenotes spec part value := by
  induction parts generalizing values with
  | nil =>
    cases parsed
    exact ⟨collected, fun value => by simp⟩
  | cons part rest ih =>
    obtain ⟨next, added, parsed⟩ := bind_eq_ok.mp parsed
    obtain ⟨first, last, step, adds⟩ := addPart_eq_ok sound.ordered added
    obtain ⟨kept, members⟩ := ih (adds.collected collected) parsed
    refine ⟨kept, fun value => ?_⟩
    rw [members, adds.mem_iff]
    simp only [List.mem_cons, exists_eq_or_imp, or_assoc]

/-- The parsed field holds the values its text stands for. -/
structure FieldOf (spec : CronFieldSpec) (raw : List Char) (field : ParsedCronField) : Prop where
  mem_iff : ∀ value, value ∈ field.values ↔ Denotes spec raw value
  nonempty : field.values ≠ []
  within : ∀ value ∈ field.values, value ∈ allValues spec
  all : field.wildcard = true ↔ ∀ value ∈ allValues spec, value ∈ field.values

theorem parseField_eq_ok (sound : spec.Sound) {raw : List Char}
    {field : ParsedCronField} (parsed : parseField raw spec = .ok field) : FieldOf spec raw field := by
  unfold parseField at parsed
  split at parsed
  · cases parsed
  · obtain ⟨values, added, parsed⟩ := bind_eq_ok.mp parsed
    obtain ⟨collected, members⟩ := addParts_eq_ok sound ⟨List.nodup_nil, by simp⟩ added
    split at parsed
    · cases parsed
    · rename_i nonempty
      cases parsed
      have card : values.toFinset.card = values.length := List.toFinset_card_of_nodup collected.nodup
      have subset : values.toFinset ⊆ allValues spec :=
        fun value member => collected.within value (List.mem_toFinset.mp member)
      refine ⟨fun value => ?_, ?_, collected.within, ?_⟩
      · rw [members]
        simp [Denotes]
      · rintro rfl
        exact nonempty rfl
      · dsimp only
        rw [beq_iff_eq, ← card, ← sound.card]
        constructor
        · intro same value member
          rw [← Finset.eq_of_subset_of_card_le subset (Nat.le_of_eq same.symm)] at member
          exact List.mem_toFinset.mp member
        · intro every
          refine congrArg Finset.card (Finset.Subset.antisymm subset fun value member => ?_)
          exact List.mem_toFinset.mpr (every value member)

/-! ## The minutes of an expression -/

def dayMs : Int := 86400000

def hourMs : Int := 3600000

def minuteOf (instant : Int) : Nat := (instant / minuteMs % 60).toNat

def hourOf (instant : Int) : Nat := (instant / hourMs % 24).toNat

/-- The day of an instant, in UTC. -/
def dayOf (instant : Int) : Int := instant / dayMs

/-- The expression stands for the minute, the hour, the date and the weekday of
an instant in UTC. -/
def Fires (expression : String) (instant : Int) : Prop :=
  ∃ minute hour dayOfMonth month dayOfWeek,
    cronFields expression = [minute, hour, dayOfMonth, month, dayOfWeek] ∧
      Denotes minuteSpec minute (minuteOf instant) ∧ Denotes hourSpec hour (hourOf instant) ∧
        Denotes dayOfMonthSpec dayOfMonth (dateOf (dayOf instant)).day ∧
          Denotes monthSpec month (dateOf (dayOf instant)).month ∧
            Denotes dayOfWeekSpec dayOfWeek (weekday (dayOf instant))

/-- A schedule and the texts of its fields. -/
structure ScheduleOf (expression : String) (schedule : ParsedCronExpression)
    (minute hour dayOfMonth month dayOfWeek : List Char) : Prop where
  fields : cronFields expression = [minute, hour, dayOfMonth, month, dayOfWeek]
  minute : FieldOf minuteSpec minute schedule.minute
  hour : FieldOf hourSpec hour schedule.hour
  dayOfMonth : FieldOf dayOfMonthSpec dayOfMonth schedule.dayOfMonth
  month : FieldOf monthSpec month schedule.month
  dayOfWeek : FieldOf dayOfWeekSpec dayOfWeek schedule.dayOfWeek
  days : schedule.dayOfMonth.wildcard = true ∨ schedule.dayOfWeek.wildcard = true
  possible : schedule.dayOfMonth.wildcard = true ∨ schedule.month.wildcard = true ∨
    hasPossibleDayOfMonth schedule.dayOfMonth.values schedule.month.values = true

theorem checkDays_eq_ok {parsed schedule : ParsedCronExpression} (checked : checkDays parsed = .ok schedule) :
    parsed = schedule ∧ (schedule.dayOfMonth.wildcard = true ∨ schedule.dayOfWeek.wildcard = true) ∧
      (schedule.dayOfMonth.wildcard = true ∨ schedule.month.wildcard = true ∨
        hasPossibleDayOfMonth schedule.dayOfMonth.values schedule.month.values = true) := by
  unfold checkDays at checked
  split at checked
  · cases checked
  · rename_i days
    split at checked
    · cases checked
    · rename_i possible
      cases checked
      simp only [Bool.and_eq_true, Bool.not_eq_true', not_and_or, Bool.not_eq_false] at days possible
      exact ⟨rfl, days, or_assoc.mp possible⟩

theorem parseCronExpression_eq_ok {expression : String} {schedule : ParsedCronExpression}
    (parsed : parseCronExpression expression = .ok schedule) :
    ∃ minute hour dayOfMonth month dayOfWeek,
      ScheduleOf expression schedule minute hour dayOfMonth month dayOfWeek := by
  unfold parseCronExpression at parsed
  split at parsed
  · rename_i minute hour dayOfMonth month dayOfWeek fields
    obtain ⟨_, minuteRead, parsed⟩ := bind_eq_ok.mp parsed
    obtain ⟨_, hourRead, parsed⟩ := bind_eq_ok.mp parsed
    obtain ⟨_, dayOfMonthRead, parsed⟩ := bind_eq_ok.mp parsed
    obtain ⟨_, monthRead, parsed⟩ := bind_eq_ok.mp parsed
    obtain ⟨_, dayOfWeekRead, parsed⟩ := bind_eq_ok.mp parsed
    obtain ⟨rfl, days, possible⟩ := checkDays_eq_ok parsed
    exact ⟨minute, hour, dayOfMonth, month, dayOfWeek, fields,
      parseField_eq_ok minuteSpec_sound minuteRead, parseField_eq_ok hourSpec_sound hourRead,
      parseField_eq_ok dayOfMonthSpec_sound dayOfMonthRead, parseField_eq_ok monthSpec_sound monthRead,
      parseField_eq_ok dayOfWeekSpec_sound dayOfWeekRead, days, possible⟩
  · cases parsed

/-- The expression fires when the values of its schedule hold the time. -/
theorem ScheduleOf.fires_iff {expression : String} {schedule : ParsedCronExpression}
    {minute hour dayOfMonth month dayOfWeek : List Char}
    (reads : ScheduleOf expression schedule minute hour dayOfMonth month dayOfWeek) (instant : Int) :
    Fires expression instant ↔
      minuteOf instant ∈ schedule.minute.values ∧ hourOf instant ∈ schedule.hour.values ∧
        (dateOf (dayOf instant)).day ∈ schedule.dayOfMonth.values ∧
          (dateOf (dayOf instant)).month ∈ schedule.month.values ∧
            weekday (dayOf instant) ∈ schedule.dayOfWeek.values := by
  rw [reads.minute.mem_iff, reads.hour.mem_iff, reads.dayOfMonth.mem_iff, reads.month.mem_iff,
    reads.dayOfWeek.mem_iff]
  constructor
  · rintro ⟨_, _, _, _, _, fields, rest⟩
    rw [reads.fields] at fields
    cases fields
    exact rest
  · exact fun rest => ⟨_, _, _, _, _, reads.fields, rest⟩

end RpaEnterprise.Runtime.CronSchedule
