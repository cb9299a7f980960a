import Mathlib
import RpaEnterprise.Lib.KeyOrder

/-!
# Numbers as doubles

A number in a JSON text is any decimal; `JSON.parse` reads it as the nearest
double, or as infinite where there is none.  A reading is a partial function on
rationals that leaves alone what it has read once.
-/

namespace RpaEnterprise.Lib

/-- How the numbers of a text are read; a number that is read as infinite has no value. -/
structure Doubles where
  read : Rat → Option Rat
  read_read : ∀ value double, read value = some double → read double = some double

namespace Binary64

/-- A number in units of the least positive double. -/
def scale (value : Rat) : Rat := value * 2 ^ 1074

/-- The distance of doubles around a number, in units of the least one. -/
def spacing (scaled : Rat) : Nat := 2 ^ (scaled.floor.natAbs.log2 - 52)

/-- A whole number of the distances around it, and below `2 ^ 1024`. -/
def isDouble (value : Rat) : Bool :=
  let scaled := scale value
  scaled.den = 1 && scaled.num.natAbs < 2 ^ 2098 && scaled.num.natAbs % spacing |scaled| = 0

/-- The nearest whole number, the even one of two. -/
def roundHalfEven (value : Rat) : Int :=
  let below := value.floor
  if value - below < 1 / 2 ∨ value - below = 1 / 2 ∧ below % 2 = 0 then below else below + 1

def nearest (value : Rat) : Rat :=
  let unit : Rat := spacing |scale value|
  roundHalfEven (scale value / unit) * unit / 2 ^ 1074

def read (value : Rat) : Option Rat :=
  if isDouble value then some value
  else if isDouble (nearest value) then some (nearest value)
  else none

end Binary64

/-- The doubles of `JSON.parse`. -/
def binary64 : Doubles where
  read := Binary64.read
  read_read value double found := by
    have isDouble : Binary64.isDouble double = true := by
      unfold Binary64.read at found
      split at found
      · rename_i exact_
        rwa [← Option.some.inj found]
      · split at found
        · rename_i rounded
          rwa [← Option.some.inj found]
        · cases found
    exact if_pos isDouble

/-- The first integer that is no double is read as the one before it. -/
example : binary64.read 9007199254740993 = some 9007199254740992 := by decide +kernel

/-! ## Documents of doubles -/

namespace Json

variable (doubles : Doubles)

mutual

/-- The numbers as `JSON.parse` reads them and `JSON.stringify` writes them:
doubles, and `null` for one that is not finite. -/
def spelled : Json → Json
  | .num value => (doubles.read value).elim .null .num
  | .arr items => .arr (spelledItems items)
  | .obj fields => .obj (spelledFields fields)
  | .null => .null
  | .bool value => .bool value
  | .str text => .str text

def spelledItems : List Json → List Json
  | [] => []
  | item :: rest => spelled item :: spelledItems rest

def spelledFields : List (String × Json) → List (String × Json)
  | [] => []
  | (name, value) :: rest => (name, spelled value) :: spelledFields rest

end

theorem spelledItems_eq (items : List Json) :
    spelledItems doubles items = items.map (spelled doubles) := by
  induction items with
  | nil => rfl
  | cons item rest ih => simp [spelledItems, ih]

theorem spelledFields_eq (fields : List (String × Json)) :
    spelledFields doubles fields = fields.map fun field => (field.1, spelled doubles field.2) := by
  induction fields with
  | nil => rfl
  | cons field rest ih => simp [spelledFields, ih]

/-- Numbers do not matter for the order of keys. -/
theorem spelled_arranged (collation : Collation) (value : Json) :
    spelled doubles (value.arranged collation) = (spelled doubles value).arranged collation := by
  match value with
  | .null | .bool _ | .str _ => simp [spelled, arranged]
  | .num value =>
    simp only [spelled, arranged]
    cases doubles.read value <;> simp [arranged]
  | .arr items =>
    simp only [arranged, spelled, arrangedItems_eq, spelledItems_eq, List.map_map]
    congr 1
    exact List.map_congr_left fun item member => spelled_arranged collation item
  | .obj fields =>
    simp only [arranged, spelled, arrangedFields_eq, spelledFields_eq]
    rw [List.map_insertionSort collation.Fields collation.Fields]
    · rw [List.map_map, List.map_map]
      congr 2
      refine List.map_congr_left fun field member => ?_
      simp only [Function.comp_apply, spelled_arranged collation field.2]
    · exact fun _ _ _ _ => Iff.rfl
termination_by sizeOf value
decreasing_by
  · exact sizeOf_item_lt member
  · exact sizeOf_field_lt member

theorem distinct_spelled (value : Json) (distinct : value.Distinct) :
    (spelled doubles value).Distinct := by
  match value with
  | .null | .bool _ | .str _ => simp [spelled, Distinct]
  | .num value =>
    rw [spelled]
    cases doubles.read value <;> simp [Distinct]
  | .arr items =>
    rw [Distinct] at distinct
    rw [spelled, Distinct, spelledItems_eq]
    refine distinctItems_of_mem fun item member => ?_
    obtain ⟨source, among, rfl⟩ := List.mem_map.mp member
    exact distinct_spelled source (distinctItems_mem distinct source among)
  | .obj fields =>
    rw [Distinct] at distinct
    rw [spelled, Distinct, spelledFields_eq]
    refine ⟨by simpa [Function.comp_def] using distinct.1, distinctFields_of_mem fun field member => ?_⟩
    obtain ⟨source, among, rfl⟩ := List.mem_map.mp member
    exact distinct_spelled source.2 (distinctFields_mem distinct.2 source among)
termination_by sizeOf value
decreasing_by
  · exact sizeOf_item_lt among
  · exact sizeOf_field_lt among

end Json

end RpaEnterprise.Lib
