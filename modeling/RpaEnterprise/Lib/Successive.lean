import Mathlib

/-!
# Successive members

The members of a set of integers after a start, each the least after the one
before it.  Such a sequence meets every member after the start.
-/

namespace RpaEnterprise.Lib

/-- The least member after a start. -/
structure LeastAfter (member : Int → Prop) (start next : Int) : Prop where
  later : start < next
  holds : member next
  first : ∀ value, start < value → value < next → ¬ member value

/-- Each value is the least member after the one before it. -/
structure Successive (member : Int → Prop) (start : Int) (values : Nat → Int) : Prop where
  first : LeastAfter member start (values 0)
  next : ∀ index, LeastAfter member (values index) (values (index + 1))

variable {member other : Int → Prop} {start : Int} {values : Nat → Int}

theorem LeastAfter.congr {next : Int} (least : LeastAfter member start next)
    (same : ∀ value, start < value → (member value ↔ other value)) : LeastAfter other start next :=
  ⟨least.later, (same next least.later).mp least.holds,
    fun value later sooner holds => least.first value later sooner ((same value later).mpr holds)⟩

namespace Successive

theorem strictMono (run : Successive member start values) : StrictMono values :=
  strictMono_nat_of_lt_succ fun index => (run.next index).later

theorem later (run : Successive member start values) (index : Nat) : start + index < values index := by
  induction index with
  | zero => simpa using run.first.later
  | succ index ih =>
    have step := (run.next index).later
    omega

theorem holds (run : Successive member start values) (index : Nat) : member (values index) := by
  cases index with
  | zero => exact run.first.holds
  | succ index => exact (run.next index).holds

/-- The first value from a bound on. -/
theorem exists_first_from (run : Successive member start values) (bound : Int) :
    ∃ index, bound ≤ values index ∧ ∀ earlier < index, values earlier < bound := by
  have reached : ∃ index, bound ≤ values index :=
    ⟨(bound - start).toNat, by have := run.later (bound - start).toNat; omega⟩
  classical
  refine ⟨Nat.find reached, Nat.find_spec reached, fun earlier less => ?_⟩
  exact Int.lt_of_not_ge (Nat.find_min reached less)

/-- Every member after the start is met. -/
theorem exists_iff (run : Successive member start values) (value : Int) :
    (∃ index, values index = value) ↔ start < value ∧ member value := by
  constructor
  · rintro ⟨index, rfl⟩
    have later := run.later index
    exact ⟨by omega, run.holds index⟩
  · rintro ⟨later, holds⟩
    obtain ⟨index, reached, before⟩ := run.exists_first_from value
    refine ⟨index, Int.le_antisymm (Int.le_of_not_gt fun sooner => ?_) reached⟩
    -- a value that the sequence jumps over is no member
    cases index with
    | zero => exact run.first.first value later sooner holds
    | succ index => exact (run.next index).first value (before index (Nat.lt_succ_self index)) sooner holds

theorem congr (run : Successive member start values)
    (same : ∀ value, start < value → (member value ↔ other value)) : Successive other start values := by
  refine ⟨run.first.congr same, fun index => (run.next index).congr fun value later => ?_⟩
  have sooner := run.later index
  exact same value (by omega)

/-- Two sets with the same sequence agree after the start. -/
theorem agree (run : Successive member start values) (same : Successive other start values) {value : Int}
    (later : start < value) : member value ↔ other value := by
  have one := run.exists_iff value
  have two := same.exists_iff value
  constructor
  · intro holds
    exact (two.mp (one.mpr ⟨later, holds⟩)).2
  · intro holds
    exact (one.mp (two.mpr ⟨later, holds⟩)).2

end Successive

/-- Where every start has a next value, a sequence of next values exists. -/
theorem exists_sequence {next : Int → Int → Prop} (serial : ∀ value, ∃ later, next value later)
    (start : Int) :
    ∃ values : Nat → Int, next start (values 0) ∧ ∀ index, next (values index) (values (index + 1)) := by
  choose step follows using serial
  refine ⟨fun index => step^[index + 1] start, follows start, fun index => ?_⟩
  dsimp only
  rw [Function.iterate_succ_apply' step (index + 1)]
  exact follows _

end RpaEnterprise.Lib
