import Mathlib.Order.OrderIsoNat
import RpaEnterprise.Lib.Execution

/-!
# Systems that come to rest

A system that is answered whenever it waits comes to rest if every answer brings it
down in a well-founded order.  The answers are a stream, so nothing is assumed about
how they are found: they may depend on the whole past.
-/

namespace RpaEnterprise.Lib

section Descent

variable {State Action Rank : Type*} {step : State → Action → State}

/-- The state after the first answers of a stream. -/
def after (step : State → Action → State) (state : State) (answers : ℕ → Action) : ℕ → State
  | 0 => state
  | count + 1 => step (after step state answers count) (answers count)

theorem after_eq_exec (state : State) (answers : ℕ → Action) (count : ℕ) :
    after step state answers count = exec step state ((List.range count).map answers) := by
  induction count with
  | zero => rfl
  | succ count ih =>
    rw [after, ih, List.range_succ, List.map_append, exec_append]
    rfl

/-- Every question is answered until the system rests. -/
def Answered (step : State → Action → State) (rests : State → Prop) (awaits : State → Action → Prop)
    (state : State) (answers : ℕ → Action) : Prop :=
  ∀ count, rests (after step state answers count) ∨
    awaits (after step state answers count) (answers count)

/-- Answers that lead to rest answer every question, if rest is for good. -/
theorem answered_of_complete {rests : State → Prop} {awaits : State → Action → Prop} {state : State}
    {answers : ℕ → Action} (stays : ∀ state action, rests state → rests (step state action)) {count : ℕ}
    (awaited : Along step awaits state ((List.range count).map answers))
    (rested : rests (exec step state ((List.range count).map answers))) :
    Answered step rests awaits state answers := by
  intro moment
  rcases Nat.lt_or_ge moment count with early | late
  · right
    obtain ⟨more, rfl⟩ := Nat.exists_eq_add_of_lt early
    rw [Nat.add_assoc, List.range_add, List.map_append, along_append, ← after_eq_exec] at awaited
    have next := awaited.2
    simp only [List.range_succ_eq_map, List.map_cons, Along] at next
    exact next.1
  · left
    obtain ⟨more, rfl⟩ := Nat.exists_eq_add_of_le late
    induction more with
    | zero => rwa [Nat.add_zero, after_eq_exec]
    | succ more ih => exact stays _ _ (ih (by omega))

/-- A rank that every awaited answer brings down leads to rest. -/
theorem rests_of_descends [Preorder Rank] [WellFoundedLT Rank] {rests : State → Prop}
    {awaits : State → Action → Prop} {inv : State → Prop} (rank : State → Rank)
    (descends : ∀ {state : State} {action : Action}, inv state → awaits state action →
      inv (step state action) ∧ rank (step state action) < rank state)
    {state : State} (start : inv state) {answers : ℕ → Action}
    (answered : Answered step rests awaits state answers) :
    ∃ count, rests (after step state answers count) := by
  by_contra never
  push Not at never
  have awaited : ∀ count, awaits (after step state answers count) (answers count) :=
    fun count => (answered count).resolve_left (never count)
  have holds : ∀ count, inv (after step state answers count) := by
    intro count
    induction count with
    | zero => exact start
    | succ count ih => exact (descends ih (awaited count)).1
  -- the ranks would go down for ever
  refine not_strictAnti_of_wellFoundedLT (fun count => rank (after step state answers count)) ?_
  exact strictAnti_nat_of_succ_lt fun count => (descends (holds count) (awaited count)).2

/-- The answers up to the first moment of rest are all awaited. -/
theorem exists_complete {rests : State → Prop} {awaits : State → Action → Prop} {state : State}
    {answers : ℕ → Action} (answered : Answered step rests awaits state answers)
    (ends : ∃ count, rests (after step state answers count)) :
    ∃ count, rests (exec step state ((List.range count).map answers)) ∧
      Along step awaits state ((List.range count).map answers) := by
  classical
  have rested := Nat.find_spec ends
  have first := fun count => @Nat.find_min _ _ ends count
  refine ⟨Nat.find ends, by rwa [← after_eq_exec], ?_⟩
  have awaited : ∀ count ≤ Nat.find ends, Along step awaits state ((List.range count).map answers) := by
    intro count within
    induction count with
    | zero => trivial
    | succ count ih =>
      rw [List.range_succ, List.map_append, along_append]
      refine ⟨ih (by omega), ?_, trivial⟩
      rw [← after_eq_exec]
      exact (answered count).resolve_left (first count (by omega))
  exact awaited _ le_rfl

end Descent

end RpaEnterprise.Lib
