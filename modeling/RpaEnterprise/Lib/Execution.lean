import Mathlib.Logic.Relation

/-!
# Executions of labelled systems

A system is a total function from a state and an action to the next state.
An action that is refused leaves the state as it was, so a schedule is any
list of actions and an execution is a fold.  The rules below turn facts about
one action into facts about every schedule, with or without a side condition
on the state in which each action is taken.
-/

namespace RpaEnterprise.Lib

section Execution

variable {State Action : Type*} (step : State → Action → State)

/-- The state after a schedule. -/
def exec (state : State) : List Action → State
  | [] => state
  | action :: rest => exec (step state action) rest

@[simp]
theorem exec_nil (state : State) : exec step state [] = state := rfl

@[simp]
theorem exec_cons (state : State) (action : Action) (rest : List Action) :
    exec step state (action :: rest) = exec step (step state action) rest := rfl

theorem exec_append (state : State) (first second : List Action) :
    exec step state (first ++ second) = exec step (exec step state first) second := by
  induction first generalizing state with
  | nil => rfl
  | cons action rest ih => exact ih (step state action)

/-- Every action of the schedule meets `ok` in the state it is taken in. -/
def Along (ok : State → Action → Prop) (state : State) : List Action → Prop
  | [] => True
  | action :: rest => ok state action ∧ Along ok (step state action) rest

instance Along.decidable (ok : State → Action → Prop) [∀ state action, Decidable (ok state action)]
    (state : State) (schedule : List Action) : Decidable (Along step ok state schedule) :=
  match schedule with
  | [] => inferInstanceAs (Decidable True)
  | action :: rest =>
    let _ := Along.decidable ok (step state action) rest
    inferInstanceAs (Decidable (ok state action ∧ Along step ok (step state action) rest))

theorem along_append (ok : State → Action → Prop) (state : State) (first second : List Action) :
    Along step ok state (first ++ second) ↔
      Along step ok state first ∧ Along step ok (exec step state first) second := by
  induction first generalizing state with
  | nil => simp [Along]
  | cons action rest ih => simp [Along, ih, and_assoc]

variable {ok : State → Action → Prop} {inv : State → Prop}

theorem along_of_mem {schedule : List Action}
    (all : ∀ action ∈ schedule, ∀ state, ok state action) (state : State) :
    Along step ok state schedule := by
  induction schedule generalizing state with
  | nil => trivial
  | cons action rest ih =>
    refine ⟨all action List.mem_cons_self state, ih ?_ _⟩
    exact fun other member => all other (List.mem_cons_of_mem _ member)

theorem along_mono {ok weaker : State → Action → Prop} (implies : ∀ state action, ok state action → weaker state action)
    {state : State} {schedule : List Action} (all : Along step ok state schedule) :
    Along step weaker state schedule := by
  induction schedule generalizing state with
  | nil => trivial
  | cons action rest ih => exact ⟨implies state action all.1, ih all.2⟩

/-- Every state the schedule passes through, its first and last included. -/
def Throughout (good : State → Prop) (state : State) (schedule : List Action) : Prop :=
  ∀ first, first <+: schedule → good (exec step state first)

theorem throughout_nil (good : State → Prop) (state : State) :
    Throughout step good state [] ↔ good state := by
  simp [Throughout]

theorem throughout_cons (good : State → Prop) (state : State) (action : Action)
    (rest : List Action) :
    Throughout step good state (action :: rest) ↔
      good state ∧ Throughout step good (step state action) rest := by
  constructor
  · intro all
    refine ⟨all [] List.nil_prefix, fun first begins => all (action :: first) ?_⟩
    exact List.cons_prefix_cons.mpr ⟨rfl, begins⟩
  · rintro ⟨start, later⟩ first begins
    cases first with
    | nil => exact start
    | cons head tail =>
      obtain ⟨rfl, starts⟩ := List.cons_prefix_cons.mp begins
      exact later tail starts

variable {step}

/-- An invariant kept by the actions that meet a condition holds after every
schedule all of whose actions meet it. -/
theorem exec_keeps (keeps : ∀ state action, ok state action → inv state → inv (step state action))
    {state : State} {schedule : List Action}
    (meets : Along step ok state schedule) (start : inv state) :
    inv (exec step state schedule) := by
  induction schedule generalizing state with
  | nil => exact start
  | cons action rest ih => exact ih meets.2 (keeps state action meets.1 start)

theorem throughout_keeps (keeps : ∀ state action, ok state action → inv state → inv (step state action))
    {state : State} {schedule : List Action}
    (meets : Along step ok state schedule) (start : inv state) :
    Throughout step inv state schedule := by
  rintro first ⟨rest, rfl⟩
  exact exec_keeps keeps ((along_append step ok state first rest).mp meets).1 start

/-- What an invariant says of the actions that meet a condition holds of every action
of a schedule all of whose actions meet it. -/
theorem along_keeps {ok good : State → Action → Prop}
    (keeps : ∀ state action, ok state action → inv state → inv (step state action))
    (implies : ∀ state action, ok state action → inv state → good state action)
    {state : State} {schedule : List Action}
    (meets : Along step ok state schedule) (start : inv state) : Along step good state schedule := by
  induction schedule generalizing state with
  | nil => trivial
  | cons action rest ih =>
    exact ⟨implies state action meets.1 start, ih meets.2 (keeps state action meets.1 start)⟩

/-- An invariant kept by every action holds after every schedule. -/
theorem exec_invariant (keeps : ∀ state action, inv state → inv (step state action))
    {state : State} (start : inv state) (schedule : List Action) :
    inv (exec step state schedule) :=
  exec_keeps (fun state action _ => keeps state action) (along_of_mem step (fun _ _ _ => trivial) state) start

/-- What follows from an invariant kept by every action holds all along. -/
theorem throughout_invariant (inv : State → Prop) {good : State → Prop}
    (keeps : ∀ state action, inv state → inv (step state action))
    (implies : ∀ state, inv state → good state)
    {state : State} (start : inv state) (schedule : List Action) :
    Throughout step good state schedule :=
  fun first _ => implies _ (exec_invariant keeps start first)

/-- A property that an action leaves intact just if it meets a condition holds at the end of a
schedule just if it held before and every action meets the condition. -/
theorem exec_iff_along {inv good : State → Prop}
    (keeps : ∀ state action, inv state → inv (step state action))
    (intact : ∀ state action, inv state → (good (step state action) ↔ good state ∧ ok state action))
    {state : State} (start : inv state) (schedule : List Action) :
    good (exec step state schedule) ↔ good state ∧ Along step ok state schedule := by
  induction schedule generalizing state with
  | nil => simp [Along]
  | cons action rest ih => rw [exec_cons, ih (keeps state action start), intact state action start, Along, and_assoc]

/-- A property that an action keeps just if it meets a condition holds all along a schedule just if
every action meets the condition. -/
theorem throughout_iff_along {good : State → Prop}
    (keeps : ∀ state action, good state → (good (step state action) ↔ ok state action))
    {state : State} (start : good state) (schedule : List Action) :
    Throughout step good state schedule ↔ Along step ok state schedule := by
  induction schedule generalizing state with
  | nil => exact iff_of_true ((throughout_nil step good state).mpr start) trivial
  | cons action rest ih =>
    rw [throughout_cons, and_iff_right start, Along]
    constructor
    · intro later
      have next : good (step state action) := later [] List.nil_prefix
      exact ⟨(keeps state action start).mp next, (ih next).mp later⟩
    · rintro ⟨meets, later⟩
      exact (ih ((keeps state action start).mpr meets)).mpr later

end Execution

end RpaEnterprise.Lib
