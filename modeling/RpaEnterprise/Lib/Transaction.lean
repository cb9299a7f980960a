import Mathlib.Logic.Basic

/-!
# Transactions

A transaction body reads and writes a store and may throw.  It commits its
final store when it returns and leaves the store untouched when it throws.
`Relates` says how a committed body relates its first store to its last; a body
that throws has no effect, so nothing more is needed to reason about a schedule
of transactions.
-/

namespace RpaEnterprise.Lib

/-- A transaction body over a store, with its thrown errors. -/
def Tx (Store Error Value : Type) : Type := StateT Store (Except Error) Value

namespace Tx

variable {Store Error Value Result : Type}

instance : Monad (Tx Store Error) := inferInstanceAs (Monad (StateT Store (Except Error)))

instance : LawfulMonad (Tx Store Error) := inferInstanceAs (LawfulMonad (StateT Store (Except Error)))

instance : MonadStateOf Store (Tx Store Error) :=
  inferInstanceAs (MonadStateOf Store (StateT Store (Except Error)))

instance : MonadExceptOf Error (Tx Store Error) :=
  inferInstanceAs (MonadExceptOf Error (StateT Store (Except Error)))

/-- The body started in a store: its value and final store, or its error. -/
def run (body : Tx Store Error Value) (store : Store) : Except Error (Value × Store) :=
  StateT.run body store

/-! ## Running composed bodies -/

theorem bind_ok {first : Tx Store Error Value} {rest : Value → Tx Store Error Result}
    {store next : Store} {result : Result} :
    (first >>= rest).run store = .ok (result, next) ↔
      ∃ value middle, first.run store = .ok (value, middle) ∧
        (rest value).run middle = .ok (result, next) := by
  change (StateT.run first store >>= fun pair => StateT.run (rest pair.1) pair.2) = _ ↔
    ∃ value middle, StateT.run first store = .ok (value, middle) ∧ _
  cases ran : StateT.run first store with
  | ok pair =>
    obtain ⟨value, middle⟩ := pair
    constructor
    · exact fun continued => ⟨value, middle, rfl, continued⟩
    · rintro ⟨_, _, same, continued⟩
      cases same
      exact continued
  | error error =>
    constructor
    · intro impossible; cases impossible
    · rintro ⟨_, _, impossible, _⟩; cases impossible

@[simp]
theorem pure_ok {value result : Value} {store next : Store} :
    (pure value : Tx Store Error Value).run store = .ok (result, next) ↔
      result = value ∧ next = store := by
  constructor
  · intro ran
    cases ran
    exact ⟨rfl, rfl⟩
  · rintro ⟨rfl, rfl⟩
    rfl

@[simp]
theorem throw_ok {error : Error} {result : Value} {store next : Store} :
    (throw error : Tx Store Error Value).run store = .ok (result, next) ↔ False := by
  simp only [iff_false]
  intro ran
  cases ran

@[simp]
theorem get_ok {value store next : Store} :
    (get : Tx Store Error Store).run store = .ok (value, next) ↔ value = store ∧ next = store := by
  constructor
  · intro ran
    cases ran
    exact ⟨rfl, rfl⟩
  · rintro ⟨rfl, rfl⟩
    rfl

theorem get_bind_ok {rest : Store → Tx Store Error Value} {store next : Store} {value : Value} :
    (get >>= rest).run store = .ok (value, next) ↔ (rest store).run store = .ok (value, next) := by
  simp only [bind_ok, get_ok]
  constructor
  · rintro ⟨_, _, ⟨rfl, rfl⟩, ran⟩
    exact ran
  · intro ran
    exact ⟨store, store, ⟨rfl, rfl⟩, ran⟩

@[simp]
theorem set_ok {value store next : Store} {done : PUnit} :
    (set value : Tx Store Error PUnit).run store = .ok (done, next) ↔ next = value := by
  constructor
  · intro ran
    cases ran
    rfl
  · rintro rfl
    rfl

@[simp]
theorem modify_ok {change : Store → Store} {store next : Store} {done : PUnit} :
    (modify change : Tx Store Error PUnit).run store = .ok (done, next) ↔ next = change store := by
  constructor
  · intro ran
    cases ran
    rfl
  · rintro rfl
    rfl

/-! ## What a committed body does to its store -/

/-- Every committed run of the body relates its first store to its last. -/
def Relates (rel : Store → Store → Prop) (body : Tx Store Error Value) : Prop :=
  ∀ ⦃store value next⦄, body.run store = .ok (value, next) → rel store next

namespace Relates

variable {rel : Store → Store → Prop}

protected theorem pure (refl : ∀ store, rel store store) (value : Value) :
    Relates rel (pure value : Tx Store Error Value) := by
  intro store result next ran
  obtain ⟨-, rfl⟩ := pure_ok.mp ran
  exact refl next

end Relates

end Tx

end RpaEnterprise.Lib
