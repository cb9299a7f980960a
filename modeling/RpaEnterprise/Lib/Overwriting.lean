import Mathlib.Data.List.Induction

/-!
# Overwriting members

A record is a partial map from keys to values.  A write keeps the record there
is, replaces it or overwrites some of its members; a first write creates it.  A
sequence of writes that is run once more changes nothing.
-/

namespace RpaEnterprise.Lib

variable {Key Value : Type*}

abbrev Members (Key Value : Type*) := Key → Option Value

/-- The members of the second record, and where it has none those of the first. -/
def overwrite (old new : Members Key Value) : Members Key Value := fun key => (new key).or (old key)

inductive Write (Key Value : Type*) where
  | keep (new : Members Key Value)
  | replace (new : Members Key Value)
  | merge (new : Members Key Value)

def Write.apply : Option (Members Key Value) → Write Key Value → Option (Members Key Value)
  | none, .keep new | none, .replace new | none, .merge new => some new
  | some old, .keep _ => some old
  | some _, .replace new => some new
  | some old, .merge new => some (overwrite old new)

/-- A sequence of writes. -/
def writes (state : Option (Members Key Value)) (sequence : List (Write Key Value)) :
    Option (Members Key Value) :=
  sequence.foldl Write.apply state

theorem overwrite_overwrite (old new : Members Key Value) :
    overwrite (overwrite old new) new = overwrite old new := by
  funext key
  simp only [overwrite]
  cases new key <;> rfl

/-- Equal but for the members of a third record. -/
def AgreeBut (new : Members Key Value) (one two : Option (Members Key Value)) : Prop :=
  one.map (overwrite · new) = two.map (overwrite · new)

theorem AgreeBut.apply {new : Members Key Value} {one two : Option (Members Key Value)}
    (agree : AgreeBut new one two) (write : Write Key Value) :
    AgreeBut new (write.apply one) (write.apply two) := by
  cases one with
  | none =>
    cases two with
    | none => rfl
    | some other => cases agree
  | some old =>
    cases two with
    | none => cases agree
    | some other =>
      cases write with
      | keep => exact agree
      | replace => rfl
      | merge added =>
        have same := Option.some.inj agree
        refine congrArg some (funext fun key => ?_)
        have here := congrFun same key
        simp only [overwrite] at here ⊢
        cases own : new key with
        | some value => rfl
        | none =>
          rw [own, Option.none_or, Option.none_or] at here
          rw [here]

theorem AgreeBut.writes {new : Members Key Value} {one two : Option (Members Key Value)}
    (agree : AgreeBut new one two) (sequence : List (Write Key Value)) :
    AgreeBut new (writes one sequence) (writes two sequence) := by
  induction sequence generalizing one two with
  | nil => exact agree
  | cons write rest ih => exact ih (agree.apply write)

theorem writes_append (state : Option (Members Key Value)) (first second : List (Write Key Value)) :
    writes state (first ++ second) = writes (writes state first) second :=
  List.foldl_append

theorem isSome_apply (state : Option (Members Key Value)) (write : Write Key Value) :
    (write.apply state).isSome = true := by
  cases state <;> cases write <;> rfl

theorem isSome_writes {state : Option (Members Key Value)} (exists_ : state.isSome = true)
    (sequence : List (Write Key Value)) : (writes state sequence).isSome = true := by
  induction sequence generalizing state with
  | nil => exact exists_
  | cons write rest ih => exact ih (isSome_apply state write)

theorem apply_merge {state : Option (Members Key Value)} {new merged : Members Key Value}
    (agree : state.map (overwrite · new) = some merged) : (Write.merge new).apply state = some merged := by
  cases state with
  | none => cases agree
  | some old => exact agree

/-- Running a sequence once more changes nothing. -/
theorem writes_writes (state : Option (Members Key Value)) (sequence : List (Write Key Value)) :
    writes (writes state sequence) sequence = writes state sequence := by
  induction sequence using List.reverseRecOn generalizing state with
  | nil => rfl
  | append_singleton first write ih =>
    have last : ∀ state, writes state (first ++ [write]) = write.apply (writes state first) :=
      fun state => writes_append state first [write]
    rw [last, last]
    cases reached : writes state first with
    | none =>
      -- nothing was written before the last write
      have empty : first = [] := by
        cases first with
        | nil => rfl
        | cons write rest =>
          have some_ := isSome_writes (isSome_apply state write) rest
          rw [writes, List.foldl_cons] at reached
          rw [writes, reached] at some_
          cases some_
      subst empty
      cases write with
      | keep new => rfl
      | replace new => rfl
      | merge new =>
        have same : overwrite new new = new := by
          funext key
          simp only [overwrite]
          cases new key <;> rfl
        exact congrArg some same
    | some old =>
      cases write with
      | keep new =>
        have again := ih state
        rw [reached] at again
        exact congrArg (fun state => (Write.keep new).apply state) again
      | replace new =>
        have kept : (writes (some new) first).isSome = true := isSome_writes rfl first
        obtain ⟨other, found⟩ := Option.isSome_iff_exists.mp kept
        rw [Write.apply, found, Write.apply]
      | merge new =>
        have again := ih state
        rw [reached] at again
        have agree : AgreeBut new (some (overwrite old new)) (some old) :=
          congrArg some (overwrite_overwrite old new)
        have later := agree.writes first
        rw [again] at later
        exact apply_merge later

end RpaEnterprise.Lib
