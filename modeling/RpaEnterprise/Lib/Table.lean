import Mathlib.Data.List.Basic
import Mathlib.Data.List.MinMax
import Mathlib.Data.List.Nodup

/-!
# Keyed tables

A table is a finite list of rows under pairwise different keys.  Readers go
through `get`, which returns the row stored under a key; the lemmas state
every write as an equation about `get`, so that proofs never look at the list.
-/

namespace RpaEnterprise.Lib

structure Table (Key Row : Type*) where
  rows : List (Key × Row)
  nodup : (rows.map Prod.fst).Nodup
deriving Repr, DecidableEq

namespace Table

variable {Key Row : Type*}

def empty : Table Key Row := ⟨[], List.nodup_nil⟩

/-- `UPDATE` over the whole table; the change may depend on the key. -/
def modifyAll (table : Table Key Row) (change : Key → Row → Row) : Table Key Row :=
  ⟨table.rows.map fun entry => (entry.1, change entry.1 entry.2), by
    simpa [List.map_map, Function.comp_def] using table.nodup⟩

/-- `SELECT … WHERE …` of the row, one at most, that meets a condition. -/
def find? (table : Table Key Row) (test : Key → Row → Bool) : Option (Key × Row) :=
  table.rows.find? fun entry => test entry.1 entry.2

/-- `DELETE FROM … WHERE …`: only the rows that meet `keep` stay. -/
def filter (table : Table Key Row) (keep : Key → Row → Bool) : Table Key Row :=
  ⟨table.rows.filter fun entry => keep entry.1 entry.2,
    table.nodup.sublist (List.filter_sublist.map Prod.fst)⟩

theorem modifyAll_id (table : Table Key Row) : (table.modifyAll fun _ row => row) = table := by
  simp [modifyAll]

variable [DecidableEq Key]

/-- The row under a key. -/
def get (table : Table Key Row) (key : Key) : Option Row :=
  (table.rows.find? fun entry => entry.1 = key).map Prod.snd

/-- `UPDATE … WHERE id = key`. -/
def modify (table : Table Key Row) (key : Key) (change : Row → Row) : Table Key Row :=
  table.modifyAll fun other row => if other = key then change row else row

/-- `INSERT`, refused when the key is taken. -/
def insert? (table : Table Key Row) (key : Key) (row : Row) : Option (Table Key Row) :=
  if fresh : key ∈ table.rows.map Prod.fst then none
  else some ⟨table.rows ++ [(key, row)], by
    rw [List.map_append, List.nodup_append]
    refine ⟨table.nodup, by simp, fun first member second last => ?_⟩
    rintro rfl
    simp only [List.map_cons, List.map_nil, List.mem_singleton] at last
    exact fresh (last ▸ member)⟩

/-- `INSERT … ON CONFLICT DO UPDATE`. -/
def put (table : Table Key Row) (key : Key) (row : Row) : Table Key Row :=
  (table.insert? key row).getD (table.modify key fun _ => row)

@[simp]
theorem get_empty (key : Key) : (empty : Table Key Row).get key = none := rfl

variable {table : Table Key Row} {key : Key} {row : Row}

theorem get_eq_some_iff :
    table.get key = some row ↔ (key, row) ∈ table.rows := by
  obtain ⟨rows, nodup⟩ := table
  simp only [get]
  induction rows with
  | nil => simp
  | cons entry rest ih =>
    obtain ⟨other, stored⟩ := entry
    simp only [List.map_cons, List.nodup_cons] at nodup
    by_cases same : other = key
    · subst same
      simp only [List.find?_cons, decide_true, Option.map_some, Option.some.injEq,
        List.mem_cons, Prod.mk.injEq, true_and]
      constructor
      · exact fun heq => .inl heq.symm
      · rintro (heq | member)
        · exact heq.symm
        · exact absurd (List.mem_map_of_mem member) nodup.1
    · have apart : ¬ key = other := fun heq => same heq.symm
      simpa [same, apart] using ih nodup.2

theorem get_eq_none_iff :
    table.get key = none ↔ key ∉ table.rows.map Prod.fst := by
  simp only [get, Option.map_eq_none_iff, List.find?_eq_none, decide_eq_true_eq, List.mem_map,
    not_exists, not_and]

theorem get_modifyAll (table : Table Key Row) (change : Key → Row → Row) (key : Key) :
    (table.modifyAll change).get key = (table.get key).map (change key) := by
  obtain ⟨rows, nodup⟩ := table
  simp only [get, modifyAll]
  clear nodup
  induction rows with
  | nil => rfl
  | cons entry rest ih =>
    by_cases same : entry.1 = key
    · simp [same]
    · simpa [same] using ih

theorem get_modify (table : Table Key Row) (key : Key) (change : Row → Row) (other : Key) :
    (table.modify key change).get other =
      if other = key then (table.get other).map change else table.get other := by
  rw [modify, get_modifyAll]
  by_cases same : other = key
  · simp [same]
  · simp [same]

@[simp]
theorem get_modify_self (table : Table Key Row) (key : Key) (change : Row → Row) :
    (table.modify key change).get key = (table.get key).map change := by
  simp [get_modify]

theorem get_modify_of_ne (table : Table Key Row) {key other : Key} (change : Row → Row)
    (different : other ≠ key) :
    (table.modify key change).get other = table.get other := by
  simp [get_modify, different]

theorem find?_some {test : Key → Row → Bool} {entry : Key × Row} (found : table.find? test = some entry) :
    table.get entry.1 = some entry.2 ∧ test entry.1 entry.2 = true := by
  rw [find?, List.find?_eq_some_iff_append] at found
  rcases found with ⟨met, before, after, split, -⟩
  exact ⟨get_eq_some_iff.mpr (by simp [split]), met⟩

theorem find?_eq_none_iff {test : Key → Row → Bool} :
    table.find? test = none ↔ ∀ key row, table.get key = some row → test key row = false := by
  simp only [find?, List.find?_eq_none, get_eq_some_iff, Bool.not_eq_true, Prod.forall]

theorem get_filter (table : Table Key Row) (keep : Key → Row → Bool) (key : Key) :
    (table.filter keep).get key = (table.get key).filter (keep key) := by
  ext row
  simp only [Option.filter_eq_some_iff, get_eq_some_iff, filter, List.mem_filter]

/-- What a table without a key still has was stored under another key. -/
theorem get_of_get_filter_ne {key other : Key}
    (stored : (table.filter fun found _ => found ≠ key).get other = some row) :
    table.get other = some row ∧ other ≠ key := by
  rw [get_filter, Option.filter_eq_some_iff] at stored
  exact ⟨stored.1, by simpa using stored.2⟩

/-- Only the changes of the stored rows count. -/
theorem modifyAll_congr {first second : Key → Row → Row}
    (agree : ∀ key row, table.get key = some row → first key row = second key row) :
    table.modifyAll first = table.modifyAll second := by
  simp only [modifyAll, Table.mk.injEq]
  refine List.map_congr_left fun entry member => ?_
  rw [agree entry.1 entry.2 (get_eq_some_iff.mpr member)]

theorem modify_congr {first second : Row → Row}
    (agree : ∀ row, table.get key = some row → first row = second row) :
    table.modify key first = table.modify key second := by
  refine modifyAll_congr fun other row stored => ?_
  by_cases same : other = key
  · subst same
    simp [agree row stored]
  · simp [same]

theorem modify_id {change : Row → Row} (same : ∀ row, table.get key = some row → change row = row) :
    table.modify key change = table := by
  have still : table.modify key change = table.modify key id := modify_congr same
  rw [still]
  simp [modify, modifyAll_id]

theorem get_insert? {table next : Table Key Row}
    (inserted : table.insert? key row = some next) (other : Key) :
    next.get other = if other = key then some row else table.get other := by
  simp only [insert?] at inserted
  split at inserted
  · cases inserted
  · rename_i fresh
    cases inserted
    by_cases same : other = key
    · subst same
      rw [if_pos rfl, get_eq_some_iff]
      simp
    · rw [if_neg same]
      have apart : ¬ key = other := fun heq => same heq.symm
      simp [get, List.find?_append, apart]

theorem rows_insert? {table next : Table Key Row}
    (inserted : table.insert? key row = some next) : next.rows = table.rows ++ [(key, row)] := by
  simp only [insert?] at inserted
  split at inserted
  · cases inserted
  · cases inserted
    rfl

theorem insert?_isSome_iff :
    (table.insert? key row).isSome ↔ table.get key = none := by
  rw [get_eq_none_iff, insert?]
  split <;> rename_i member <;> simp [member]

/-- Inserting under a key that was free. -/
theorem get_of_insert? {table next : Table Key Row}
    (inserted : table.insert? key row = some next) : table.get key = none :=
  insert?_isSome_iff.mp (by rw [inserted]; rfl)

theorem get_put (table : Table Key Row) (key : Key) (row : Row) (other : Key) :
    (table.put key row).get other = if other = key then some row else table.get other := by
  cases inserted : table.insert? key row with
  | some next =>
    simp only [put, inserted, Option.getD_some]
    exact get_insert? inserted other
  | none =>
    have present : table.get key ≠ none := by
      intro absent
      have grown : (table.insert? key row).isSome := insert?_isSome_iff.mpr absent
      rw [inserted] at grown
      cases grown
    obtain ⟨stored, found⟩ := Option.ne_none_iff_exists'.mp present
    simp only [put, inserted, Option.getD_none, get_modify]
    by_cases same : other = key
    · simp [same, found]
    · simp [same]

end Table

/-! ## One row before and after a write -/

theorem rel_eq_iff {Row : Type*} {old new : Option Row} : Option.Rel Eq old new ↔ old = new := by
  constructor
  · rintro (same | _)
    · rw [same]
    · rfl
  · rintro rfl
    cases old with
    | none => exact .none
    | some row => exact .some rfl

theorem rel_mono {Row : Type*} {change weaker : Row → Row → Prop} {old new : Option Row}
    (related : Option.Rel change old new) (imply : ∀ one two, change one two → weaker one two) :
    Option.Rel weaker old new := by
  cases related with
  | none => exact .none
  | some changed => exact .some (imply _ _ changed)

theorem rel_trans {Row : Type*} {first second both : Row → Row → Prop} {old middle new : Option Row}
    (one : Option.Rel first old middle) (two : Option.Rel second middle new)
    (compose : ∀ a b c, first a b → second b c → both a c) : Option.Rel both old new := by
  cases one with
  | none =>
    cases two with
    | none => exact .none
  | some changed =>
    cases two with
    | some changedAgain => exact .some (compose _ _ _ changed changedAgain)

end RpaEnterprise.Lib
