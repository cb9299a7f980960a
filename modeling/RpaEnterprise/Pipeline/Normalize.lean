import RpaEnterprise.Lib.Json
import RpaEnterprise.Lib.Overwriting

/-!
# Normalised records

`normalizeRecord` writes one row for a natural key.  The row of a key is inserted
by the first call; what a later call does to it depends on its `dedupAction`.  A
merge is the `||` of `jsonb`, which overwrites members where both values are
objects and concatenates arrays otherwise.
-/

namespace RpaEnterprise.Pipeline.Normalize

open Lib

inductive DedupAction where
  | insert | keepExisting | updateLatest | merge
deriving Repr, DecidableEq

/-- `UNIQUE (tenant_id, schema_ref, natural_key)`. -/
structure NaturalKey where
  tenantId : String
  schemaRef : String
  naturalKey : String
deriving Repr, DecidableEq

structure NormalizeInput where
  key : NaturalKey
  rawItemId : String
  record : Json
  masked : Option Bool
  dedupAction : DedupAction
  retentionUntil : Option Int

/-- A row of `normalized_records`. -/
structure Row where
  id : Nat
  key : NaturalKey
  rawItemId : String
  record : Json
  masked : Bool
  retentionUntil : Option Int
  dedupAction : DedupAction

structure Store where
  rows : List Row
  nextId : Nat

def Store.empty : Store := ⟨[], 0⟩

structure NormalizeResult where
  normalizedRecordId : Nat
  action : DedupAction
deriving Repr, DecidableEq

/-- `jsonb || jsonb`. -/
def concat : Json → Json → Json
  | .obj fields, .obj others =>
    .obj (others.foldl (fun out field => Json.assign field.1 field.2 out) fields)
  | .arr items, .arr others => .arr (items ++ others)
  | .arr items, other => .arr (items ++ [other])
  | value, .arr others => .arr (value :: others)
  | value, other => .arr [value, other]

def insertRow (store : Store) (input : NormalizeInput) : Store where
  rows := store.rows ++
    [{ id := store.nextId
       key := input.key
       rawItemId := input.rawItemId
       record := input.record
       masked := input.masked.getD true
       retentionUntil := input.retentionUntil
       dedupAction := .insert }]
  nextId := store.nextId + 1

/-- `ON CONFLICT … DO UPDATE` of the row of the key. -/
def updateRow (store : Store) (input : NormalizeInput) (record : Json → Json) : Store :=
  { store with
    rows := store.rows.map fun row =>
      if row.key = input.key then
        { row with
          record := record row.record
          rawItemId := input.rawItemId
          masked := input.masked.getD true
          dedupAction := input.dedupAction }
      else row }

def normalizeRecord (store : Store) (input : NormalizeInput) : Store × NormalizeResult :=
  match store.rows.find? fun row => row.key = input.key with
  | none => (insertRow store input, ⟨store.nextId, .insert⟩)
  | some row =>
    match input.dedupAction with
    | .updateLatest => (updateRow store input fun _ => input.record, ⟨row.id, .updateLatest⟩)
    | .merge => (updateRow store input fun record => concat record input.record, ⟨row.id, .merge⟩)
    | .insert | .keepExisting => (store, ⟨row.id, .keepExisting⟩)

/-- A sequence of calls. -/
def normalizeAll (store : Store) (inputs : List NormalizeInput) : Store :=
  inputs.foldl (fun store input => (normalizeRecord store input).1) store

/-! ## What the calls leave of a key -/

/-- What a call makes of the record of its key. -/
def combine (record : Option Json) (input : NormalizeInput) : Option Json :=
  match record, input.dedupAction with
  | none, _ => some input.record
  | some old, .insert | some old, .keepExisting => some old
  | some _, .updateLatest => some input.record
  | some old, .merge => some (concat old input.record)

/-- The inputs for a key, one after the other. -/
def combined (inputs : List NormalizeInput) (key : NaturalKey) (record : Option Json) : Option Json :=
  (inputs.filter fun input => input.key = key).foldl combine record

/-- The records of a key. -/
def recordsOf (store : Store) (key : NaturalKey) : List Json :=
  (store.rows.filter fun row => row.key = key).map Row.record

theorem recordsOf_insertRow (store : Store) (input : NormalizeInput) (key : NaturalKey) :
    recordsOf (insertRow store input) key =
      recordsOf store key ++ if key = input.key then [input.record] else [] := by
  unfold recordsOf insertRow
  rw [List.filter_append, List.map_append]
  by_cases same : key = input.key
  · simp [same]
  · have apart : ¬ input.key = key := fun equal => same equal.symm
    simp [same, apart]

theorem recordsOf_updateRow (store : Store) (input : NormalizeInput) (record : Json → Json) (key : NaturalKey) :
    recordsOf (updateRow store input record) key =
      if key = input.key then (recordsOf store key).map record else recordsOf store key := by
  unfold recordsOf updateRow
  dsimp only
  induction store.rows with
  | nil => simp
  | cons row rest ih =>
    by_cases own : row.key = key
    · by_cases same : key = input.key
      · subst same
        simpa [own] using ih
      · have apart : ¬ row.key = input.key := fun equal => same (own.symm.trans equal)
        simpa [own, same, apart] using ih
    · by_cases changed : row.key = input.key
      · have apart : ¬ input.key = key := fun equal => own (changed.trans equal)
        simpa [own, changed, apart] using ih
      · simpa [own, changed] using ih

/-- One call, for every key: its own is combined, the others are kept. -/
theorem recordsOf_normalizeRecord {store : Store} {input : NormalizeInput} {key : NaturalKey}
    {record : Option Json} (before : recordsOf store key = record.toList) :
    recordsOf (normalizeRecord store input).1 key =
      (if key = input.key then combine record input else record).toList := by
  unfold normalizeRecord
  split
  · rename_i none
    rw [List.find?_eq_none] at none
    rw [recordsOf_insertRow, before]
    split
    · rename_i same
      subst same
      have empty : recordsOf store input.key = [] := by
        rw [recordsOf, List.filter_eq_nil_iff.mpr none, List.map_nil]
      rw [empty] at before
      cases record with
      | none => rfl
      | some record => cases before
    · rw [List.append_nil]
  · rename_i row found
    have member := List.mem_of_find?_eq_some found
    have own : row.key = input.key := by simpa using List.find?_some found
    by_cases same : key = input.key
    · subst same
      obtain ⟨old, rfl⟩ : ∃ old, record = some old := by
        cases record with
        | some old => exact ⟨old, rfl⟩
        | none =>
          have among : row.record ∈ recordsOf store input.key :=
            List.mem_map_of_mem (List.mem_filter.mpr ⟨member, by simpa using own⟩)
          rw [before] at among
          cases among
      rw [if_pos rfl]
      unfold combine
      split
      · rename_i action
        rw [recordsOf_updateRow, if_pos rfl, before, action]
        rfl
      · rename_i action
        rw [recordsOf_updateRow, if_pos rfl, before, action]
        rfl
      · rename_i action
        rw [before, action]
      · rename_i action
        rw [before, action]
    · rw [if_neg same]
      split
      · rw [recordsOf_updateRow, if_neg same, before]
      · rw [recordsOf_updateRow, if_neg same, before]
      · exact before
      · exact before

theorem recordsOf_normalizeAll {store : Store} {inputs : List NormalizeInput} {key : NaturalKey}
    {record : Option Json} (before : recordsOf store key = record.toList) :
    recordsOf (normalizeAll store inputs) key = (combined inputs key record).toList := by
  induction inputs generalizing store record with
  | nil => exact before
  | cons input rest ih =>
    have next := ih (@recordsOf_normalizeRecord store input key record before)
    rw [normalizeAll, List.foldl_cons]
    rw [normalizeAll] at next
    rw [next]
    unfold combined
    by_cases own : input.key = key
    · simp [own]
    · have apart : ¬ key = input.key := fun equal => own equal.symm
      simp [own, apart]

/-- The rows of a key: one if a call named it, none otherwise. -/
theorem isSome_combined (inputs : List NormalizeInput) (key : NaturalKey) :
    (combined inputs key none).isSome = true ↔ ∃ input ∈ inputs, input.key = key := by
  have created : ∀ (rest : List NormalizeInput) (record : Json), (rest.foldl combine (some record)).isSome = true := by
    intro rest
    induction rest with
    | nil => exact fun _ => rfl
    | cons input rest ih =>
      intro record
      rw [List.foldl_cons]
      cases action : input.dedupAction <;> simp only [combine, action] <;> exact ih _
  unfold combined
  cases own : inputs.filter fun input => input.key = key with
  | nil =>
    rw [List.filter_eq_nil_iff] at own
    constructor
    · intro absent
      cases absent
    · rintro ⟨input, member, same⟩
      exact absurd (decide_eq_true same) (own input member)
  | cons first rest =>
    have member : first ∈ inputs.filter fun input => input.key = key := by
      rw [own]
      exact List.mem_cons_self
    have ⟨among, same⟩ := List.mem_filter.mp member
    exact ⟨fun _ => ⟨first, among, of_decide_eq_true same⟩, fun _ => created rest first.record⟩

/-! ## Records that are objects -/

/-- An object, whose members have different names. -/
def IsRecord (value : Json) : Prop := ∃ fields, value = .obj fields ∧ (fields.map Prod.fst).Nodup

/-- The members of a record; the order of the keys of a `jsonb` object means nothing. -/
def members (value : Json) : Members String Json := value.field

/-- What an input does to the members of the record of its key. -/
def NormalizeInput.write (input : NormalizeInput) : Write String Json :=
  match input.dedupAction with
  | .insert | .keepExisting => .keep (members input.record)
  | .updateLatest => .replace (members input.record)
  | .merge => .merge (members input.record)

/-- The writes of the inputs for a key. -/
def writesOf (inputs : List NormalizeInput) (key : NaturalKey) : List (Write String Json) :=
  (inputs.filter fun input => input.key = key).map NormalizeInput.write

theorem IsRecord.concat {old new : Json} (record : IsRecord old) (added : IsRecord new) :
    IsRecord (concat old new) ∧ members (Normalize.concat old new) = overwrite (members old) (members new) := by
  obtain ⟨fields, rfl, distinct⟩ := record
  obtain ⟨others, rfl, apart⟩ := added
  refine ⟨⟨_, rfl, Json.nodup_foldl_assign others distinct⟩, ?_⟩
  funext key
  exact Json.lookup_foldl_assign key apart fields

theorem combine_write {record : Option Json} {input : NormalizeInput} (records : ∀ old ∈ record, IsRecord old)
    (added : IsRecord input.record) :
    (∀ new ∈ combine record input, IsRecord new) ∧
      (combine record input).map members = input.write.apply (record.map members) := by
  unfold combine NormalizeInput.write
  cases record with
  | none =>
    refine ⟨fun new equal => Option.some.inj equal ▸ added, ?_⟩
    cases input.dedupAction <;> rfl
  | some old =>
    have object := records old rfl
    cases input.dedupAction with
    | insert => exact ⟨fun new equal => Option.some.inj equal ▸ object, rfl⟩
    | keepExisting => exact ⟨fun new equal => Option.some.inj equal ▸ object, rfl⟩
    | updateLatest => exact ⟨fun new equal => Option.some.inj equal ▸ added, rfl⟩
    | merge =>
      have ⟨isRecord, overwritten⟩ := object.concat added
      exact ⟨fun new equal => Option.some.inj equal ▸ isRecord, congrArg some overwritten⟩

/-- The members that the inputs for a key leave are those of their writes. -/
theorem combined_writes {inputs : List NormalizeInput} {key : NaturalKey} {record : Option Json}
    (records : ∀ old ∈ record, IsRecord old)
    (objects : ∀ input ∈ inputs, input.key = key → IsRecord input.record) :
    (∀ new ∈ combined inputs key record, IsRecord new) ∧
      (combined inputs key record).map members = writes (record.map members) (writesOf inputs key) := by
  have own : ∀ input ∈ inputs.filter (fun input => input.key = key), IsRecord input.record := by
    intro input member
    have ⟨among, same⟩ := List.mem_filter.mp member
    exact objects input among (of_decide_eq_true same)
  unfold combined writesOf
  generalize inputs.filter (fun input => input.key = key) = calls at own
  induction calls generalizing record with
  | nil => exact ⟨records, rfl⟩
  | cons input rest ih =>
    have ⟨isRecord, written⟩ := combine_write records (own input List.mem_cons_self)
    have later := ih isRecord fun other member => own other (List.mem_cons_of_mem _ member)
    rw [written] at later
    exact later

/-- However many keys are interleaved, each key that is named has one row, whose
record combines the inputs for that key in their order: a first input is inserted,
and later `insert` and `keep_existing` keep what is there, `update_latest` replaces it
and `merge` concatenates.  Where the inputs for a key are objects, that is keeping,
replacing and overwriting members, and a replay of the whole sequence leaves the
members as they are. -/
theorem normalizeAll_replay (inputs : List NormalizeInput) (key : NaturalKey) :
    recordsOf (normalizeAll .empty inputs) key = (combined inputs key none).toList ∧
      ((combined inputs key none).isSome = true ↔ ∃ input ∈ inputs, input.key = key) ∧
      ((∀ input ∈ inputs, input.key = key → IsRecord input.record) →
        (recordsOf (normalizeAll .empty inputs) key).map members = (writes none (writesOf inputs key)).toList ∧
        (∀ record ∈ recordsOf (normalizeAll (normalizeAll .empty inputs) inputs) key, IsRecord record) ∧
        (recordsOf (normalizeAll (normalizeAll .empty inputs) inputs) key).map members =
          (recordsOf (normalizeAll .empty inputs) key).map members) := by
  have once : recordsOf (normalizeAll .empty inputs) key = (combined inputs key none).toList :=
    recordsOf_normalizeAll rfl
  refine ⟨once, isSome_combined inputs key, fun objects => ?_⟩
  have ⟨isRecord, first⟩ := @combined_writes inputs key none (fun _ absent => nomatch absent) objects
  have ⟨stays, second⟩ := combined_writes isRecord objects
  have toList_map : ∀ record : Option Json, record.toList.map members = (record.map members).toList := by
    intro record
    cases record <;> rfl
  rw [recordsOf_normalizeAll once, once, toList_map, toList_map, second, first]
  refine ⟨rfl, fun record member => stays record (Option.mem_toList.mp member), ?_⟩
  exact congrArg Option.toList (writes_writes none (writesOf inputs key))

/-- An input that keeps the record of its key. -/
def kept (record : Json) : NormalizeInput := ⟨⟨"t", "s", "k"⟩, "raw", record, none, .keepExisting, none⟩

def merged (record : Json) : NormalizeInput := ⟨⟨"t", "s", "k"⟩, "raw", record, none, .merge, none⟩

/-- An input that keeps the record does not take part in the merge, and arrays grow
with every replay. -/
theorem kept_input_and_growing_array :
    recordsOf (normalizeAll .empty
        [merged (.obj [("a", .num 1)]), kept (.obj [("a", .num 2)])]) ⟨"t", "s", "k"⟩ =
      [.obj [("a", .num 1)]] ∧
      concat (.obj [("a", .num 1)]) (.obj [("a", .num 2)]) = .obj [("a", .num 2)] ∧
      recordsOf (normalizeAll .empty [merged (.arr [.null])]) ⟨"t", "s", "k"⟩ = [.arr [.null]] ∧
      recordsOf (normalizeAll (normalizeAll .empty [merged (.arr [.null])]) [merged (.arr [.null])])
          ⟨"t", "s", "k"⟩ = [.arr [.null, .null]] := by
  exact ⟨rfl, rfl, rfl, rfl⟩

end RpaEnterprise.Pipeline.Normalize
