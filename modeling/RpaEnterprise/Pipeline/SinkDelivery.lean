import RpaEnterprise.Lib.Execution
import RpaEnterprise.Lib.Json
import RpaEnterprise.Lib.Table

/-!
# Deliveries to sinks

A delivery opens an attempt, calls the port of the sink outside any transaction
and finalises the attempt.  The transaction that opens it runs three `SELECT`s
and an `INSERT` under `READ COMMITTED`, and other calls run between them; the
`INSERT` is its last statement, so it is one step with its commit, and so is the
finalising transaction.  A call can die at any point.

Attempt numbers come from the constraint on the table.  Nothing in the table
keeps a second call from opening an attempt while the first is still at the port.
-/

namespace RpaEnterprise.Pipeline.SinkDelivery

open Lib

/-! ## The key of a record at a sink -/

/-- `sinkIdempotencyKey`. -/
def sinkIdempotencyKey (tenantId sinkConfigId schemaRef naturalKey : String) : String :=
  tenantId ++ ":" ++ sinkConfigId ++ ":" ++ schemaRef ++ ":" ++ naturalKey

theorem sinkIdempotencyKey_eq_iff {tenantId sinkConfigId schemaRef naturalKey schemaRef' naturalKey' : String} :
    sinkIdempotencyKey tenantId sinkConfigId schemaRef naturalKey =
        sinkIdempotencyKey tenantId sinkConfigId schemaRef' naturalKey' ↔
      schemaRef.toList ++ ':' :: naturalKey.toList = schemaRef'.toList ++ ':' :: naturalKey'.toList := by
  unfold sinkIdempotencyKey
  rw [← String.toList_inj]
  simp [String.toList_append]

/-- The key of a record is the key of no other record of the tenant exactly if
neither part of it has a colon. -/
theorem sinkIdempotencyKey_injective_iff (tenantId sinkConfigId schemaRef naturalKey : String) :
    (∀ schemaRef' naturalKey', sinkIdempotencyKey tenantId sinkConfigId schemaRef naturalKey =
        sinkIdempotencyKey tenantId sinkConfigId schemaRef' naturalKey' →
      schemaRef = schemaRef' ∧ naturalKey = naturalKey') ↔
    ':' ∉ schemaRef.toList ∧ ':' ∉ naturalKey.toList := by
  simp only [sinkIdempotencyKey_eq_iff]
  constructor
  · intro injective
    -- moving the separator to another colon gives another pair
    constructor
    · intro colon
      obtain ⟨first, last, split⟩ := List.append_of_mem colon
      have same := (injective (.ofList first) (.ofList (last ++ ':' :: naturalKey.toList))
        (by simp [split])).1
      rw [same] at split
      simp at split
    · intro colon
      obtain ⟨first, last, split⟩ := List.append_of_mem colon
      have same := (injective (.ofList (schemaRef.toList ++ ':' :: first)) (.ofList last)
        (by simp [split])).2
      rw [same] at split
      have lengths := congrArg List.length split
      simp only [String.toList_ofList, List.length_append, List.length_cons] at lengths
      omega
  · rintro ⟨schema, natural⟩ schemaRef' naturalKey' same
    obtain ⟨first, _, last⟩ := (List.append_cons_inj_of_notMem schema natural).mp same
    exact ⟨String.toList_inj.mp first, String.toList_inj.mp last⟩

/-- Two records with the same key. -/
theorem sinkIdempotencyKey_colon :
    sinkIdempotencyKey "tenant-1" "sink-1" "a:b" "c" = sinkIdempotencyKey "tenant-1" "sink-1" "a" "b:c" ∧
      ("a:b", "c") ≠ ("a", "b:c") := by
  decide

/-! ## Tables and calls -/

inductive DeliveryStatus where
  | pending | delivered | failed | deadLetter
deriving Repr, DecidableEq

end RpaEnterprise.Pipeline.SinkDelivery
