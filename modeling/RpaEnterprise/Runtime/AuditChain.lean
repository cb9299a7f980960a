import Mathlib.Data.List.Induction
import Mathlib.Data.Rat.Floor
import RpaEnterprise.Lib.Doubles

/-!
# The audit chain

Each row of `audit_log` holds a hash over its columns and the hash of the row
before it.  The writers hash the record they are given, the verifier hashes
what it reads back, and between the two lie a `jsonb` column, which keeps keys
in an order of its own, a `timestamptz`, a `uuid` and a driver that reads
numbers as doubles.

What is hashed is the canonical text of the record.  Another record has another
text; one record in another order of its keys has the same text except where
`localeCompare` calls two keys of an object equal, for the sort then leaves them
in the order in which the object lists them.
-/

namespace RpaEnterprise.Runtime.AuditChain

open Lib

/-- The platform: `localeCompare` as an order of keys, numbers as text, the
hash, the order of keys in `jsonb`, the doubles of `JSON.parse`, `toISOString`,
the microseconds of a `timestamptz` and the text of a `uuid` column. -/
structure Platform where
  localeCompare : Collation
  numerals : Numerals
  sha256 : List Char → String
  collisionFree : Function.Injective sha256
  jsonbOrder : Collation
  jsonb_ties : ∀ one two, jsonbOrder.Tied one two → one = two
  doubles : Doubles
  iso : Int → String
  iso_injective : Function.Injective iso
  timestamptz : Rat → Int
  timestamptz_whole : ∀ instant : Int, timestamptz instant = instant
  uuid : String → String
  uuid_uuid : ∀ text, uuid (uuid text) = uuid text

variable (platform : Platform)

/-! ## The canonical text of a record -/

/-- A JSON record: each of its objects has every key once. -/
structure JsonRecord where
  value : Json
  distinct : value.Distinct

/-- `canonicalize` of a value whose keys were added in the order given;
`Object.entries` lists array indices first. -/
def canonicalize (value : Json) : List Char :=
  (value.arranged ownKeys).canonical platform.localeCompare platform.numerals

/-- The order of the keys in a canonical text. -/
def Platform.keyOrder : Collation := platform.localeCompare.refine ownKeys

theorem canonicalize_eq (value : Json) :
    canonicalize platform value = value.canonical platform.keyOrder platform.numerals := by
  unfold canonicalize Json.canonical
  rw [Json.arranged_refine, Platform.keyOrder]

def canonicalizeRecord (record : JsonRecord) : List Char := canonicalize platform record.value

/-- No object of the record has two keys that `localeCompare` calls equal and
that are both no array index. -/
def KeysApart (record : JsonRecord) : Prop :=
  record.value.Untied (platform.localeCompare.refine ownKeys)

/-- One canonical text for all orders of the keys and for them only, exactly if
no two keys of an object collide. -/
theorem canonical_form_iff (record : JsonRecord) :
    (∀ other : JsonRecord, record.value.Same other.value ↔
      canonicalizeRecord platform record = canonicalizeRecord platform other) ↔
    KeysApart platform record := by
  simp only [canonicalizeRecord, canonicalize_eq]
  constructor
  · intro form
    refine Json.Settled.untied record.value record.distinct fun other same => ?_
    have texts := (form ⟨other, Json.distinct_of_same _ _ record.distinct same⟩).mp same
    exact Json.arranged_of_canonical _ platform.numerals texts
  · intro apart other
    exact ⟨Json.canonical_of_same platform.numerals apart, Json.same_of_canonical _ platform.numerals⟩

/-! ## The hash -/

/-- What is hashed, with instants in milliseconds. -/
structure AuditHashInput where
  tenantId : String
  sequenceNo : Nat
  actor : Json
  action : String
  outcome : String
  reason : Option String
  correlationId : String
  idempotencyKey : String
  occurredAt : Int
  retentionUntil : Option Int
  payloadSchemaRef : String
  payload : Json
  previousHash : String

def textOrNull : Option String → Json
  | some text => .str text
  | none => .null

def AuditHashInput.fields (input : AuditHashInput) : List (String × Json) :=
  [("tenantId", .str input.tenantId), ("sequence", .num input.sequenceNo), ("actor", input.actor),
    ("action", .str input.action), ("outcome", .str input.outcome),
    ("reason", textOrNull input.reason), ("correlationId", .str input.correlationId),
    ("idempotencyKey", .str input.idempotencyKey),
    ("occurredAt", .str (platform.iso input.occurredAt)),
    ("retentionUntil", textOrNull (input.retentionUntil.map platform.iso)),
    ("payloadSchemaRef", .str input.payloadSchemaRef), ("payload", input.payload),
    ("previousHash", .str input.previousHash)]

def computeAuditHash (input : AuditHashInput) : String :=
  "sha256:" ++ platform.sha256 (canonicalize platform (.obj (input.fields platform)))

/-! ## The table -/

/-- A value of a `jsonb` column. -/
structure Jsonb extends JsonRecord where
  stored : value.arranged platform.jsonbOrder = value

/-- A value of a `uuid` column. -/
structure Uuid where
  text : String
  normal : platform.uuid text = text

/-- A row as it is stored, with instants in microseconds. -/
structure AuditRow where
  id : String
  sequenceNo : Nat
  actor : Jsonb platform
  action : String
  outcome : String
  reason : Option String
  correlationId : Uuid platform
  idempotencyKey : String
  occurredAt : Int
  retentionUntil : Option Int
  payloadSchemaRef : String
  payload : Jsonb platform
  previousHash : Option String
  hash : String

/-- A `Date` keeps the whole milliseconds of an instant in microseconds. -/
def millis (instant : Rat) : Int := (instant / 1000).floor

variable {platform}

/-- What the driver reads; a number that is no finite double is hashed as `null`. -/
def Jsonb.parsed (document : Jsonb platform) : Json := document.value.spelled platform.doubles

/-- What the verifier hashes of a row. -/
def AuditRow.read (tenantId : String) (row : AuditRow platform) : AuditHashInput where
  tenantId := tenantId
  sequenceNo := row.sequenceNo
  actor := row.actor.parsed
  action := row.action
  outcome := row.outcome
  reason := row.reason
  correlationId := row.correlationId.text
  idempotencyKey := row.idempotencyKey
  occurredAt := millis row.occurredAt
  retentionUntil := row.retentionUntil.map fun instant : Int => millis instant
  payloadSchemaRef := row.payloadSchemaRef
  payload := row.payload.parsed
  previousHash := row.previousHash.getD "GENESIS"

/-! ## Appending -/

variable (platform)

/-- A document as a writer has it: its numbers are doubles. -/
structure Document extends JsonRecord where
  doubles : value.spelled platform.doubles = value

/-- A record to append; its instants are those its texts stand for, in
microseconds and parts of them. -/
structure AuditRecord where
  rowId : String
  actor : Document platform
  action : String
  outcome : String
  reason : Option String
  correlationId : String
  idempotencyKey : String
  occurredAt : Rat
  retentionUntil : Option Rat
  payloadSchemaRef : String
  payload : Document platform

variable {platform}

def Document.jsonb (document : Document platform) : Jsonb platform where
  value := document.value.arranged platform.jsonbOrder
  distinct := Json.distinct_of_same _ _ document.distinct (Json.same_arranged _ _)
  stored := Json.arranged_arranged _ _

/-- What a writer hashes. -/
def AuditRecord.hashed (tenantId : String) (record : AuditRecord platform) (sequenceNo : Nat)
    (previousHash : Option String) : AuditHashInput where
  tenantId := tenantId
  sequenceNo := sequenceNo
  actor := record.actor.value
  action := record.action
  outcome := record.outcome
  reason := record.reason
  correlationId := record.correlationId
  idempotencyKey := record.idempotencyKey
  occurredAt := millis record.occurredAt
  retentionUntil := record.retentionUntil.map millis
  payloadSchemaRef := record.payloadSchemaRef
  payload := record.payload.value
  previousHash := previousHash.getD "GENESIS"

/-- What a writer inserts. -/
def AuditRecord.row (tenantId : String) (record : AuditRecord platform) (sequenceNo : Nat)
    (previousHash : Option String) : AuditRow platform where
  id := record.rowId
  sequenceNo := sequenceNo
  actor := record.actor.jsonb
  action := record.action
  outcome := record.outcome
  reason := record.reason
  correlationId := ⟨platform.uuid record.correlationId, platform.uuid_uuid _⟩
  idempotencyKey := record.idempotencyKey
  occurredAt := platform.timestamptz record.occurredAt
  retentionUntil := record.retentionUntil.map platform.timestamptz
  payloadSchemaRef := record.payloadSchemaRef
  payload := record.payload.jsonb
  previousHash := previousHash
  hash := computeAuditHash platform (record.hashed tenantId sequenceNo previousHash)

/-- One append, behind the row with the highest sequence number. -/
def append (tenantId : String) (rows : List (AuditRow platform)) (record : AuditRecord platform) :
    List (AuditRow platform) :=
  match rows.getLast? with
  | none => rows ++ [record.row tenantId 1 none]
  | some last => rows ++ [record.row tenantId (last.sequenceNo + 1) (some last.hash)]

def appended (tenantId : String) (records : List (AuditRecord platform)) : List (AuditRow platform) :=
  records.foldl (append tenantId) []

/-! ## Verifying -/

inductive ViolationKind where
  | hashMismatch
  | brokenLink
  | sequenceGap
  | genesisInvalid
deriving Repr, DecidableEq

structure AuditChainViolation where
  sequenceNo : Nat
  id : String
  kind : ViolationKind
  detail : String
deriving Repr, DecidableEq

structure AuditChainVerification where
  tenantId : String
  rowsChecked : Nat
  valid : Bool
  checkedFromSequence : Option Nat
  checkedToSequence : Option Nat
  violations : List AuditChainViolation

variable (platform)

/-- The violations of one row. -/
def checkRow (tenantId : String) (expectedSeq : Nat) (priorHash : String) (row : AuditRow platform) :
    List AuditChainViolation :=
  (if row.sequenceNo ≠ expectedSeq then
    [⟨row.sequenceNo, row.id, .sequenceGap,
      s!"expected sequence {expectedSeq}, found {row.sequenceNo}"⟩] else []) ++
  (if expectedSeq = 1 ∧ row.previousHash ≠ none then
    [⟨row.sequenceNo, row.id, .genesisInvalid, "genesis row must have NULL previous_hash"⟩] else []) ++
  (if expectedSeq ≠ 1 ∧ row.previousHash ≠ some priorHash then
    [⟨row.sequenceNo, row.id, .brokenLink, "previous_hash does not link prior row hash"⟩] else []) ++
  (if computeAuditHash platform (row.read tenantId) ≠ row.hash then
    [⟨row.sequenceNo, row.id, .hashMismatch, "recomputed hash does not match stored hash"⟩] else [])

def checkRows (tenantId : String) : Nat → String → List (AuditRow platform) → List AuditChainViolation
  | _, _, [] => []
  | expectedSeq, priorHash, row :: rest =>
    checkRow platform tenantId expectedSeq priorHash row ++
      checkRows tenantId (expectedSeq + 1) row.hash rest

/-- `verifyAuditChainInTenantTx` on the rows in the order of their sequence
numbers. -/
def verifyAuditChainInTenantTx (tenantId : String) (rows : List (AuditRow platform)) :
    AuditChainVerification :=
  let violations := checkRows platform tenantId 1 "GENESIS" rows
  { tenantId
    rowsChecked := rows.length
    valid := violations.isEmpty
    checkedFromSequence := rows.head?.map AuditRow.sequenceNo
    checkedToSequence := rows.getLast?.map AuditRow.sequenceNo
    violations }

/-- The verifier reports nothing. -/
def Intact (tenantId : String) (rows : List (AuditRow platform)) : Prop :=
  (verifyAuditChainInTenantTx platform tenantId rows).valid = true

/-! ## What an intact chain is -/

/-- Row by row: the number, the link and the hash. -/
def Linked (tenantId : String) : Nat → Option String → List (AuditRow platform) → Prop
  | _, _, [] => True
  | sequenceNo, previousHash, row :: rest =>
    row.sequenceNo = sequenceNo ∧ row.previousHash = previousHash ∧
      computeAuditHash platform (row.read tenantId) = row.hash ∧
      Linked tenantId (sequenceNo + 1) (some row.hash) rest

variable {platform} {tenantId : String}

variable {rows : List (AuditRow platform)} {row : AuditRow platform}

theorem checkRow_eq_nil {expectedSeq : Nat} {priorHash : String} :
    checkRow platform tenantId expectedSeq priorHash row = [] ↔
      row.sequenceNo = expectedSeq ∧
      row.previousHash = (if expectedSeq = 1 then none else some priorHash) ∧
      computeAuditHash platform (row.read tenantId) = row.hash := by
  by_cases first : expectedSeq = 1 <;> simp [checkRow, first]

theorem checkRows_eq_nil {expectedSeq : Nat} {priorHash : String} :
    checkRows platform tenantId (expectedSeq + 2) priorHash rows = [] ↔
      Linked platform tenantId (expectedSeq + 2) (some priorHash) rows := by
  induction rows generalizing expectedSeq priorHash with
  | nil => simp [checkRows, Linked]
  | cons row rest ih =>
    simp only [checkRows, Linked, List.append_eq_nil_iff, checkRow_eq_nil, ih, and_assoc]
    simp

theorem intact_iff :
    Intact platform tenantId rows ↔ Linked platform tenantId 1 none rows := by
  unfold Intact verifyAuditChainInTenantTx
  simp only [List.isEmpty_iff]
  cases rows with
  | nil => simp [checkRows, Linked]
  | cons row rest =>
    simp only [checkRows, Linked, List.append_eq_nil_iff, checkRow_eq_nil, checkRows_eq_nil, and_assoc]
    simp

theorem linked_concat {sequenceNo : Nat} {previousHash : Option String} :
    Linked platform tenantId sequenceNo previousHash (rows ++ [row]) ↔
      Linked platform tenantId sequenceNo previousHash rows ∧
        row.sequenceNo = sequenceNo + rows.length ∧
        row.previousHash = (rows.getLast?.map AuditRow.hash).or previousHash ∧
        computeAuditHash platform (row.read tenantId) = row.hash := by
  induction rows generalizing sequenceNo previousHash with
  | nil => simp [Linked]
  | cons first rest ih =>
    have last : ((first :: rest).getLast?.map AuditRow.hash).or previousHash =
        (rest.getLast?.map AuditRow.hash).or (some first.hash) := by
      cases found : rest.getLast? <;> simp [List.getLast?_cons, found]
    simp only [List.cons_append, Linked, ih, last, List.length_cons, and_assoc,
      Nat.add_assoc, Nat.add_comm 1]

theorem linked_sequenceNo {sequenceNo : Nat} {previousHash : Option String}
    (linked : Linked platform tenantId sequenceNo previousHash rows) :
    rows.map AuditRow.sequenceNo = List.range' sequenceNo rows.length := by
  induction rows generalizing sequenceNo previousHash with
  | nil => rfl
  | cons row rest ih =>
    simp only [List.map_cons, List.length_cons, List.range'_succ, linked.1, ih linked.2.2.2]

/-! ## The hash determines what it was computed from -/

/-- Equal field by field, the documents in the order of their canonical text. -/
structure AuditHashInput.Alike (platform : Platform) (one two : AuditHashInput) : Prop where
  sequenceNo : one.sequenceNo = two.sequenceNo
  actor : one.actor.arranged platform.keyOrder = two.actor.arranged platform.keyOrder
  action : one.action = two.action
  outcome : one.outcome = two.outcome
  reason : one.reason = two.reason
  correlationId : one.correlationId = two.correlationId
  idempotencyKey : one.idempotencyKey = two.idempotencyKey
  occurredAt : one.occurredAt = two.occurredAt
  retentionUntil : one.retentionUntil = two.retentionUntil
  payloadSchemaRef : one.payloadSchemaRef = two.payloadSchemaRef
  payload : one.payload.arranged platform.keyOrder = two.payload.arranged platform.keyOrder
  previousHash : one.previousHash = two.previousHash

theorem arranged_textOrNull (collation : Collation) (text : Option String) :
    (textOrNull text).arranged collation = textOrNull text := by
  cases text <;> rfl

theorem textOrNull_injective : Function.Injective textOrNull := by
  intro one two same
  cases one <;> cases two <;> simp_all [textOrNull]

theorem fields_names (one two : AuditHashInput) :
    (one.fields platform).map Prod.fst = (two.fields platform).map Prod.fst := rfl

theorem fields_nodup (input : AuditHashInput) : ((input.fields platform).map Prod.fst).Nodup := by
  simp [AuditHashInput.fields]

theorem hash_eq_iff (one two : AuditHashInput) (tenant : one.tenantId = two.tenantId) :
    computeAuditHash platform one = computeAuditHash platform two ↔ one.Alike platform two := by
  simp only [computeAuditHash, canonicalize_eq]
  constructor
  · intro same
    have texts := platform.collisionFree ((String.append_right_inj "sha256:").mp same)
    have arranged := Json.arranged_of_canonical platform.keyOrder platform.numerals texts
    have fields := Json.arrangedFields_of_arranged platform.keyOrder (fields_names one two)
      (fields_nodup one) arranged
    simp only [AuditHashInput.fields, Json.arrangedFields, List.cons.injEq, Prod.mk.injEq, true_and,
      and_true, Json.arranged, arranged_textOrNull, Json.str.injEq, Json.num.injEq,
      Rat.natCast_inj] at fields
    obtain ⟨-, sequenceNo, actor, action, outcome, reason, correlationId, idempotencyKey, occurredAt,
      retentionUntil, payloadSchemaRef, payload, previousHash⟩ := fields
    exact {
      sequenceNo, actor, action, outcome, correlationId, idempotencyKey, payloadSchemaRef, payload,
      previousHash
      reason := textOrNull_injective reason
      occurredAt := platform.iso_injective occurredAt
      retentionUntil := Option.map_injective platform.iso_injective (textOrNull_injective retentionUntil) }
  · intro alike
    simp only [Json.canonical, AuditHashInput.fields, Json.arranged, Json.arrangedFields, tenant,
      alike.sequenceNo, alike.actor, alike.action, alike.outcome, alike.reason, alike.correlationId,
      alike.idempotencyKey, alike.occurredAt, alike.retentionUntil, alike.payloadSchemaRef,
      alike.payload, alike.previousHash]

/-! ## When an append is intact -/

/-- A record that reads back as it was written: keys that the canonical text
leaves tied are given in the order of `jsonb`, the correlation id is written as
a `uuid` column writes it, and rounding to microseconds does not reach the next
millisecond. -/
structure ReadsBack (record : AuditRecord platform) : Prop where
  actor : record.actor.value.TiesOrdered platform.keyOrder platform.jsonbOrder
  payload : record.payload.value.TiesOrdered platform.keyOrder platform.jsonbOrder
  correlationId : platform.uuid record.correlationId = record.correlationId
  occurredAt : millis (platform.timestamptz record.occurredAt) = millis record.occurredAt
  retentionUntil : ∀ instant ∈ record.retentionUntil,
    millis (platform.timestamptz instant) = millis instant

theorem parsed_jsonb (document : Document platform) :
    document.jsonb.parsed = document.value.arranged platform.jsonbOrder := by
  rw [Jsonb.parsed, Document.jsonb, Json.spelled_arranged, document.doubles]

theorem parsed_alike_iff (document : Document platform) :
    document.jsonb.parsed.arranged platform.keyOrder = document.value.arranged platform.keyOrder ↔
      document.value.TiesOrdered platform.keyOrder platform.jsonbOrder := by
  rw [parsed_jsonb, Json.arranged_refine]
  exact Json.arranged_refine_eq_iff _ _ _ document.distinct

theorem map_millis_iff {instants : Option Rat} :
    (instants.map platform.timestamptz).map (fun instant : Int => millis instant) = instants.map millis ↔
      ∀ instant ∈ instants, millis (platform.timestamptz instant) = millis instant := by
  cases instants <;> simp

theorem hash_row_iff {record : AuditRecord platform} {sequenceNo : Nat} {previousHash : Option String} :
    computeAuditHash platform ((record.row tenantId sequenceNo previousHash).read tenantId) =
        (record.row tenantId sequenceNo previousHash).hash ↔ ReadsBack record := by
  rw [show (record.row tenantId sequenceNo previousHash).hash =
    computeAuditHash platform (record.hashed tenantId sequenceNo previousHash) from rfl,
    hash_eq_iff ((record.row tenantId sequenceNo previousHash).read tenantId)
      (record.hashed tenantId sequenceNo previousHash) rfl]
  refine ⟨fun alike => ?_, fun back => ?_⟩
  · exact {
      actor := (parsed_alike_iff _).mp alike.actor
      payload := (parsed_alike_iff _).mp alike.payload
      correlationId := alike.correlationId
      occurredAt := alike.occurredAt
      retentionUntil := map_millis_iff.mp alike.retentionUntil }
  · exact {
      sequenceNo := rfl, action := rfl, outcome := rfl, reason := rfl, idempotencyKey := rfl
      payloadSchemaRef := rfl, previousHash := rfl
      actor := (parsed_alike_iff _).mpr back.actor
      payload := (parsed_alike_iff _).mpr back.payload
      correlationId := back.correlationId
      occurredAt := back.occurredAt
      retentionUntil := map_millis_iff.mpr back.retentionUntil }

theorem linked_append_iff {record : AuditRecord platform} :
    Linked platform tenantId 1 none (append tenantId rows record) ↔
      Linked platform tenantId 1 none rows ∧ ReadsBack record := by
  unfold append
  cases last : rows.getLast? with
  | none =>
    obtain rfl := List.getLast?_eq_none_iff.mp last
    simp only [List.nil_append, Linked, hash_row_iff]
    simp [AuditRecord.row]
  | some row =>
    simp only [linked_concat, hash_row_iff, last]
    refine ⟨fun all => ⟨all.1, all.2.2.2⟩, fun both => ⟨both.1, ?_, by simp [AuditRecord.row], both.2⟩⟩
    obtain ⟨earlier, rfl⟩ := List.getLast?_eq_some_iff.mp last
    have number := (linked_concat.mp both.1).2.1
    simp only [AuditRecord.row, number, List.length_append, List.length_singleton]
    omega

theorem appended_concat (records : List (AuditRecord platform)) (record : AuditRecord platform) :
    appended tenantId (records ++ [record]) = append tenantId (appended tenantId records) record := by
  simp [appended, List.foldl_append]

theorem linked_appended_iff {records : List (AuditRecord platform)} :
    Linked platform tenantId 1 none (appended tenantId records) ↔
      ∀ record ∈ records, ReadsBack record := by
  induction records using List.reverseRecOn with
  | nil => simp [appended, Linked]
  | append_singleton earlier record ih =>
    rw [appended_concat, linked_append_iff, ih]
    simp [or_imp, forall_and]

/-! ## When an intact chain was appended -/

/-- The numbers of the two documents are doubles. -/
structure AuditRow.OfDoubles (row : AuditRow platform) : Prop where
  actor : row.actor.parsed = row.actor.value
  payload : row.payload.parsed = row.payload.value

/-- The record that a row was appended from. -/
def AuditRow.record (row : AuditRow platform) (ofDoubles : row.OfDoubles) : AuditRecord platform where
  rowId := row.id
  actor := ⟨row.actor.toJsonRecord, ofDoubles.actor⟩
  action := row.action
  outcome := row.outcome
  reason := row.reason
  correlationId := row.correlationId.text
  idempotencyKey := row.idempotencyKey
  occurredAt := row.occurredAt
  retentionUntil := row.retentionUntil.map fun instant : Int => (instant : Rat)
  payloadSchemaRef := row.payloadSchemaRef
  payload := ⟨row.payload.toJsonRecord, ofDoubles.payload⟩

theorem jsonb_ext {one two : Jsonb platform} (values : one.value = two.value) : one = two := by
  obtain ⟨⟨value, distinct⟩, stored⟩ := one
  obtain ⟨⟨value', distinct'⟩, stored'⟩ := two
  obtain rfl : value = value' := values
  rfl

theorem uuid_ext {one two : Uuid platform} (texts : one.text = two.text) : one = two := by
  obtain ⟨text, normal⟩ := one
  obtain ⟨text', normal'⟩ := two
  obtain rfl : text = text' := texts
  rfl

theorem map_timestamptz_whole (instants : Option Int) :
    (instants.map fun instant : Int => (instant : Rat)).map platform.timestamptz = instants := by
  cases instants <;> simp [platform.timestamptz_whole]

theorem hashed_record (ofDoubles : row.OfDoubles) :
    (row.record ofDoubles).hashed tenantId row.sequenceNo row.previousHash = row.read tenantId := by
  simp [AuditRow.record, AuditRecord.hashed, AuditRow.read, ofDoubles.actor, ofDoubles.payload,
    Function.comp_def]

theorem row_record (ofDoubles : row.OfDoubles)
    (hash : computeAuditHash platform (row.read tenantId) = row.hash) :
    (row.record ofDoubles).row tenantId row.sequenceNo row.previousHash = row := by
  have actor : (row.record ofDoubles).actor.jsonb = row.actor := jsonb_ext row.actor.stored
  have payload : (row.record ofDoubles).payload.jsonb = row.payload := jsonb_ext row.payload.stored
  have correlationId : (⟨platform.uuid (row.record ofDoubles).correlationId, platform.uuid_uuid _⟩ :
      Uuid platform) = row.correlationId := uuid_ext row.correlationId.normal
  have occurredAt : platform.timestamptz (row.record ofDoubles).occurredAt = row.occurredAt :=
    platform.timestamptz_whole _
  have retentionUntil : (row.record ofDoubles).retentionUntil.map platform.timestamptz =
      row.retentionUntil := map_timestamptz_whole _
  rw [AuditRecord.row, hashed_record, hash, actor, payload, correlationId, occurredAt, retentionUntil]
  rfl

theorem exists_appended (linked : Linked platform tenantId 1 none rows)
    (ofDoubles : ∀ row ∈ rows, row.OfDoubles) : ∃ records, appended tenantId records = rows := by
  induction rows using List.reverseRecOn with
  | nil => exact ⟨[], rfl⟩
  | append_singleton earlier row ih =>
    obtain ⟨before, number, link, hash⟩ := linked_concat.mp linked
    obtain ⟨records, front⟩ := ih before fun other member =>
      ofDoubles other (List.mem_append_left _ member)
    refine ⟨records ++ [row.record (ofDoubles row (by simp))], ?_⟩
    have same := row_record (ofDoubles row (by simp)) hash
    rw [appended_concat, front, append]
    cases last : earlier.getLast? with
    | none =>
      obtain rfl := List.getLast?_eq_none_iff.mp last
      simp only [List.getLast?_nil, Option.map_none, Option.or_none] at link
      rw [number, link] at same
      exact congrArg (fun row => [row]) same
    | some prior =>
      obtain ⟨start, rfl⟩ := List.getLast?_eq_some_iff.mp last
      have next : prior.sequenceNo + 1 = row.sequenceNo := by
        rw [number, (linked_concat.mp before).2.1]
        simp only [List.length_append, List.length_singleton]
        omega
      simp only [last, Option.map_some, Option.some_or] at link
      dsimp only
      rw [next, ← link, same]

theorem ofDoubles_row (record : AuditRecord platform) (sequenceNo : Nat) (previousHash : Option String) :
    (record.row tenantId sequenceNo previousHash).OfDoubles :=
  ⟨parsed_jsonb record.actor, parsed_jsonb record.payload⟩

theorem ofDoubles_appended (records : List (AuditRecord platform)) :
    ∀ row ∈ appended tenantId records, row.OfDoubles := by
  induction records using List.reverseRecOn with
  | nil => simp [appended]
  | append_singleton earlier record ih =>
    intro row member
    rw [appended_concat, append] at member
    cases last : (appended tenantId earlier).getLast? with
    | none | some prior =>
      simp only [last, List.mem_append, List.mem_singleton] at member
      rcases member with before | rfl
      · exact ih row before
      · exact ofDoubles_row ..

/-! ## Tampering -/

theorem linked_getElem {sequenceNo : Nat} {previousHash : Option String}
    (linked : Linked platform tenantId sequenceNo previousHash rows) {i : Nat}
    (found : rows[i]? = some row) :
    row.sequenceNo = sequenceNo + i ∧
      computeAuditHash platform (row.read tenantId) = row.hash ∧
      (row.previousHash = if i = 0 then previousHash else (rows[i - 1]?).map AuditRow.hash) := by
  induction rows generalizing sequenceNo previousHash i with
  | nil => simp at found
  | cons first rest ih =>
    cases i with
    | zero =>
      simp only [List.getElem?_cons_zero, Option.some.injEq] at found
      subst found
      exact ⟨linked.1, linked.2.2.1, linked.2.1⟩
    | succ i =>
      rw [List.getElem?_cons_succ] at found
      obtain ⟨number, hash, link⟩ := ih linked.2.2.2 found
      refine ⟨by omega, hash, ?_⟩
      rw [link]
      cases i <;> simp

theorem not_intact_of_sequenceNo (i : Nat) (row : AuditRow platform)
    (found : rows[i]? = some row) (wrong : row.sequenceNo ≠ i + 1) :
    ¬ Intact platform tenantId rows := by
  rw [intact_iff]
  intro linked
  have number := (linked_getElem linked found).1
  omega

theorem eraseIdx_reported (linked : Linked platform tenantId 1 none rows)
    {i : Nat} (inside : i + 1 < rows.length) : ¬ Intact platform tenantId (rows.eraseIdx i) := by
  have next : rows[i + 1]? = some rows[i + 1] := List.getElem?_eq_getElem inside
  have number := (linked_getElem linked next).1
  refine not_intact_of_sequenceNo i rows[i + 1] ?_ (by omega)
  rw [List.getElem?_eraseIdx_of_ge le_rfl, next]

theorem insertIdx_reported (linked : Linked platform tenantId 1 none rows)
    {i : Nat} (row : AuditRow platform) (inside : i < rows.length) :
    ¬ Intact platform tenantId (rows.insertIdx i row) := by
  have here : rows[i]? = some rows[i] := List.getElem?_eq_getElem inside
  have number := (linked_getElem linked here).1
  refine not_intact_of_sequenceNo (i + 1) rows[i] ?_ (by omega)
  rw [List.getElem?_insertIdx_of_gt (by omega)]
  exact here

/-- Two chains with the same rows are the same chain. -/
theorem reordered_reported {rows other : List (AuditRow platform)}
    (linked : Linked platform tenantId 1 none rows) (perm : other.Perm rows) (different : other ≠ rows) :
    ¬ Intact platform tenantId other := by
  rw [intact_iff]
  intro linkedToo
  apply different
  have numbers : other.map AuditRow.sequenceNo = rows.map AuditRow.sequenceNo := by
    rw [linked_sequenceNo linked, linked_sequenceNo linkedToo, perm.length_eq]
  have keyed := eq_of_perm_of_keys (perm.map fun row => (row.sequenceNo, row)) (by
    simpa [Function.comp_def] using numbers) (by
    simpa [Function.comp_def, linked_sequenceNo linkedToo] using List.nodup_range')
  have rows := congrArg (List.map Prod.snd) keyed
  simpa [Function.comp_def] using rows

theorem linked_set {sequenceNo : Nat} {previousHash : Option String}
    (linked : Linked platform tenantId sequenceNo previousHash rows) {i : Nat} {old row : AuditRow platform}
    (found : rows[i]? = some old) (read : row.read tenantId = old.read tenantId)
    (link : row.previousHash = old.previousHash) (hash : row.hash = old.hash) :
    Linked platform tenantId sequenceNo previousHash (rows.set i row) := by
  have number : row.sequenceNo = old.sequenceNo := congrArg AuditHashInput.sequenceNo read
  induction rows generalizing sequenceNo previousHash i with
  | nil => simp at found
  | cons first rest ih =>
    cases i with
    | zero =>
      simp only [List.getElem?_cons_zero, Option.some.injEq] at found
      subst found
      rw [List.set_cons_zero, Linked, number, link, read, hash]
      exact linked
    | succ i => exact ⟨linked.1, linked.2.1, linked.2.2.1, ih linked.2.2.2 found⟩

/-- What the driver reads of two `jsonb` columns is equal when it is equal up to
the order of keys. -/
theorem parsed_eq_of_alike {one two : Jsonb platform}
    (alike : one.parsed.arranged platform.keyOrder = two.parsed.arranged platform.keyOrder) :
    one.parsed = two.parsed := by
  have stored : ∀ document : Jsonb platform,
      document.parsed.arranged platform.jsonbOrder = document.parsed := by
    intro document
    rw [Jsonb.parsed, ← Json.spelled_arranged, document.stored]
  rw [← stored one, ← stored two]
  exact (Json.same_iff_arranged platform.jsonb_ties (Json.distinct_spelled _ _ one.distinct)).mp
    (Json.same_of_arranged _ _ _ alike)

theorem read_eq_of_alike {one two : AuditRow platform}
    (alike : (one.read tenantId).Alike platform (two.read tenantId)) :
    one.read tenantId = two.read tenantId := by
  have actor : one.actor.parsed = two.actor.parsed := parsed_eq_of_alike alike.actor
  have payload : one.payload.parsed = two.payload.parsed := parsed_eq_of_alike alike.payload
  obtain ⟨sequenceNo, -, action, outcome, reason, correlationId, idempotencyKey, occurredAt,
    retentionUntil, payloadSchemaRef, -, previousHash⟩ := alike
  simp only [AuditRow.read] at *
  simp only [sequenceNo, actor, action, outcome, reason, correlationId, idempotencyKey, occurredAt,
    retentionUntil, payloadSchemaRef, payload, previousHash]

/-- A row may take the place of another under the same hash exactly if the
driver reads the same of both. -/
theorem set_intact_iff (linked : Linked platform tenantId 1 none rows) {i : Nat} (inside : i < rows.length)
    (kept : i + 1 < rows.length ∨ row.hash = rows[i].hash) :
    Intact platform tenantId (rows.set i row) ↔
      row.read tenantId = rows[i].read tenantId ∧ row.previousHash = rows[i].previousHash ∧
        row.hash = rows[i].hash := by
  have here : rows[i]? = some rows[i] := List.getElem?_eq_getElem inside
  rw [intact_iff]
  constructor
  · intro changed
    have there : (rows.set i row)[i]? = some row := by simp [inside]
    obtain ⟨-, hash, link⟩ := linked_getElem linked here
    obtain ⟨-, hash', link'⟩ := linked_getElem changed there
    have links : row.previousHash = rows[i].previousHash := by
      rw [link, link']
      cases i with
      | zero => rfl
      | succ i => simp
    have hashes : row.hash = rows[i].hash := by
      rcases kept with next | same
      · have after : rows[i + 1]? = some rows[i + 1] := List.getElem?_eq_getElem next
        have after' : (rows.set i row)[i + 1]? = some rows[i + 1] := by simp [next]
        have one := (linked_getElem linked after).2.2
        have two := (linked_getElem changed after').2.2
        rw [one] at two
        simpa [inside] using two.symm
      · exact same
    have alike := (hash_eq_iff (row.read tenantId) (rows[i].read tenantId) rfl).mp
      (hash'.trans (hashes.trans hash.symm))
    exact ⟨read_eq_of_alike alike, links, hashes⟩
  · rintro ⟨read, link, hash⟩
    exact linked_set linked here read link hash

variable (platform) in
/-- What is reported about an intact chain that somebody tampers with.  A last
row that is changed together with its hash is a truncation and an append. -/
structure TamperEvident (tenantId : String) (rows : List (AuditRow platform)) : Prop where
  deleted : ∀ i, i + 1 < rows.length → ¬ Intact platform tenantId (rows.eraseIdx i)
  inserted : ∀ i row, i < rows.length → ¬ Intact platform tenantId (rows.insertIdx i row)
  reordered : ∀ other, other.Perm rows → other ≠ rows → ¬ Intact platform tenantId other
  changed : ∀ i row (inside : i < rows.length), i + 1 < rows.length ∨ row.hash = rows[i].hash →
    (Intact platform tenantId (rows.set i row) ↔
      row.read tenantId = rows[i].read tenantId ∧ row.previousHash = rows[i].previousHash ∧
        row.hash = rows[i].hash)

/-- Appended rows are intact exactly if every record reads back as it was
written; intact rows were appended exactly if the numbers of their documents are
doubles; and of an intact chain only what the driver rounds away can be changed
unreported. -/
theorem intact_iff_appended (platform : Platform) (tenantId : String) :
    (∀ records : List (AuditRecord platform), Intact platform tenantId (appended tenantId records) ↔
      ∀ record ∈ records, ReadsBack record) ∧
    (∀ rows : List (AuditRow platform), Intact platform tenantId rows →
      ((∃ records, appended tenantId records = rows) ↔ ∀ row ∈ rows, row.OfDoubles) ∧
      TamperEvident platform tenantId rows) := by
  refine ⟨fun records => intact_iff.trans linked_appended_iff, fun rows intact => ?_⟩
  have linked := intact_iff.mp intact
  refine ⟨⟨?_, exists_appended linked⟩, ?_⟩
  · rintro ⟨records, rfl⟩
    exact ofDoubles_appended records
  · exact {
      deleted := fun i inside => eraseIdx_reported linked inside
      inserted := fun i row inside => insertIdx_reported linked row inside
      reordered := fun other perm different => reordered_reported linked perm different
      changed := fun i row inside kept => set_intact_iff linked inside kept }

/-! ## Tied keys -/

/-- The two ways to write `é` sort alike. -/
def foldAccent (text : String) : String := if text = "e\u0301" then "\u00e9" else text

def accentBlind : Collation where
  before one two := foldAccent one ≤ foldAccent two
  total one two := by simpa using String.le_total (foldAccent one) (foldAccent two)
  trans one two three := by simpa using String.le_trans

/-- Shorter keys first. -/
def byLength : Collation where
  before one two := one.utf8ByteSize < two.utf8ByteSize ||
    one.utf8ByteSize == two.utf8ByteSize && one ≤ two
  total one two := by
    simp only [Bool.or_eq_true, Bool.and_eq_true, decide_eq_true_eq, beq_iff_eq]
    rcases Nat.lt_trichotomy one.utf8ByteSize two.utf8ByteSize with less | same | more
    · exact .inl (.inl less)
    · exact (String.le_total one two).imp (.inr ⟨same, ·⟩) (.inr ⟨same.symm, ·⟩)
    · exact .inr (.inl more)
  trans one two three first second := by
    simp only [Bool.or_eq_true, Bool.and_eq_true, decide_eq_true_eq, beq_iff_eq] at first second ⊢
    rcases first with less | ⟨same, before⟩
    · exact .inl (by omega)
    · rcases second with less | ⟨same', before'⟩
      · exact .inl (by omega)
      · exact .inr ⟨same.trans same', String.le_trans before before'⟩

theorem byLength_ties (one two : String) (tied : byLength.Tied one two) : one = two := by
  simp only [Collation.Tied, byLength, Bool.or_eq_true, Bool.and_eq_true, decide_eq_true_eq,
    beq_iff_eq] at tied
  exact String.le_antisymm (by grind) (by grind)

/-- A platform whose hash is the text it hashes. -/
def plainPlatform : Platform where
  localeCompare := accentBlind
  numerals := .fractions
  sha256 := String.ofList
  collisionFree _ _ same := String.ofList_injective same
  jsonbOrder := byLength
  jsonb_ties := byLength_ties
  doubles := binary64
  iso instant := String.ofList (Numerals.fraction instant)
  iso_injective _ _ same := by
    simpa using Numerals.fraction_injective (String.ofList_injective same)
  timestamptz instant := (instant + 1 / 2).floor
  timestamptz_whole instant := by
    change ⌊(instant : Rat) + 1 / 2⌋ = instant
    exact Int.floor_eq_iff.mpr ⟨by linarith, by linarith⟩
  uuid := id
  uuid_uuid _ := rfl

/-- Two spellings of `é` as keys, in this order. -/
def accentedRecord : JsonRecord where
  value := .obj [("e\u0301", .num 1), ("\u00e9", .num 2)]
  distinct := by simp [Json.Distinct, Json.DistinctFields]

def accentedRecordSwapped : JsonRecord where
  value := .obj [("\u00e9", .num 2), ("e\u0301", .num 1)]
  distinct := by simp [Json.Distinct, Json.DistinctFields]

/-- The canonical texts of the two orders differ. -/
theorem accented_keys_collide :
    accentedRecord.value.Same accentedRecordSwapped.value ∧
      canonicalizeRecord plainPlatform accentedRecord ≠
        canonicalizeRecord plainPlatform accentedRecordSwapped := by
  refine ⟨Json.same_of_perm (.swap _ _ []), ?_⟩
  decide +kernel

def systemActor : Document plainPlatform where
  value := .obj [("kind", .str "system")]
  distinct := by simp [Json.Distinct, Json.DistinctFields]
  doubles := by simp [Json.spelled, Json.spelledFields]

def auditRecord (payload : Document plainPlatform) : AuditRecord plainPlatform where
  rowId := "row-1"
  actor := systemActor
  action := "bypassrls.use"
  outcome := "allow"
  reason := none
  correlationId := "0b0e6f5e-0000-4000-8000-000000000001"
  idempotencyKey := "key-1"
  occurredAt := 1767312000000000
  retentionUntil := none
  payloadSchemaRef := "audit/security-boundary-decision@1"
  payload := payload

def threeRecords : List (AuditRecord plainPlatform) :=
  ["key-1", "key-2", "key-3"].map fun key => { auditRecord systemActor with idempotencyKey := key }

theorem intact_iff_appended_thrice :
    Intact plainPlatform "tenant-1" (appended "tenant-1" threeRecords) ∧
      ¬ Intact plainPlatform "tenant-1" ((appended "tenant-1" threeRecords).eraseIdx 1) := by
  obtain ⟨appends, intacts⟩ := intact_iff_appended plainPlatform "tenant-1"
  have ordered : systemActor.value.TiesOrdered plainPlatform.keyOrder plainPlatform.jsonbOrder := by
    simp [systemActor, Json.TiesOrdered, Json.TiesOrderedFields]
  have whole : millis (plainPlatform.timestamptz 1767312000000000) = millis 1767312000000000 := by decide +kernel
  have intact : Intact plainPlatform "tenant-1" (appended "tenant-1" threeRecords) := by
    refine (appends threeRecords).mpr fun record member => ?_
    obtain ⟨key, -, rfl⟩ := List.mem_map.mp member
    exact ⟨ordered, ordered, rfl, whole, by simp [auditRecord]⟩
  exact ⟨intact, (intacts _ intact).2.deleted 1 (by decide +kernel)⟩

theorem spelled_accents : (Json.obj [("e\u0301", .num 1), ("\u00e9", .num 2)]).spelled binary64 =
    .obj [("e\u0301", .num 1), ("\u00e9", .num 2)] := by
  have one : binary64.read 1 = some 1 := by decide +kernel
  have two : binary64.read 2 = some 2 := by decide +kernel
  simp [Json.spelled, Json.spelledFields, one, two]

/-- A record whose payload has both keys is reported right after it was
appended. -/
theorem tied_keys_reported :
    (verifyAuditChainInTenantTx plainPlatform "tenant-1" (appended "tenant-1"
      [auditRecord ⟨accentedRecord, spelled_accents⟩])).violations.map
        AuditChainViolation.kind = [.hashMismatch] := by
  decide +kernel

end RpaEnterprise.Runtime.AuditChain
