import RpaEnterprise.Interpreter.ExtractDedupe
import RpaEnterprise.Lib.Doubles

/-!
# What a webhook signature binds

A delivery is signed over `timestamp.eventId.body` with the body in a canonical
text.  The timestamp has no dot and the event id no brace, so the three parts
can be read back.  The canonical text of the body leaves out members named
`__proto__`, has the nearest double for every number and `null` for one that
`JSON.parse` reads as infinite: a body shares its signature with the body that is
left of it.
-/

namespace RpaEnterprise.Api.WebhookSigning

open Lib
open Interpreter (ExtractDedupe.pruned ExtractDedupe.prunedItems ExtractDedupe.prunedFields)

/-- The platform: the order of strings by code units, numbers as text, and the doubles
that `JSON.parse` reads numbers as. -/
structure Platform extends Interpreter.ExtractDedupe.Platform where
  doubles : Doubles

variable (platform : Platform)

/-- Sorted keys are written one after the other to an object that inherits
`__proto__`, as for the keys of extracted records. -/
def canonicalize (value : Json) : Json :=
  Interpreter.ExtractDedupe.normalizeForStableStringify platform.toPlatform value

def canonicalJson (value : Json) : List Char :=
  (Json.spelled platform.doubles (canonicalize platform value)).canonical ownKeys platform.numerals

def webhookSigningPayload (timestamp eventId : List Char) (body : Json) : List Char :=
  timestamp ++ '.' :: (eventId ++ '.' :: canonicalJson platform body)

/-! ## Signatures -/

def isHexDigit (char : Char) : Bool := char.isDigit || 'a' ≤ char && char ≤ 'f'

/-- HMAC-SHA256 with its digest in hexadecimal digits. -/
structure Hmac where
  digest : String → List Char → List Char
  length_digest : ∀ secret payload, (digest secret payload).length = 64
  isHexDigit_digest : ∀ secret payload, (digest secret payload).all isHexDigit = true

/-- Two payloads with one digest. -/
def Hmac.Collides (hmac : Hmac) (secret : String) (one two : List Char) : Prop :=
  one ≠ two ∧ hmac.digest secret one = hmac.digest secret two

/-- The match of `/^sha256=([a-f0-9]{64})$/i`, with its digits in lower case. -/
def signatureDigits (header : List Char) : Option (List Char) :=
  let lower := header.map Char.toLower
  let digits := lower.drop 7
  if lower.take 7 = "sha256=".toList ∧ digits.length = 64 ∧ digits.all isHexDigit then some digits
  else none

def verifyWebhookSignature (hmac : Hmac) (secret : String) (header payload : List Char) : Bool :=
  match signatureDigits header with
  | none => false
  | some provided => provided = hmac.digest secret payload

/-- Test of `/^[A-Za-z0-9._:-]{1,200}$/`. -/
def isEventId (text : List Char) : Bool :=
  1 ≤ text.length && text.length ≤ 200 &&
    text.all fun char => char.isAlphanum || char = '.' || char = '_' || char = ':' || char = '-'

/-- Test of `/^\d{10,13}$/`. -/
def isTimestamp (text : List Char) : Bool :=
  10 ≤ text.length && text.length ≤ 13 && text.all Char.isDigit

/-- A delivery whose headers are accepted and whose body is an object. -/
structure Message where
  timestamp : List Char
  eventId : List Char
  fields : List (String × Json)
  timestamp_ok : isTimestamp timestamp = true
  eventId_ok : isEventId eventId = true
  distinct : (Json.obj fields).Distinct

def Message.body (message : Message) : Json := .obj message.fields

def Message.payload (message : Message) : List Char :=
  webhookSigningPayload platform message.timestamp message.eventId message.body

/-- The same message up to the order of keys. -/
def Message.Same (message other : Message) : Prop :=
  message.timestamp = other.timestamp ∧ message.eventId = other.eventId ∧
    message.body.Same other.body

mutual

/-- No member is named `__proto__` and every number is a double. -/
def plain : Json → Bool
  | .num value => platform.doubles.read value = some value
  | .arr items => plainItems items
  | .obj fields => plainFields fields
  | .null => true
  | .bool _ => true
  | .str _ => true

def plainItems : List Json → Bool
  | [] => true
  | item :: rest => plain item && plainItems rest

def plainFields : List (String × Json) → Bool
  | [] => true
  | (name, value) :: rest => name ≠ "__proto__" && plain value && plainFields rest

end

/-! ## What the canonical text keeps -/

/-- What is left of a body in its canonical text. -/
def kept (value : Json) : Json := Json.spelled platform.doubles (ExtractDedupe.pruned value)

variable {platform}

theorem plainItems_iff (items : List Json) :
    plainItems platform items = true ↔ ∀ item ∈ items, plain platform item = true := by
  induction items with
  | nil => simp [plainItems]
  | cons item rest ih => simp [plainItems, ih]

theorem plainFields_iff (fields : List (String × Json)) :
    plainFields platform fields = true ↔
      ∀ field ∈ fields, field.1 ≠ "__proto__" ∧ plain platform field.2 = true := by
  induction fields with
  | nil => simp [plainFields]
  | cons field rest ih => simp [plainFields, ih]

theorem distinct_kept {value : Json} (distinct : value.Distinct) : (kept platform value).Distinct :=
  Json.distinct_spelled platform.doubles _ (Interpreter.ExtractDedupe.distinct_pruned value distinct)

theorem kept_of_plain (value : Json) (clean : plain platform value = true) :
    kept platform value = value := by
  match value with
  | .null | .bool _ | .str _ => simp [kept, Json.spelled, ExtractDedupe.pruned]
  | .num value =>
    rw [plain, decide_eq_true_eq] at clean
    simp [kept, Json.spelled, ExtractDedupe.pruned, clean]
  | .arr items =>
    rw [plain, plainItems_iff] at clean
    rw [kept, ExtractDedupe.pruned, Json.spelled, Json.spelledItems_eq, Interpreter.ExtractDedupe.prunedItems_eq,
      List.map_map]
    congr 1
    refine (List.map_congr_left fun item member => ?_).trans (List.map_id items)
    exact kept_of_plain item (clean item member)
  | .obj fields =>
    rw [plain, plainFields_iff] at clean
    have own : fields.filter Interpreter.ExtractDedupe.isOwn = fields :=
      List.filter_eq_self.mpr fun field member => decide_eq_true (clean field member).1
    rw [kept, ExtractDedupe.pruned, Json.spelled, Json.spelledFields_eq, Interpreter.ExtractDedupe.prunedFields_eq,
      own, List.map_map]
    congr 1
    refine (List.map_congr_left fun field member => ?_).trans (List.map_id fields)
    exact Prod.ext rfl (kept_of_plain field.2 (clean field member).2)
termination_by sizeOf value
decreasing_by
  · exact Json.sizeOf_item_lt member
  · exact Json.sizeOf_field_lt member

theorem plain_kept (value : Json) : plain platform (kept platform value) = true := by
  match value with
  | .null | .bool _ | .str _ => simp [kept, Json.spelled, ExtractDedupe.pruned, plain]
  | .num value =>
    rw [kept, ExtractDedupe.pruned, Json.spelled]
    cases found : platform.doubles.read value with
    | none => rfl
    | some double => exact decide_eq_true (platform.doubles.read_read value double found)
  | .arr items =>
    rw [kept, ExtractDedupe.pruned, Json.spelled, plain, Json.spelledItems_eq,
      Interpreter.ExtractDedupe.prunedItems_eq, List.map_map, plainItems_iff]
    intro item member
    obtain ⟨source, among, rfl⟩ := List.mem_map.mp member
    exact plain_kept source
  | .obj fields =>
    rw [kept, ExtractDedupe.pruned, Json.spelled, plain, Json.spelledFields_eq,
      Interpreter.ExtractDedupe.prunedFields_eq, List.map_map, plainFields_iff]
    intro field member
    obtain ⟨source, among, rfl⟩ := List.mem_map.mp member
    obtain ⟨among, own⟩ := List.mem_filter.mp among
    exact ⟨of_decide_eq_true own, plain_kept source.2⟩
termination_by sizeOf value
decreasing_by
  · exact Json.sizeOf_item_lt among
  · exact Json.sizeOf_field_lt among

theorem plain_of_same (value other : Json) (clean : plain platform value = true)
    (same : value.Same other) : plain platform other = true := by
  match value, other with
  | .null, .null | .bool _, .bool _ | .str _, .str _ => rfl
  | .num one, .num two =>
    rw [Json.Same] at same
    rwa [← same]
  | .arr items, .arr others =>
    rw [Json.Same] at same
    rw [plain, plainItems_iff] at clean ⊢
    intro other among
    obtain ⟨item, member, here⟩ := Json.sameItems_source same other among
    exact plain_of_same item other (clean item member) here
  | .obj fields, .obj others =>
    rw [Json.Same] at same
    rw [plain, plainFields_iff] at clean ⊢
    intro other among
    obtain ⟨names, sources⟩ := Json.sameFields_source same
    obtain ⟨field, member, here⟩ := sources other among
    obtain ⟨source, member', equal⟩ := List.mem_map.mp (names.mem_iff.mpr (List.mem_map_of_mem among))
    exact ⟨equal ▸ (clean source member').1, plain_of_same field.2 other.2 (clean field member).2 here⟩
termination_by sizeOf value
decreasing_by
  · exact Json.sizeOf_item_lt member
  · exact Json.sizeOf_field_lt member

/-! ## Payloads -/

theorem ties {one two : String} (tied : (ownKeys.refine platform.codeUnits).Tied one two) : one = two :=
  platform.untied one two ((Collation.refine_tied _ _).mp tied).2

theorem canonicalJson_eq {value : Json} (distinct : value.Distinct) :
    canonicalJson platform value =
      (kept platform value).canonical (ownKeys.refine platform.codeUnits) platform.numerals := by
  rw [canonicalJson, canonicalize, Interpreter.ExtractDedupe.normalize_eq value distinct, Json.spelled_arranged,
    Json.canonical, Json.canonical, Json.arranged_refine, kept]

/-- The canonical text is that of what is left, up to the order of keys. -/
theorem canonicalJson_eq_iff {value other : Json} (distinct : value.Distinct) (distinct' : other.Distinct) :
    canonicalJson platform value = canonicalJson platform other ↔
      (kept platform value).Same (kept platform other) := by
  rw [canonicalJson_eq distinct, canonicalJson_eq distinct']
  constructor
  · exact Json.same_of_canonical _ platform.numerals
  · exact Json.canonical_of_same platform.numerals
      (Json.untied_of_distinct (fun _ _ => ties) _ (distinct_kept distinct))

theorem Message.distinct_body (message : Message) : message.body.Distinct := message.distinct

theorem Message.dot_not_mem (message : Message) : '.' ∉ message.timestamp := by
  intro member
  have accepted := message.timestamp_ok
  simp only [isTimestamp, Bool.and_eq_true, List.all_eq_true] at accepted
  exact absurd (accepted.2 '.' member) (by decide)

theorem Message.brace_not_mem (message : Message) : '\x7b' ∉ message.eventId := by
  intro member
  have accepted := message.eventId_ok
  simp only [isEventId, Bool.and_eq_true, List.all_eq_true] at accepted
  exact absurd (accepted.2 _ member) (by decide)

/-- Two texts with a mark after parts that are without it have equal parts. -/
theorem eq_of_append_mark {mark : Char} {one two rest rest' : List Char} (free : mark ∉ one) (free' : mark ∉ two)
    (same : one ++ mark :: rest = two ++ mark :: rest') : one = two ∧ rest = rest' := by
  have part (text tail : List Char) (without : mark ∉ text) :
      (text ++ mark :: tail).takeWhile (· ≠ mark) = text ∧ (text ++ mark :: tail).dropWhile (· ≠ mark) = mark :: tail := by
    have all : ∀ char ∈ text, decide (char ≠ mark) = true := fun char member =>
      decide_eq_true fun equal => without (equal ▸ member)
    rw [List.takeWhile_append_of_pos all, List.dropWhile_append_of_pos all]
    simp
  have first := part one rest free
  rw [same] at first
  have second := part two rest' free'
  exact ⟨first.1.symm.trans second.1, (List.cons.inj (first.2.symm.trans second.2)).2⟩

theorem Message.canonicalJson_body (message : Message) :
    ∃ rest, canonicalJson platform message.body = '\x7b' :: rest := by
  rw [canonicalJson_eq message.distinct_body, Message.body, kept, ExtractDedupe.pruned, Json.spelled, Json.canonical,
    Json.arranged, Json.write]
  exact ⟨_, rfl⟩

/-- The parts of a payload can be read back. -/
theorem Message.payload_eq_iff (message other : Message) :
    message.payload platform = other.payload platform ↔
      message.timestamp = other.timestamp ∧ message.eventId = other.eventId ∧
        (kept platform message.body).Same (kept platform other.body) := by
  rw [← canonicalJson_eq_iff message.distinct_body other.distinct_body, Message.payload, Message.payload,
    webhookSigningPayload, webhookSigningPayload]
  constructor
  · intro same
    obtain ⟨stamps, same⟩ := eq_of_append_mark message.dot_not_mem other.dot_not_mem same
    obtain ⟨rest, opens⟩ := @Message.canonicalJson_body platform message
    obtain ⟨rest', opens'⟩ := @Message.canonicalJson_body platform other
    have free (message : Message) : '\x7b' ∉ message.eventId ++ ['.'] := by
      simp [message.brace_not_mem]
    rw [opens, opens', List.append_cons, List.append_cons other.eventId] at same
    obtain ⟨ids, rfl⟩ := eq_of_append_mark (free message) (free other) same
    exact ⟨stamps, List.append_cancel_right ids, opens.trans opens'.symm⟩
  · rintro ⟨stamps, ids, bodies⟩
    rw [stamps, ids, bodies]

/-- The message with what the canonical text keeps of its body. -/
def Message.left (platform : Platform) (message : Message) : Message :=
  { message with
    fields := Json.spelledFields platform.doubles (ExtractDedupe.prunedFields message.fields)
    distinct := by
      have distinct := @distinct_kept platform _ message.distinct
      rwa [kept, ExtractDedupe.pruned, Json.spelled] at distinct }

theorem Message.left_body (message : Message) :
    (message.left platform).body = kept platform message.body := by
  rw [Message.body, Message.body, kept, ExtractDedupe.pruned, Json.spelled]
  rfl

theorem Message.payload_left (message : Message) :
    message.payload platform = (message.left platform).payload platform := by
  rw [Message.payload_eq_iff, Message.left_body, kept_of_plain _ (plain_kept message.body)]
  exact ⟨rfl, rfl, Json.same_refl _⟩

/-- Nothing is lost of the body of a message that is its own remainder. -/
theorem Message.plain_of_same_left (message : Message) (same : message.Same (message.left platform)) :
    plain platform message.body = true := by
  have arranged := (Json.same_iff_arranged (fun _ _ => @ties platform _ _) message.distinct_body).mp same.2.2
  have back := Json.same_of_arranged _ _ _ arranged.symm
  rw [Message.left_body] at back
  exact plain_of_same _ _ (plain_kept message.body) back

theorem Message.same_of_payload (message other : Message) (clean : plain platform message.body = true)
    (clean' : plain platform other.body = true) (same : message.payload platform = other.payload platform) :
    message.Same other := by
  rw [Message.payload_eq_iff, kept_of_plain _ clean, kept_of_plain _ clean'] at same
  exact same

/-! ## Signatures bind messages -/

theorem toLower_of_isHexDigit {char : Char} (digit : isHexDigit char = true) : char.toLower = char := by
  unfold Char.toLower
  split
  · rename_i upper
    simp only [isHexDigit, Char.isDigit, Bool.or_eq_true, Bool.and_eq_true, decide_eq_true_eq] at digit
    simp only [Char.le_def, UInt32.le_iff_toNat_le] at digit upper
    simp at digit upper
    omega
  · rfl

theorem signatureDigits_digest (hmac : Hmac) (secret : String) (payload : List Char) :
    signatureDigits ("sha256=".toList ++ hmac.digest secret payload) = some (hmac.digest secret payload) := by
  have digits := hmac.isHexDigit_digest secret payload
  have lower : (hmac.digest secret payload).map Char.toLower = hmac.digest secret payload :=
    (List.map_congr_left fun char member =>
      toLower_of_isHexDigit (List.all_eq_true.mp digits char member)).trans (List.map_id _)
  have head : "sha256=".toList.map Char.toLower = "sha256=".toList := by decide
  unfold signatureDigits
  rw [List.map_append, lower, head]
  exact if_pos ⟨rfl, hmac.length_digest secret payload, digits⟩

theorem digest_eq_of_verified {hmac : Hmac} {secret : String} {header payload : List Char}
    (verified : verifyWebhookSignature hmac secret header payload = true) :
    signatureDigits header = some (hmac.digest secret payload) := by
  unfold verifyWebhookSignature at verified
  split at verified
  · cases verified
  · rename_i digits found
    rw [found, of_decide_eq_true verified]

/-- What is left of a message is a plain one. -/
theorem Message.plain_left (message : Message) : plain platform (message.left platform).body = true := by
  rw [Message.left_body]
  exact plain_kept message.body

/-- The header of a message is accepted for what is left of it. -/
theorem Message.verified_left (hmac : Hmac) (message : Message) :
    ∃ secret header, verifyWebhookSignature hmac secret header (message.payload platform) = true ∧
      verifyWebhookSignature hmac secret header ((message.left platform).payload platform) = true := by
  have accepted : verifyWebhookSignature hmac "" ("sha256=".toList ++ hmac.digest "" (message.payload platform))
      (message.payload platform) = true := by
    unfold verifyWebhookSignature
    rw [signatureDigits_digest]
    exact decide_eq_true rfl
  exact ⟨_, _, accepted, message.payload_left ▸ accepted⟩

/-- Where with a message also what its text keeps is admitted, an admitted message has its
payload, and short of a collision its signature, for itself alone exactly if only plain
messages are admitted. -/
theorem signature_binds_iff (platform : Platform) (hmac : Hmac) (admitted : Message → Prop)
    (closed : ∀ message, admitted message → admitted (message.left platform)) :
    ((∀ message other, admitted message → admitted other →
        message.payload platform = other.payload platform → message.Same other) ↔
      ∀ message, admitted message → plain platform message.body = true) ∧
    ((∀ message other, admitted message → admitted other → ∀ secret header,
        verifyWebhookSignature hmac secret header (message.payload platform) = true →
        verifyWebhookSignature hmac secret header (other.payload platform) = true →
        message.Same other ∨ hmac.Collides secret (message.payload platform) (other.payload platform)) ↔
      ∀ message, admitted message → plain platform message.body = true) := by
  refine ⟨⟨fun binds message isAdmitted => ?_, fun clean message other one two same => ?_⟩,
    ⟨fun binds message isAdmitted => ?_, fun clean message other one two secret header here there => ?_⟩⟩
  · exact message.plain_of_same_left
      (binds message _ isAdmitted (closed message isAdmitted) message.payload_left)
  · exact message.same_of_payload other (clean message one) (clean other two) same
  · obtain ⟨secret, header, here, there⟩ := @Message.verified_left platform hmac message
    rcases binds message _ isAdmitted (closed message isAdmitted) secret header here there with same | collides
    · exact message.plain_of_same_left same
    · exact absurd message.payload_left collides.1
  · have digests := (digest_eq_of_verified here).symm.trans (digest_eq_of_verified there)
    by_cases same : message.payload platform = other.payload platform
    · exact .inl (message.same_of_payload other (clean message one) (clean other two) same)
    · exact .inr ⟨same, Option.some.inj digests⟩

def plainPlatform : Platform := ⟨Interpreter.ExtractDedupe.plainPlatform, binary64⟩

def delivery (fields : List (String × Json)) (distinct : (Json.obj fields).Distinct) : Message :=
  ⟨"1760000000".toList, "evt-1".toList, fields, rfl, rfl, distinct⟩

/-- An amount that is too large, and none. -/
def tooLarge : Message :=
  delivery [("amount", .num (10 ^ 400))] (by simp [Json.Distinct, Json.DistinctFields])

def noAmount : Message := delivery [("amount", .null)] (by simp [Json.Distinct, Json.DistinctFields])

/-- An amount that is no double, and the double it is read as. -/
def unrounded : Message :=
  delivery [("amount", .num 9007199254740993)] (by simp [Json.Distinct, Json.DistinctFields])

def rounded : Message :=
  delivery [("amount", .num 9007199254740992)] (by simp [Json.Distinct, Json.DistinctFields])

/-- A member named `__proto__`, and no member. -/
def withProto : Message :=
  delivery [("__proto__", .obj [("admin", .bool true)])] (by simp [Json.Distinct, Json.DistinctFields])

def empty : Message := delivery [] (by simp [Json.Distinct, Json.DistinctFields])

theorem Message.Same.fields {message other : Message} (same : message.Same other) :
    Json.SameFields message.fields other.fields := by
  have bodies := same.2.2
  rwa [Message.body, Message.body, Json.Same] at bodies

/-- Deliveries of different amounts are different. -/
theorem delivery_not_same {amount other : Json} (distinct : (Json.obj [("amount", amount)]).Distinct)
    (distinct' : (Json.obj [("amount", other)]).Distinct) (differ : ¬ amount.Same other) :
    ¬ (delivery _ distinct).Same (delivery _ distinct') := by
  intro same
  have fields : Json.SameFields [("amount", amount)] [("amount", other)] := same.fields
  obtain ⟨field, member, here⟩ := (Json.sameFields_source fields).2 ("amount", other) (by simp)
  obtain rfl := List.mem_singleton.mp member
  exact differ here

/-- Two plain deliveries of different amounts have different payloads. -/
theorem signature_binds_iff_plain :
    plain plainPlatform rounded.body = true ∧ plain plainPlatform noAmount.body = true ∧
      rounded.payload plainPlatform ≠ noAmount.payload plainPlatform := by
  have here : plain plainPlatform rounded.body = true := by decide +kernel
  have there : plain plainPlatform noAmount.body = true := by decide +kernel
  have hmac : Hmac := ⟨fun _ _ => List.replicate 64 '0', by simp, fun _ _ => by decide⟩
  have binds := (signature_binds_iff plainPlatform hmac (fun message => plain plainPlatform message.body = true)
    fun message _ => message.plain_left).1.mpr fun _ clean => clean
  refine ⟨here, there, fun same => ?_⟩
  exact delivery_not_same _ _ (by simp [Json.Same]) (binds rounded noAmount here there same)

theorem withProto_not_same : ¬ withProto.Same empty := by
  intro same
  have fields : Json.SameFields [("__proto__", .obj [("admin", .bool true)])] [] := same.fields
  simp [Json.SameFields] at fields

/-- Different bodies with one payload. -/
theorem payload_shared :
    (unrounded.payload plainPlatform = rounded.payload plainPlatform ∧ ¬ unrounded.Same rounded) ∧
      (tooLarge.payload plainPlatform = noAmount.payload plainPlatform ∧ ¬ tooLarge.Same noAmount) ∧
      withProto.payload plainPlatform = empty.payload plainPlatform ∧ ¬ withProto.Same empty := by
  refine ⟨⟨by decide +kernel, delivery_not_same _ _ ?_⟩, ⟨by decide +kernel, delivery_not_same _ _ ?_⟩,
    by decide +kernel, withProto_not_same⟩
  · simp [Json.Same]
  · simp [Json.Same]

end RpaEnterprise.Api.WebhookSigning
