import RpaEnterprise.Lib.CanonicalJson
import RpaEnterprise.Lib.Text

/-!
# Resume tokens

The envelope a suspended run is resumed with, signed over a canonical text of
its fields.  A property of a JavaScript object may be there with the value
`undefined`: the canonical text writes the word, and `JSON.stringify` leaves
the property out, so such a payload does not survive its own round trip.
-/

namespace RpaEnterprise.Runtime.ResumeTokens

open Lib

/-- `loopContext`, which may be left out or given as `undefined`. -/
inductive LoopContext where
  | absent
  | undefined
  | given (context : Json)

/-- What `token.loopContext` reads. -/
def LoopContext.value : LoopContext → Option Json
  | .given context => some context
  | _ => none

/-- `Omit<ResumeTokenEnvelope, "kid" | "hmac">`. -/
structure Payload where
  runId : String
  resumeNodeId : String
  pageStateRef : String
  loopContext : LoopContext
  issuedAt : String
  expiresAt : String

/-- `ResumeTokenEnvelope`, with a signature of a type of its own. -/
structure SignedPayload (Signature : Type) extends Payload where
  kid : String
  hmac : Signature

abbrev Envelope := SignedPayload String

/-- What `isSigningKey` lets through. -/
structure SigningKey where
  kid : String
  key : String
  kid_nonempty : kid ≠ ""
  key_nonempty : key ≠ ""

/-- The platform: the signature, which has no collisions under one key, the
order of `Array.prototype.sort` on strings, numbers as text and dates. -/
structure Platform where
  hmac : String → List Char → String
  collisionFree : ∀ key, Function.Injective (hmac key)
  codeUnits : Collation
  numerals : Numerals
  dateParse : String → Option Rat

variable (platform : Platform)

/-! ## The canonical text -/

/-- An own property; `none` is the value `undefined`. -/
abbrev Property := String × Option Json

def LoopContext.properties : LoopContext → List Property
  | .absent => []
  | .undefined => [("loopContext", none)]
  | .given context => [("loopContext", some context)]

/-- The envelope without its `hmac`, in the order of `{ ...input, kid }`. -/
def signedProperties (payload : Payload) (kid : String) : List Property :=
  [("runId", some (.str payload.runId)), ("resumeNodeId", some (.str payload.resumeNodeId)),
    ("pageStateRef", some (.str payload.pageStateRef))] ++ payload.loopContext.properties ++
  [("issuedAt", some (.str payload.issuedAt)), ("expiresAt", some (.str payload.expiresAt)),
    ("kid", some (.str kid))]

/-- `` `${JSON.stringify(k)}:${stableStringify(obj[k])}` ``, where an
`undefined` is written as the word. -/
def propertyText (property : Property) : List Char :=
  Json.quoted property.1 ++ ':' ::
    match property.2 with
    | some value => Json.write platform.numerals value
    | none => "undefined".toList

/-- The properties by their names, their values arranged. -/
def arrangedProperties (properties : List Property) : List Property :=
  (properties.map fun property => (property.1, property.2.map (Json.arranged platform.codeUnits))).insertionSort
    fun one two => platform.codeUnits.before one.1 two.1 = true

/-- `stableStringify` of an object. -/
def stableStringify (properties : List Property) : List Char :=
  '\x7b' :: (separated (propertyText platform) (arrangedProperties platform properties) ++ ['\x7d'])

def signHex (payload : Payload) (kid key : String) : String :=
  platform.hmac key (stableStringify platform (signedProperties payload kid))

/-! ## Issuing and verifying -/

inductive Verification (Signature : Type) where
  | valid (token : SignedPayload Signature)
  | expired (reason : String)
  | invalid (reason : String)

def issue (key : SigningKey) (payload : Payload) : Envelope :=
  { payload with kid := key.kid, hmac := signHex platform payload key.kid key.key }

/-- `verify`, with what its comparison of the signatures returns or throws. -/
def verifyComparing {Signature : Type} (equal : Except String Bool) (key : SigningKey) (now : Rat)
    (token : SignedPayload Signature) : Except String (Verification Signature) :=
  if token.kid ≠ key.kid then
    .ok (.invalid s!"resume token kid '{token.kid}' is not the active signing kid")
  else do
    if !(← equal) then .ok (.invalid "resume token hmac mismatch (위변조 의심)")
    else
      match platform.dateParse token.expiresAt with
      | some instant =>
        if instant ≤ now then .ok (.expired s!"resume token expired at {token.expiresAt}")
        else .ok (.valid token)
      -- `NaN <= now` is false
      | none => .ok (.valid token)

/-- `verify`, where the comparison tells signatures apart and never throws. -/
def verify (key : SigningKey) (now : Rat) (token : Envelope) : Except String (Verification String) :=
  verifyComparing platform (.ok (token.hmac = signHex platform token.toPayload token.kid key.key)) key now token

/-- `JSON.parse(JSON.stringify(token))`. -/
def SignedPayload.roundTrip (token : Envelope) : Envelope :=
  match token.loopContext with
  | .undefined => { token with loopContext := .absent }
  | _ => token

/-- The signed fields as they read. -/
structure SameSigned (one two : Envelope) : Prop where
  runId : one.runId = two.runId
  resumeNodeId : one.resumeNodeId = two.resumeNodeId
  pageStateRef : one.pageStateRef = two.pageStateRef
  loopContext : Option.Rel Json.Same one.loopContext.value two.loopContext.value
  issuedAt : one.issuedAt = two.issuedAt
  expiresAt : one.expiresAt = two.expiresAt
  kid : one.kid = two.kid

/-- The token of the payload verifies after a round trip until it expires, and
an envelope with its signature and another signed field does not verify. -/
def Integrity (key : SigningKey) (payload : Payload) (instant : Rat) : Prop :=
  (∀ now, verify platform key now (issue platform key payload).roundTrip =
    if instant ≤ now then .ok (.expired s!"resume token expired at {payload.expiresAt}")
    else .ok (.valid (issue platform key payload).roundTrip)) ∧
  ∀ now token, token.hmac = (issue platform key payload).hmac →
    ¬ SameSigned token (issue platform key payload) →
    ∃ reason, verify platform key now token = .ok (.invalid reason)

/-! ## The canonical text determines the signed fields -/

theorem propertyText_reads (property : Property) : Reads (propertyText platform) property := by
  rintro ⟨name', value'⟩ rest rest' stops stops' same
  obtain ⟨name, value⟩ := property
  simp only [propertyText, List.append_assoc, List.cons_append] at same
  obtain ⟨rfl, after⟩ := Json.quoted_read same
  have values := (List.cons.inj after).2
  match value, value' with
  | none, none => exact ⟨rfl, List.append_cancel_left values⟩
  | some one, some two =>
    obtain ⟨rfl, ends⟩ := Json.write_reads platform.numerals one two rest rest' stops stops' values
    exact ⟨rfl, ends⟩
  | none, some two =>
    obtain ⟨lead, tail, text, -, -, -, notWord⟩ := Json.write_leads platform.numerals two
    simp only [text] at values
    exact absurd (List.cons.inj values).1.symm notWord
  | some one, none =>
    obtain ⟨lead, tail, text, -, -, -, notWord⟩ := Json.write_leads platform.numerals one
    simp only [text] at values
    exact absurd (List.cons.inj values).1 notWord

theorem perm_of_stableStringify {one two : List Property}
    (same : stableStringify platform one = stableStringify platform two) :
    (one.map fun property => (property.1, property.2.map (Json.arranged platform.codeUnits))).Perm
      (two.map fun property => (property.1, property.2.map (Json.arranged platform.codeUnits))) := by
  have inner := (List.cons.inj same).2
  have opens : ∀ property, ∃ lead tail, propertyText platform property = lead :: tail ∧ lead ≠ '\x7d' :=
    fun property => ⟨'"', _, rfl, by decide⟩
  have arranged := (separated_reads (.inr rfl) opens
    (fun property _ => propertyText_reads platform property) inner).1
  have perm := (List.perm_insertionSort _ _).symm.trans (.of_eq arranged)
  exact perm.trans (List.perm_insertionSort _ _)

/-- The signed properties, their values arranged. -/
def arrangedSigned (token : Envelope) : List Property :=
  (signedProperties token.toPayload token.kid).map
    fun property => (property.1, property.2.map (Json.arranged platform.codeUnits))

variable {key : SigningKey} {payload : Payload} {token : Envelope}

theorem arrangedSigned_unique {name : String} {one two : Option Json}
    (first : (name, one) ∈ arrangedSigned platform token)
    (second : (name, two) ∈ arrangedSigned platform token) : one = two := by
  have nodup : ((arrangedSigned platform token).map Prod.fst).Nodup := by
    unfold arrangedSigned signedProperties LoopContext.properties
    cases token.loopContext <;> simp
  exact congrArg Prod.snd (List.inj_on_of_nodup_map nodup first second rfl)

theorem mem_arrangedSigned {name : String} {value : Option Json}
    (member : (name, value) ∈ signedProperties token.toPayload token.kid) :
    (name, value.map (Json.arranged platform.codeUnits)) ∈ arrangedSigned platform token :=
  List.mem_map_of_mem (f := fun property : Property =>
    (property.1, property.2.map (Json.arranged platform.codeUnits))) member

theorem loopContext_properties (token : Envelope) {value : Option Json}
    (member : ("loopContext", value) ∈ arrangedSigned platform token) :
    token.loopContext.value.map (Json.arranged platform.codeUnits) = value := by
  cases context : token.loopContext with
  | absent => simp [arrangedSigned, signedProperties, LoopContext.properties, context] at member
  | undefined | given inner =>
    simp [arrangedSigned, signedProperties, LoopContext.properties, context] at member
    simp [LoopContext.value, member]

theorem loopContext_of_perm {one two : Envelope}
    (perm : (arrangedSigned platform one).Perm (arrangedSigned platform two)) :
    one.loopContext.value.map (Json.arranged platform.codeUnits) =
      two.loopContext.value.map (Json.arranged platform.codeUnits) := by
  have shared : ∀ {token other : Envelope}, (arrangedSigned platform token).Perm (arrangedSigned platform other) →
      ∀ context, token.loopContext = .given context →
        other.loopContext.value.map (Json.arranged platform.codeUnits) =
          some (Json.arranged platform.codeUnits context) := by
    intro token other perm context given
    apply loopContext_properties
    refine perm.mem_iff.mp (@mem_arrangedSigned platform token "loopContext" (some context) ?_)
    simp [signedProperties, given, LoopContext.properties]
  cases inOne : one.loopContext with
  | given context => exact (shared perm context inOne).symm
  | absent | undefined =>
    cases inTwo : two.loopContext with
    | given context =>
      have back := shared perm.symm context inTwo
      simp [inOne, LoopContext.value] at back
    | _ => rfl

theorem rel_of_arranged {collation : Collation} {one two : Option Json}
    (same : one.map (Json.arranged collation) = two.map (Json.arranged collation)) :
    Option.Rel Json.Same one two := by
  cases one with
  | none =>
    cases two with
    | none => exact .none
    | some two => cases same
  | some one =>
    cases two with
    | none => cases same
    | some two => exact .some (Json.same_of_arranged collation one two (Option.some.inj same))

theorem sameSigned_of_signHex {one two : Envelope} {key : String}
    (same : signHex platform one.toPayload one.kid key = signHex platform two.toPayload two.kid key) :
    SameSigned one two := by
  have perm : (arrangedSigned platform one).Perm (arrangedSigned platform two) :=
    perm_of_stableStringify platform (platform.collisionFree key same)
  have text : ∀ name first second,
      (name, some (.str first)) ∈ signedProperties one.toPayload one.kid →
      (name, some (.str second)) ∈ signedProperties two.toPayload two.kid → first = second := by
    intro name first second inOne inTwo
    have moved := perm.mem_iff.mp (mem_arrangedSigned platform inOne)
    simpa [Json.arranged] using arrangedSigned_unique platform moved (mem_arrangedSigned platform inTwo)
  have contexts := loopContext_of_perm platform perm
  exact {
    runId := text "runId" _ _ (by simp [signedProperties]) (by simp [signedProperties])
    resumeNodeId := text "resumeNodeId" _ _ (by simp [signedProperties]) (by simp [signedProperties])
    pageStateRef := text "pageStateRef" _ _ (by simp [signedProperties]) (by simp [signedProperties])
    loopContext := rel_of_arranged contexts
    issuedAt := text "issuedAt" _ _ (by simp [signedProperties]) (by simp [signedProperties])
    expiresAt := text "expiresAt" _ _ (by simp [signedProperties]) (by simp [signedProperties])
    kid := text "kid" _ _ (by simp [signedProperties]) (by simp [signedProperties]) }

/-! ## Integrity -/

theorem verify_forged (now : Rat) (active : token.kid = key.kid)
    (forged : token.hmac ≠ signHex platform token.toPayload token.kid key.key) :
    verify platform key now token = .ok (.invalid "resume token hmac mismatch (위변조 의심)") := by
  rw [verify, verifyComparing, if_neg (not_not.mpr active), decide_eq_false forged]
  rfl

theorem verify_signed {instant : Rat} (now : Rat) (active : token.kid = key.kid)
    (signed : token.hmac = signHex platform token.toPayload token.kid key.key)
    (date : platform.dateParse token.expiresAt = some instant) :
    verify platform key now token =
      if instant ≤ now then .ok (.expired s!"resume token expired at {token.expiresAt}")
      else .ok (.valid token) := by
  rw [verify, verifyComparing, if_neg (not_not.mpr active), decide_eq_true signed, date]
  rfl

theorem verify_invalid (now : Rat) (signature : token.hmac = (issue platform key payload).hmac)
    (different : ¬ SameSigned token (issue platform key payload)) :
    ∃ reason, verify platform key now token = .ok (.invalid reason) := by
  by_cases active : token.kid = key.kid
  · refine ⟨_, verify_forged platform now active fun signed => different ?_⟩
    exact sameSigned_of_signHex platform (signed.symm.trans signature)
  · exact ⟨_, if_pos active⟩

/-- A token whose text is the same after the round trip verifies until it
expires. -/
theorem verify_roundTrip {instant : Rat} (now : Rat)
    (date : platform.dateParse payload.expiresAt = some instant)
    (defined : payload.loopContext ≠ .undefined) :
    verify platform key now (issue platform key payload).roundTrip =
      if instant ≤ now then .ok (.expired s!"resume token expired at {payload.expiresAt}")
      else .ok (.valid (issue platform key payload).roundTrip) := by
  have kept : (issue platform key payload).roundTrip = issue platform key payload := by
    unfold SignedPayload.roundTrip
    split
    · rename_i context
      exact absurd context defined
    · rfl
  rw [kept]
  exact verify_signed platform now rfl rfl date

/-- Without the property the text is another, and so is the signature. -/
theorem signHex_absent_ne (kid key : String) (undefined : payload.loopContext = .undefined) :
    signHex platform { payload with loopContext := .absent } kid key ≠
      signHex platform payload kid key := by
  intro same
  have perm := perm_of_stableStringify platform (platform.collisionFree key same)
  have length := perm.length_eq
  simp [signedProperties, LoopContext.properties, undefined] at length

theorem refused_of_undefined (now : Rat) (undefined : payload.loopContext = .undefined) :
    verify platform key now (issue platform key payload).roundTrip =
      .ok (.invalid "resume token hmac mismatch (위변조 의심)") := by
  have dropped : (issue platform key payload).roundTrip =
      { issue platform key payload with loopContext := .absent } := by
    simp [SignedPayload.roundTrip, issue, undefined]
  rw [dropped]
  exact verify_forged platform now rfl
    (signHex_absent_ne platform key.kid key.key undefined).symm

theorem not_integrity_of_undefined {instant : Rat}
    (undefined : payload.loopContext = .undefined) : ¬ Integrity platform key payload instant := by
  rintro ⟨valid, -⟩
  have now := valid instant
  rw [refused_of_undefined platform instant undefined, if_pos Rat.le_refl] at now
  cases now

/-- A payload has the property of its token exactly when `loopContext` is not
given as `undefined`. -/
theorem integrity_iff (key : SigningKey) (payload : Payload) {instant : Rat}
    (date : platform.dateParse payload.expiresAt = some instant) :
    Integrity platform key payload instant ↔ payload.loopContext ≠ .undefined := by
  constructor
  · intro integrity undefined
    exact not_integrity_of_undefined platform undefined integrity
  · intro defined
    exact ⟨fun now => verify_roundTrip platform now date defined,
      fun now token => verify_invalid platform now⟩

/-! ## Witnesses -/

/-- A platform whose signature is the text it signs. -/
def plainPlatform : Platform where
  hmac _ text := String.ofList text
  collisionFree _ := fun _ _ same => String.ofList_injective same
  codeUnits := .characters
  numerals := .fractions
  dateParse text := if text = "2026-01-02T00:00:00.000Z" then some 1767312000000 else none

def activeKey : SigningKey := ⟨"kid-1", "key-1", by decide, by decide⟩

def challengePayload (loopContext : LoopContext) : Payload where
  runId := "run-1"
  resumeNodeId := "node-1"
  pageStateRef := "page-1"
  loopContext := loopContext
  issuedAt := "2026-01-01T00:00:00.000Z"
  expiresAt := "2026-01-02T00:00:00.000Z"

theorem integrity_iff_absent :
    Integrity plainPlatform activeKey (challengePayload .absent) 1767312000000 :=
  (integrity_iff plainPlatform activeKey (challengePayload .absent) (by decide)).mpr
    LoopContext.noConfusion

/-- `issue({ …, loopContext: undefined })` gives a token that is refused as
forged once it has been stored. -/
theorem undefined_loopContext_refused :
    verify plainPlatform activeKey 0
        (issue plainPlatform activeKey (challengePayload .undefined)).roundTrip =
      .ok (.invalid "resume token hmac mismatch (위변조 의심)") ∧
    ¬ Integrity plainPlatform activeKey (challengePayload .undefined) 1767312000000 := by
  exact ⟨refused_of_undefined plainPlatform 0 rfl, not_integrity_of_undefined plainPlatform rfl⟩

end RpaEnterprise.Runtime.ResumeTokens
