import RpaEnterprise.Lib.CodeUnits
import RpaEnterprise.Lib.Results
import RpaEnterprise.Runtime.ResumeTokens

/-!
# Verification of a received token

A token comes back from outside with any string as its signature.  The
comparison looks at the lengths of the strings first and then compares their
bytes in constant time; that comparison throws when the numbers of bytes differ,
which strings of one length can have.
-/

namespace RpaEnterprise.Runtime.ResumeTokens

open Lib

/-- `createHmac("sha256", key).update(text, "utf8").digest("hex")`. -/
structure HexDigest where
  units : List UInt16
  length_eq : units.length = 64
  hex : ∀ unit ∈ units, (0x30 ≤ unit ∧ unit ≤ 0x39) ∨ (0x61 ≤ unit ∧ unit ≤ 0x66)

/-- An envelope as it is received: the signature is any string. -/
abbrev Received := SignedPayload (List UInt16)

variable (platform : Platform) (digest : String → List Char → HexDigest)

def timingSafeEqual (one two : List UInt8) : Except String Bool :=
  if one.length = two.length then .ok (one == two)
  else .error "Input buffers must have the same byte length"

def hexEqual (one two : List UInt16) : Except String Bool :=
  if one.length ≠ two.length then .ok false
  else timingSafeEqual (CodeUnits.utf8 one) (CodeUnits.utf8 two)

/-- `verify` of what is received. -/
def verifyReceived (key : SigningKey) (now : Rat) (token : Received) :
    Except String (Verification (List UInt16)) :=
  verifyComparing platform (hexEqual token.hmac (digest key.key
    (stableStringify platform (signedProperties token.toPayload token.kid))).units) key now token

theorem isAscii_of_mem_digest (signature : HexDigest) {unit : UInt16} (member : unit ∈ signature.units) :
    CodeUnits.isAscii unit = true := by
  have low : unit ≤ 0x66 := by
    rcases signature.hex unit member with ⟨_, digit⟩ | ⟨_, letter⟩
    · exact UInt16.le_trans digit (by decide)
    · exact letter
  exact decide_eq_true (UInt16.lt_of_le_of_lt low (by decide))

theorem length_utf8_digest (signature : HexDigest) :
    (CodeUnits.utf8 signature.units).length = 64 := by
  rw [(CodeUnits.length_utf8 signature.units).2.mpr fun _ => isAscii_of_mem_digest signature,
    signature.length_eq]

/-- The comparison returns unless a string of the length of the signature has a
character outside ASCII. -/
theorem hexEqual_returns_iff (hmac : List UInt16) (signature : HexDigest) :
    (∃ equal, hexEqual hmac signature.units = .ok equal) ↔
      hmac.length ≠ 64 ∨ ∀ unit ∈ hmac, CodeUnits.isAscii unit = true := by
  unfold hexEqual timingSafeEqual
  rw [signature.length_eq, length_utf8_digest]
  by_cases length : hmac.length = 64
  · rw [if_neg (not_not.mpr length), ← (CodeUnits.length_utf8 hmac).2, length]
    by_cases bytes : (CodeUnits.utf8 hmac).length = 64 <;> simp [bytes]
  · simp [length]

/-- After the comparison nothing throws. -/
theorem verifyReceived_returns_of_kid {key : SigningKey} {token : Received} (now : Rat)
    (active : token.kid = key.kid) :
    (∃ verdict, verifyReceived platform digest key now token = .ok verdict) ↔
      ∃ equal, hexEqual token.hmac (digest key.key
        (stableStringify platform (signedProperties token.toPayload token.kid))).units = .ok equal := by
  unfold verifyReceived verifyComparing
  rw [if_neg (not_not.mpr active)]
  simp only [bind_eq_ok]
  constructor
  · rintro ⟨_, equal, compared, _⟩
    exact ⟨equal, compared⟩
  · rintro ⟨equal, compared⟩
    cases equal with
    | false => exact ⟨_, false, compared, rfl⟩
    | true =>
      cases parsed : platform.dateParse token.expiresAt with
      | none => exact ⟨.valid token, true, compared, by simp⟩
      | some instant =>
        by_cases late : instant ≤ now
        · exact ⟨_, true, compared, by simp only [late, if_true]; rfl⟩
        · exact ⟨.valid token, true, compared, by simp [late]⟩

/-- Verification returns exactly for the tokens of another key, for signatures
of another length and for signatures of ASCII characters only. -/
theorem verify_returns_iff (key : SigningKey) (now : Rat) (token : Received) :
    (∃ verdict, verifyReceived platform digest key now token = .ok verdict) ↔
      token.kid ≠ key.kid ∨ token.hmac.length ≠ 64 ∨
        ∀ unit ∈ token.hmac, CodeUnits.isAscii unit = true := by
  by_cases active : token.kid = key.kid
  · rw [verifyReceived_returns_of_kid platform digest now active, hexEqual_returns_iff]
    simp [active]
  · refine ⟨fun _ => .inl active, fun _ => ?_⟩
    unfold verifyReceived verifyComparing
    rw [if_pos active]
    exact ⟨_, rfl⟩

/-- A digest of zeros. -/
def zeroDigest : HexDigest where
  units := List.replicate 64 0x30
  length_eq := rfl
  hex := by
    intro unit member
    rw [List.eq_of_mem_replicate member]
    exact .inl (by decide)

/-- A token of the active key whose signature is 63 zeros and an `é`. -/
def accentedToken : Received :=
  { challengePayload .absent with kid := "kid-1", hmac := List.replicate 63 0x30 ++ [0xe9] }

theorem accented_signature_throws :
    verifyReceived plainPlatform (fun _ _ => zeroDigest) activeKey 0 accentedToken =
      .error "Input buffers must have the same byte length" := by
  rfl

end RpaEnterprise.Runtime.ResumeTokens
