import Mathlib

/-!
# Strings of code units

A JavaScript string is a list of 16-bit code units and its `length` counts them.
Its UTF-8 bytes are those of the scalar values it spells: a surrogate pair is
one value of four bytes, and a surrogate without its partner becomes the
replacement character.
-/

namespace RpaEnterprise.Lib.CodeUnits

/-- The code units of a character: one, or a surrogate pair. -/
def ofChar (char : Char) : List UInt16 :=
  if char.toNat < 0x10000 then [.ofNat char.toNat]
  else [.ofNat (0xd800 + (char.toNat - 0x10000) / 0x400), .ofNat (0xdc00 + (char.toNat - 0x10000) % 0x400)]

def ofString (text : String) : List UInt16 := text.toList.flatMap ofChar

def isAscii (unit : UInt16) : Bool := unit < 0x80

def isHighSurrogate (unit : UInt16) : Bool := 0xd800 ≤ unit && unit < 0xdc00

def isLowSurrogate (unit : UInt16) : Bool := 0xdc00 ≤ unit && unit < 0xe000

/-- The value a surrogate pair stands for. -/
def pairValue (high low : UInt16) : Nat :=
  0x10000 + (high.toNat - 0xd800) * 0x400 + (low.toNat - 0xdc00)

/-- A byte that continues a value: six of its bits, from the given place on. -/
def continuation (value place : Nat) : UInt8 := .ofNat (0x80 + value / 2 ^ place % 0x40)

/-- The bytes of a code unit that is not part of a pair. -/
def unitBytes (unit : UInt16) : List UInt8 :=
  if isAscii unit then [.ofNat unit.toNat]
  else if unit < 0x800 then [.ofNat (0xc0 + unit.toNat / 2 ^ 6), continuation unit.toNat 0]
  else if isHighSurrogate unit || isLowSurrogate unit then [0xef, 0xbf, 0xbd]
  else [.ofNat (0xe0 + unit.toNat / 2 ^ 12), continuation unit.toNat 6, continuation unit.toNat 0]

def pairBytes (high low : UInt16) : List UInt8 :=
  let value := pairValue high low
  [.ofNat (0xf0 + value / 2 ^ 18), continuation value 12, continuation value 6, continuation value 0]

/-- `Buffer.from(text, "utf8")`. -/
def utf8 : List UInt16 → List UInt8
  | [] => []
  | [unit] => unitBytes unit
  | high :: low :: rest =>
    if isHighSurrogate high && isLowSurrogate low then pairBytes high low ++ utf8 rest
    else unitBytes high ++ utf8 (low :: rest)

theorem length_unitBytes_pos (unit : UInt16) : 1 ≤ (unitBytes unit).length := by
  unfold unitBytes
  split
  · exact Nat.le_refl _
  · split
    · exact Nat.le_succ _
    · split <;> exact Nat.le_add_left _ _

/-- Only the characters of ASCII have one byte. -/
theorem length_unitBytes_eq_one_iff (unit : UInt16) :
    (unitBytes unit).length = 1 ↔ isAscii unit = true := by
  unfold unitBytes
  split
  · rename_i ascii
    exact ⟨fun _ => ascii, fun _ => rfl⟩
  · rename_i other
    refine ⟨fun one => ?_, fun ascii => absurd ascii other⟩
    split at one
    · cases one
    · split at one <;> cases one

theorem isAscii_of_isHighSurrogate {unit : UInt16} (high : isHighSurrogate unit = true) :
    isAscii unit = false := by
  simp only [isHighSurrogate, Bool.and_eq_true, decide_eq_true_eq, UInt16.le_iff_toNat_le] at high
  have large : ¬ unit < 0x80 := by
    rw [UInt16.lt_iff_toNat_lt]
    exact Nat.not_lt.mpr (Nat.le_trans (by decide) high.1)
  exact decide_eq_false large

/-- A string has at least as many bytes as code units, and as many only if it is
all ASCII. -/
theorem length_utf8 (units : List UInt16) :
    units.length ≤ (utf8 units).length ∧
      ((utf8 units).length = units.length ↔ ∀ unit ∈ units, isAscii unit = true) := by
  induction units using utf8.induct with
  | case1 => exact ⟨Nat.le_refl _, by simp [utf8]⟩
  | case2 unit =>
    refine ⟨length_unitBytes_pos unit, ?_⟩
    rw [utf8, List.length_singleton, length_unitBytes_eq_one_iff]
    simp
  | case3 high low rest pair ih =>
    have bytes : (utf8 (high :: low :: rest)).length = (utf8 rest).length + 4 := by
      rw [utf8, if_pos pair, List.length_append, Nat.add_comm]
      rfl
    obtain ⟨longer, _⟩ := ih
    refine ⟨by simp only [List.length_cons]; omega, ?_⟩
    simp only [List.length_cons]
    constructor
    · omega
    · intro ascii
      rw [Bool.and_eq_true] at pair
      have plain := ascii high List.mem_cons_self
      rw [isAscii_of_isHighSurrogate pair.1] at plain
      cases plain
  | case4 high low rest pair ih =>
    have bytes : (utf8 (high :: low :: rest)).length =
        (unitBytes high).length + (utf8 (low :: rest)).length := by
      rw [utf8, if_neg pair, List.length_append]
    obtain ⟨longer, exact_⟩ := ih
    have positive := length_unitBytes_pos high
    rw [bytes, List.length_cons]
    refine ⟨by omega, ?_⟩
    rw [List.forall_mem_cons, ← exact_, ← length_unitBytes_eq_one_iff]
    omega

end RpaEnterprise.Lib.CodeUnits
