import Mathlib.Data.List.Pairwise
import Mathlib.Data.List.Sort
import RpaEnterprise.Lib.Json

/-!
# Canonical texts of JSON documents

A canonical text is the compact text of a document whose fields have been
sorted.  The compact text can be read back: two documents with one text are
one, whatever may follow them.  So a canonical text determines its document up
to the order of keys; and where the sort leaves no two keys tied, documents
that differ in the order of keys only have one canonical text.
-/

namespace RpaEnterprise.Lib

/-- Rows under pairwise different keys that are rearranged and keep the order
of their keys are unchanged. -/
theorem eq_of_perm_of_keys {Key Value : Type*} {one two : List (Key × Value)} (perm : one.Perm two)
    (keys : one.map Prod.fst = two.map Prod.fst) (nodup : (one.map Prod.fst).Nodup) : one = two := by
  induction one generalizing two with
  | nil => exact perm.nil_eq
  | cons entry rest ih =>
    cases two with
    | nil => simp at keys
    | cons other others =>
      simp only [List.map_cons, List.cons.injEq] at keys
      have same : entry = other := by
        have member : entry ∈ other :: others := perm.mem_iff.mp List.mem_cons_self
        rcases List.mem_cons.mp member with same | later
        · exact same
        · rw [List.map_cons, List.nodup_cons, keys.2] at nodup
          exact absurd (List.mem_map_of_mem later) nodup.1
      subst same
      rw [ih perm.cons_inv keys.2 (List.nodup_cons.mp nodup).2]

/-! ## Texts that can be told apart -/

/-- What can follow a value in a text. -/
def Stops : List Char → Prop
  | [] => True
  | char :: _ => char = ',' ∨ char = ']' ∨ char = '\x7d'

section Reads

variable {Value : Type*} {write : Value → List Char}

/-- The text of the value is the text of no other, whatever follows. -/
def Reads (write : Value → List Char) (value : Value) : Prop :=
  ∀ other rest rest', Stops rest → Stops rest' → write value ++ rest = write other ++ rest' →
    value = other ∧ rest = rest'

/-- The elements of a list after its first, each behind a comma. -/
def following (write : Value → List Char) : List Value → List Char
  | [] => []
  | value :: rest => ',' :: (write value ++ following write rest)

/-- The elements of a list, with commas between them. -/
def separated (write : Value → List Char) : List Value → List Char
  | [] => []
  | value :: rest => write value ++ following write rest

theorem stops_following {close : Char} (closes : close = ']' ∨ close = '\x7d') (values : List Value)
    (rest : List Char) : Stops (following write values ++ close :: rest) := by
  cases values with
  | nil => exact .inr closes
  | cons value values => exact .inl rfl

theorem following_reads {close : Char} (closes : close = ']' ∨ close = '\x7d')
    {values : List Value} (reads : ∀ value ∈ values, Reads write value) :
    ∀ others rest rest', following write values ++ close :: rest =
      following write others ++ close :: rest' → values = others ∧ rest = rest' := by
  have comma : ',' ≠ close := by rcases closes with rfl | rfl <;> decide
  induction values with
  | nil =>
    intro others rest rest' same
    cases others with
    | nil => exact ⟨rfl, by simpa [following] using same⟩
    | cons other others => exact absurd (List.cons.inj same).1.symm comma
  | cons value values ih =>
    intro others rest rest' same
    cases others with
    | nil => exact absurd (List.cons.inj same).1 comma
    | cons other others =>
      have tails : write value ++ (following write values ++ close :: rest) =
          write other ++ (following write others ++ close :: rest') := by
        simpa [following] using same
      have head := reads value List.mem_cons_self other _ _
        (stops_following closes values rest) (stops_following closes others rest') tails
      have later := ih (fun value member => reads value (List.mem_cons_of_mem _ member))
        others rest rest' head.2
      exact ⟨by rw [head.1, later.1], later.2⟩

theorem separated_reads {close : Char} (closes : close = ']' ∨ close = '\x7d')
    (opens : ∀ value, ∃ lead tail, write value = lead :: tail ∧ lead ≠ close)
    {values : List Value} (reads : ∀ value ∈ values, Reads write value)
    {others : List Value} {rest rest' : List Char}
    (same : separated write values ++ close :: rest = separated write others ++ close :: rest') :
    values = others ∧ rest = rest' := by
  cases values with
  | nil =>
    cases others with
    | nil => exact ⟨rfl, by simpa [separated] using same⟩
    | cons other others =>
      obtain ⟨lead, tail, text, apart⟩ := opens other
      simp only [separated, text, List.nil_append, List.cons_append] at same
      exact absurd (List.cons.inj same).1.symm apart
  | cons value values =>
    cases others with
    | nil =>
      obtain ⟨lead, tail, text, apart⟩ := opens value
      simp only [separated, text, List.nil_append, List.cons_append] at same
      exact absurd (List.cons.inj same).1 apart
    | cons other others =>
      simp only [separated, List.append_assoc] at same
      have head := reads value List.mem_cons_self other _ _
        (stops_following closes values rest) (stops_following closes others rest') same
      have later := following_reads closes
        (fun value member => reads value (List.mem_cons_of_mem _ member)) others rest rest' head.2
      exact ⟨by rw [head.1, later.1], later.2⟩

end Reads

/-! ## Strings -/

namespace Json

def hexValue (char : Char) : Nat :=
  if char.isDigit then char.toNat - '0'.toNat else char.toNat - 'a'.toNat + 10

/-- The first character of an escaped text, and what is after it. -/
def unescape : List Char → Option (Char × List Char)
  | '\\' :: 'n' :: rest => some ('\n', rest)
  | '\\' :: 'r' :: rest => some ('\r', rest)
  | '\\' :: 't' :: rest => some ('\t', rest)
  | '\\' :: 'b' :: rest => some (Char.ofNat 8, rest)
  | '\\' :: 'f' :: rest => some (Char.ofNat 12, rest)
  | '\\' :: 'u' :: _ :: _ :: high :: low :: rest =>
    some (Char.ofNat (hexValue high * 16 + hexValue low), rest)
  | '\\' :: char :: rest => some (char, rest)
  | '"' :: _ => none
  | char :: rest => some (char, rest)
  | [] => none

theorem hexValue_digitChar {value : Nat} (small : value < 16) :
    hexValue (Nat.digitChar value) = value := by
  have all : ∀ value < 16, hexValue (Nat.digitChar value) = value := by decide
  exact all value small

theorem unescape_escape (char : Char) (rest : List Char) :
    unescape (escape char ++ rest) = some (char, rest) := by
  unfold escape
  split
  · subst char; rfl
  split
  · subst char; rfl
  split
  · subst char; rfl
  split
  · subst char; rfl
  split
  · subst char; rfl
  split
  · rename_i code
    obtain rfl : char = Char.ofNat 8 := by rw [← code, Char.ofNat_toNat]
    rfl
  split
  · rename_i code
    obtain rfl : char = Char.ofNat 12 := by rw [← code, Char.ofNat_toNat]
    rfl
  split
  · rename_i control
    have high : hexValue (Nat.digitChar (char.toNat / 16)) = char.toNat / 16 :=
      hexValue_digitChar (by omega)
    have low : hexValue (Nat.digitChar (char.toNat % 16)) = char.toNat % 16 :=
      hexValue_digitChar (by omega)
    have whole : char.toNat / 16 * 16 + char.toNat % 16 = char.toNat := by omega
    simp only [List.cons_append, List.nil_append, unescape, high, low, whole, Char.ofNat_toNat]
  · rename_i quote backslash _ _ _ _ _ _
    simp only [List.cons_append, List.nil_append]
    unfold unescape
    split <;> simp_all

theorem unescape_quote (rest : List Char) : unescape ('"' :: rest) = none := rfl

theorem escapes_read {text text' rest rest' : List Char}
    (same : text.flatMap escape ++ '"' :: rest = text'.flatMap escape ++ '"' :: rest') :
    text = text' ∧ rest = rest' := by
  induction text generalizing text' with
  | nil =>
    cases text' with
    | nil => exact ⟨rfl, by simpa using same⟩
    | cons char text' =>
      have read := congrArg unescape same
      simp [unescape_quote, unescape_escape] at read
  | cons char text ih =>
    cases text' with
    | nil =>
      have read := congrArg unescape same
      simp [unescape_quote, unescape_escape] at read
    | cons char' text' =>
      have read := congrArg unescape same
      simp only [List.flatMap_cons, List.append_assoc, unescape_escape, Option.some.injEq,
        Prod.mk.injEq] at read
      have later := ih read.2
      exact ⟨by rw [read.1, later.1], later.2⟩

/-- `JSON.stringify` of a string. -/
def quoted (text : String) : List Char := '"' :: (text.toList.flatMap escape ++ ['"'])

theorem quoted_read {text text' : String} {rest rest' : List Char}
    (same : quoted text ++ rest = quoted text' ++ rest') : text = text' ∧ rest = rest' := by
  have read : text.toList = text'.toList ∧ rest = rest' := by
    apply escapes_read
    simpa [quoted] using same
  exact ⟨String.toList_injective read.1, read.2⟩

end Json

/-! ## Documents -/

/-- How numbers are written: each in its own way, in characters that end no
value, and not like a word. -/
structure Numerals where
  write : Rat → List Char
  injective : Function.Injective write
  plain : ∀ value, ∀ char ∈ write value, char ≠ ',' ∧ char ≠ ']' ∧ char ≠ '\x7d'
  leads : ∀ value, ∃ lead tail, write value = lead :: tail ∧ (lead = '-' ∨ lead.isDigit = true)

theorem toDigits_injective {one two : Nat} (same : Nat.toDigits 10 one = Nat.toDigits 10 two) :
    one = two := by
  rw [← Nat.ofDigitChars_ten_toDigits (n := one), same, Nat.ofDigitChars_ten_toDigits]

theorem isDigit_of_mem_decimal {value : Nat} {char : Char} (member : char ∈ Nat.toDigits 10 value) :
    char.isDigit = true :=
  Nat.isDigit_of_mem_toDigits (by decide) (by decide) member

namespace Numerals

def sign (value : Rat) : List Char := if value.num < 0 then ['-'] else []

def fraction (value : Rat) : List Char :=
  sign value ++ (Nat.toDigits 10 value.num.natAbs ++ '/' :: Nat.toDigits 10 value.den)

theorem decimal_leads (value : Nat) :
    ∃ lead tail, Nat.toDigits 10 value = lead :: tail ∧ lead.isDigit = true := by
  obtain ⟨lead, tail, digits⟩ := List.exists_cons_of_ne_nil (Nat.toDigits_ne_nil (n := value) (b := 10))
  exact ⟨lead, tail, digits, isDigit_of_mem_decimal (digits ▸ List.mem_cons_self)⟩

theorem fraction_leads (value : Rat) :
    ∃ lead tail, fraction value = lead :: tail ∧ (lead = '-' ∨ lead.isDigit = true) := by
  by_cases negative : value.num < 0
  · refine ⟨'-', Nat.toDigits 10 value.num.natAbs ++ '/' :: Nat.toDigits 10 value.den, ?_, .inl rfl⟩
    rw [fraction, sign, if_pos negative]
    rfl
  · obtain ⟨lead, tail, digits, digit⟩ := decimal_leads value.num.natAbs
    refine ⟨lead, tail ++ '/' :: Nat.toDigits 10 value.den, ?_, .inr digit⟩
    rw [fraction, sign, if_neg negative, digits]
    rfl

theorem fraction_plain (value : Rat) (char : Char) (member : char ∈ fraction value) :
    char ≠ ',' ∧ char ≠ ']' ∧ char ≠ '\x7d' := by
  have kinds : char = '-' ∨ char = '/' ∨ char.isDigit = true := by
    simp only [fraction, sign, List.mem_append, List.mem_cons] at member
    rcases member with minus | digit | slash | digit
    · split at minus
      · exact .inl (List.mem_singleton.mp minus)
      · cases minus
    · exact .inr (.inr (isDigit_of_mem_decimal digit))
    · exact .inr (.inl slash)
    · exact .inr (.inr (isDigit_of_mem_decimal digit))
  refine ⟨?_, ?_, ?_⟩ <;> rintro rfl <;> revert kinds <;> decide

/-- The sign of a fraction is its first character, or there is none. -/
theorem fraction_sign {one two : Rat} (same : fraction one = fraction two) :
    sign one = sign two ∧ Nat.toDigits 10 one.num.natAbs ++ '/' :: Nat.toDigits 10 one.den =
      Nat.toDigits 10 two.num.natAbs ++ '/' :: Nat.toDigits 10 two.den := by
  obtain ⟨lead, tail, digits, digit⟩ := decimal_leads one.num.natAbs
  obtain ⟨lead', tail', digits', digit'⟩ := decimal_leads two.num.natAbs
  have minus : '-'.isDigit = false := by decide
  unfold fraction sign at same
  unfold sign
  by_cases negative : one.num < 0 <;> by_cases negative' : two.num < 0
  · simpa [negative, negative'] using same
  · simp only [negative, negative', if_true, if_false, digits', List.cons_append,
      List.nil_append, List.cons.injEq] at same
    rw [← same.1, minus] at digit'
    cases digit'
  · simp only [negative, negative', if_true, if_false, digits, List.cons_append,
      List.nil_append, List.cons.injEq] at same
    rw [same.1, minus] at digit
    cases digit
  · simpa [negative, negative'] using same

theorem fraction_injective : Function.Injective fraction := by
  intro one two same
  obtain ⟨signs, rest⟩ := fraction_sign same
  have slash : ∀ value, '/' ∉ Nat.toDigits 10 value := by
    intro value member
    have digit := isDigit_of_mem_decimal member
    revert digit
    decide
  obtain ⟨size, -, den⟩ := (List.append_cons_inj_of_notMem (slash _) (slash _)).mp rest
  have sizes := toDigits_injective size
  have num : one.num = two.num := by
    unfold sign at signs
    by_cases negative : one.num < 0 <;> by_cases negative' : two.num < 0
    · omega
    · simp [negative, negative'] at signs
    · simp [negative, negative'] at signs
    · omega
  exact Rat.ext num (toDigits_injective den)

/-- Every number as a fraction: one system of numerals. -/
def fractions : Numerals := ⟨fraction, fraction_injective, fraction_plain, fraction_leads⟩

end Numerals

namespace Json

variable (numerals : Numerals)

mutual

/-- The compact text of a document. -/
def write : Json → List Char
  | .null => ['n', 'u', 'l', 'l']
  | .bool value => if value then ['t', 'r', 'u', 'e'] else ['f', 'a', 'l', 's', 'e']
  | .num value => numerals.write value
  | .str text => quoted text
  | .arr items => '[' :: (writeItems items ++ [']'])
  | .obj fields => '\x7b' :: (writeFields fields ++ ['\x7d'])

def writeItems : List Json → List Char
  | [] => []
  | item :: rest => write item ++ writeMoreItems rest

def writeMoreItems : List Json → List Char
  | [] => []
  | item :: rest => ',' :: (write item ++ writeMoreItems rest)

def writeFields : List (String × Json) → List Char
  | [] => []
  | (name, value) :: rest => quoted name ++ ':' :: write value ++ writeMoreFields rest

def writeMoreFields : List (String × Json) → List Char
  | [] => []
  | (name, value) :: rest => ',' :: (quoted name ++ ':' :: write value ++ writeMoreFields rest)

end

def writeField (field : String × Json) : List Char :=
  quoted field.1 ++ ':' :: write numerals field.2

theorem writeItems_eq (items : List Json) :
    writeItems numerals items = separated (write numerals) items := by
  have more : ∀ items, writeMoreItems numerals items = following (write numerals) items := by
    intro items
    induction items with
    | nil => rfl
    | cons item rest ih => simp [writeMoreItems, following, ih]
  cases items with
  | nil => rfl
  | cons item rest => simp [writeItems, separated, more]

theorem writeFields_eq (fields : List (String × Json)) :
    writeFields numerals fields = separated (writeField numerals) fields := by
  have more : ∀ fields, writeMoreFields numerals fields = following (writeField numerals) fields := by
    intro fields
    induction fields with
    | nil => rfl
    | cons field rest ih => simp [writeMoreFields, following, writeField, ih]
  cases fields with
  | nil => rfl
  | cons field rest => simp [writeFields, separated, writeField, more]

/-- The kinds of values, and the character each kind begins with. -/
def kind : Json → Nat
  | .null => 0
  | .bool true => 1
  | .bool false => 2
  | .str _ => 3
  | .arr _ => 4
  | .obj _ => 5
  | .num _ => 6

def kindOfLead (lead : Char) : Nat :=
  if lead = 'n' then 0 else if lead = 't' then 1 else if lead = 'f' then 2
  else if lead = '"' then 3 else if lead = '[' then 4 else if lead = '\x7b' then 5 else 6

theorem write_leads (value : Json) :
    ∃ lead tail, write numerals value = lead :: tail ∧ kindOfLead lead = value.kind ∧
      lead ≠ ']' ∧ lead ≠ '\x7d' ∧ lead ≠ 'u' := by
  cases value with
  | null => exact ⟨'n', _, rfl, by decide, by decide, by decide, by decide⟩
  | bool value =>
    cases value with
    | true => exact ⟨'t', _, rfl, by decide, by decide, by decide, by decide⟩
    | false => exact ⟨'f', _, rfl, by decide, by decide, by decide, by decide⟩
  | str text => exact ⟨'"', _, rfl, rfl, by decide, by decide, by decide⟩
  | arr items =>
    exact ⟨'[', writeItems numerals items ++ [']'], by rw [write], rfl, by decide, by decide,
      by decide⟩
  | obj fields =>
    exact ⟨'\x7b', writeFields numerals fields ++ ['\x7d'], by rw [write], rfl, by decide, by decide,
      by decide⟩
  | num value =>
    obtain ⟨lead, tail, text, leads⟩ := numerals.leads value
    have plain := numerals.plain value lead (by simp [text])
    have apart : ∀ other : Char, other ≠ '-' → other.isDigit = false → lead ≠ other := by
      rintro other notMinus notDigit rfl
      rcases leads with minus | digit
      · exact notMinus minus
      · rw [notDigit] at digit
        cases digit
    refine ⟨lead, tail, by simp [write, text], ?_, plain.2.1, plain.2.2,
      apart 'u' (by decide) (by decide)⟩
    simp [kindOfLead, kind, apart 'n' (by decide) (by decide), apart 't' (by decide) (by decide),
      apart 'f' (by decide) (by decide), apart '"' (by decide) (by decide),
      apart '[' (by decide) (by decide), apart '\x7b' (by decide) (by decide)]

theorem kind_eq_of_write {value other : Json} {rest rest' : List Char}
    (same : write numerals value ++ rest = write numerals other ++ rest') :
    value.kind = other.kind := by
  obtain ⟨lead, tail, text, kind, -⟩ := write_leads numerals value
  obtain ⟨lead', tail', text', kind', -⟩ := write_leads numerals other
  rw [text, text'] at same
  have leads : lead = lead' := (List.cons.inj same).1
  rw [← kind, ← kind', leads]

/-- Texts without a stop are told apart by the first stop after them. -/
theorem plain_read {text text' rest rest' : List Char}
    (plain : ∀ char ∈ text, char ≠ ',' ∧ char ≠ ']' ∧ char ≠ '\x7d')
    (plain' : ∀ char ∈ text', char ≠ ',' ∧ char ≠ ']' ∧ char ≠ '\x7d')
    (stops : Stops rest) (stops' : Stops rest') (same : text ++ rest = text' ++ rest') :
    text = text' ∧ rest = rest' := by
  induction text generalizing text' with
  | nil =>
    cases text' with
    | nil => exact ⟨rfl, by simpa using same⟩
    | cons char text' =>
      simp only [List.nil_append, List.cons_append] at same
      subst same
      have inside := plain' char List.mem_cons_self
      rcases stops with rfl | rfl | rfl <;> simp at inside
  | cons char text ih =>
    cases text' with
    | nil =>
      simp only [List.nil_append, List.cons_append] at same
      subst same
      have inside := plain char List.mem_cons_self
      rcases stops' with rfl | rfl | rfl <;> simp at inside
    | cons char' text' =>
      obtain ⟨heads, tails⟩ := List.cons.inj same
      have later := ih (fun char member => plain char (List.mem_cons_of_mem _ member))
        (fun char member => plain' char (List.mem_cons_of_mem _ member)) tails
      exact ⟨by rw [heads, later.1], later.2⟩

theorem writeField_reads {field : String × Json} (reads : Reads (write numerals) field.2) :
    Reads (writeField numerals) field := by
  rintro ⟨name', value'⟩ rest rest' stops stops' same
  obtain ⟨name, value⟩ := field
  simp only [writeField, List.append_assoc, List.cons_append] at same
  obtain ⟨rfl, after⟩ := quoted_read same
  obtain ⟨rfl, ends⟩ := reads value' rest rest' stops stops' (List.cons.inj after).2
  exact ⟨rfl, ends⟩

theorem sizeOf_item_lt {item : Json} {items : List Json} (member : item ∈ items) :
    sizeOf item < sizeOf (Json.arr items) := by
  have smaller := List.sizeOf_lt_of_mem member
  simp only [Json.arr.sizeOf_spec]
  omega

theorem sizeOf_field_lt {field : String × Json} {fields : List (String × Json)}
    (member : field ∈ fields) : sizeOf field.2 < sizeOf (Json.obj fields) := by
  obtain ⟨name, value⟩ := field
  have smaller := List.sizeOf_lt_of_mem member
  simp only [Json.obj.sizeOf_spec, Prod.mk.sizeOf_spec] at smaller ⊢
  omega

/-- A document is determined by its compact text. -/
theorem write_reads (value : Json) : Reads (write numerals) value := by
  intro other rest rest' stops stops' same
  have kinds := kind_eq_of_write numerals same
  match value, other with
  | .null, .null => exact ⟨rfl, by simpa [write] using same⟩
  | .bool true, .bool true => exact ⟨rfl, by simpa [write] using same⟩
  | .bool false, .bool false => exact ⟨rfl, by simpa [write] using same⟩
  | .num one, .num two =>
    have texts := plain_read (numerals.plain one) (numerals.plain two) stops stops' same
    exact ⟨by rw [numerals.injective texts.1], texts.2⟩
  | .str one, .str two =>
    obtain ⟨rfl, ends⟩ := quoted_read same
    exact ⟨rfl, ends⟩
  | .arr items, .arr others =>
    have reads : ∀ item ∈ items, Reads (write numerals) item :=
      fun item member => write_reads item
    have opens : ∀ item, ∃ lead tail, write numerals item = lead :: tail ∧ lead ≠ ']' := by
      intro item
      obtain ⟨lead, tail, text, -, apart, -⟩ := write_leads numerals item
      exact ⟨lead, tail, text, apart⟩
    have inner : separated (write numerals) items ++ ']' :: rest =
        separated (write numerals) others ++ ']' :: rest' := by
      simpa [write, writeItems_eq] using same
    obtain ⟨rfl, ends⟩ := separated_reads (.inl rfl) opens reads inner
    exact ⟨rfl, ends⟩
  | .obj fields, .obj others =>
    have reads : ∀ field ∈ fields, Reads (writeField numerals) field :=
      fun field member => writeField_reads numerals (write_reads field.2)
    have opens : ∀ field, ∃ lead tail, writeField numerals field = lead :: tail ∧ lead ≠ '\x7d' :=
      fun field => ⟨'"', _, rfl, by decide⟩
    have inner : separated (writeField numerals) fields ++ '\x7d' :: rest =
        separated (writeField numerals) others ++ '\x7d' :: rest' := by
      simpa [write, writeFields_eq] using same
    obtain ⟨rfl, ends⟩ := separated_reads (.inr rfl) opens reads inner
    exact ⟨rfl, ends⟩
termination_by sizeOf value
decreasing_by
  · exact sizeOf_item_lt member
  · exact sizeOf_field_lt member

end Json

/-! ## Sorted fields -/

/-- An order of keys that may leave some of them tied. -/
structure Collation where
  before : String → String → Bool
  total : ∀ one two, before one two = true ∨ before two one = true
  trans : ∀ one two three, before one two = true → before two three = true → before one three = true

def Collation.Tied (collation : Collation) (one two : String) : Prop :=
  collation.before one two = true ∧ collation.before two one = true

/-- Strings by their characters. -/
def Collation.characters : Collation where
  before one two := one ≤ two
  total one two := by simpa using String.le_total one two
  trans one two three := by simpa using String.le_trans

theorem Collation.characters_ties (one two : String) (tied : Collation.characters.Tied one two) :
    one = two := by
  simp only [Collation.Tied, Collation.characters, decide_eq_true_eq] at tied
  exact String.le_antisymm tied.1 tied.2

/-- The order of fields by their keys. -/
def Collation.Fields (collation : Collation) (one two : String × Json) : Prop :=
  collation.before one.1 two.1 = true

instance (collation : Collation) : DecidableRel collation.Fields :=
  fun one two => inferInstanceAs (Decidable (collation.before one.1 two.1 = true))

instance (collation : Collation) : Std.Total collation.Fields :=
  ⟨fun one two => collation.total one.1 two.1⟩

instance (collation : Collation) : IsTrans (String × Json) collation.Fields :=
  ⟨fun one two three => collation.trans one.1 two.1 three.1⟩

namespace Json

variable (collation : Collation)

mutual

/-- The fields of every record in the order of their keys; tied keys stay in
the order they had. -/
def arranged : Json → Json
  | .arr items => .arr (arrangedItems items)
  | .obj fields => .obj ((arrangedFields fields).insertionSort collation.Fields)
  | .null => .null
  | .bool value => .bool value
  | .num value => .num value
  | .str text => .str text

def arrangedItems : List Json → List Json
  | [] => []
  | item :: rest => arranged item :: arrangedItems rest

def arrangedFields : List (String × Json) → List (String × Json)
  | [] => []
  | (name, value) :: rest => (name, arranged value) :: arrangedFields rest

end

theorem arrangedItems_eq (items : List Json) :
    arrangedItems collation items = items.map (arranged collation) := by
  induction items with
  | nil => rfl
  | cons item rest ih => simp [arrangedItems, ih]

theorem arrangedFields_eq (fields : List (String × Json)) :
    arrangedFields collation fields =
      fields.map fun field => (field.1, arranged collation field.2) := by
  induction fields with
  | nil => rfl
  | cons field rest ih => simp [arrangedFields, ih]

/-- The compact text of a document with its fields sorted. -/
def canonical (numerals : Numerals) (value : Json) : List Char :=
  write numerals (arranged collation value)

mutual

/-- Equal up to the order of keys. -/
def Same : Json → Json → Prop
  | .arr items, .arr others => SameItems items others
  | .obj fields, .obj others => SameFields fields others
  | .null, .null => True
  | .bool one, .bool two => one = two
  | .num one, .num two => one = two
  | .str one, .str two => one = two
  | _, _ => False

def SameItems : List Json → List Json → Prop
  | [], [] => True
  | item :: rest, other :: others => Same item other ∧ SameItems rest others
  | _, _ => False

/-- Each field stands somewhere among the others, and nothing else does. -/
def SameFields : List (String × Json) → List (String × Json) → Prop
  | [], others => others = []
  | (name, value) :: rest, others =>
    ∃ first other last, others = first ++ (name, other) :: last ∧ Same value other ∧
      SameFields rest (first ++ last)

end

theorem sameItems_of_map {items others : List Json}
    (same : ∀ item ∈ items, ∀ other, arranged collation item = arranged collation other →
      Same item other)
    (maps : items.map (arranged collation) = others.map (arranged collation)) :
    SameItems items others := by
  induction items generalizing others with
  | nil =>
    cases others with
    | nil => simp [SameItems]
    | cons other others => simp at maps
  | cons item rest ih =>
    cases others with
    | nil => simp at maps
    | cons other others =>
      obtain ⟨heads, tails⟩ := List.cons.inj maps
      rw [SameItems]
      exact ⟨same item List.mem_cons_self other heads,
        ih (fun item member => same item (List.mem_cons_of_mem _ member)) tails⟩

theorem sameFields_of_perm {fields others : List (String × Json)}
    (same : ∀ field ∈ fields, ∀ other, arranged collation field.2 = arranged collation other →
      Same field.2 other)
    (perm : (arrangedFields collation fields).Perm (arrangedFields collation others)) :
    SameFields fields others := by
  induction fields generalizing others with
  | nil =>
    rw [SameFields]
    have empty := perm.nil_eq
    rw [arrangedFields_eq] at empty
    exact List.map_eq_nil_iff.mp empty.symm
  | cons field rest ih =>
    obtain ⟨name, value⟩ := field
    rw [arrangedFields_eq, arrangedFields_eq] at perm
    have member : (name, arranged collation value) ∈
        others.map fun field => (field.1, arranged collation field.2) :=
      perm.mem_iff.mp (by simp)
    obtain ⟨⟨name', other⟩, found, equal⟩ := List.mem_map.mp member
    simp only [Prod.mk.injEq] at equal
    obtain ⟨rfl, arrange⟩ := equal
    obtain ⟨first, last, rfl⟩ := List.append_of_mem found
    rw [SameFields]
    refine ⟨first, other, last, rfl, same _ List.mem_cons_self other arrange.symm, ?_⟩
    apply ih fun field member => same field (List.mem_cons_of_mem _ member)
    rw [arrangedFields_eq, arrangedFields_eq]
    simp only [List.map_cons, List.map_append, arrange] at perm ⊢
    exact (perm.trans List.perm_middle).cons_inv

/-- Arranging forgets the order of keys and nothing else. -/
theorem same_of_arranged (value other : Json)
    (equal : arranged collation value = arranged collation other) : Same value other := by
  match value, other with
  | .null, .null => simp [Same]
  | .bool one, .bool two => simpa [arranged, Same] using equal
  | .num one, .num two => simpa [arranged, Same] using equal
  | .str one, .str two => simpa [arranged, Same] using equal
  | .arr items, .arr others =>
    rw [Same]
    simp only [arranged, Json.arr.injEq, arrangedItems_eq] at equal
    exact sameItems_of_map collation (fun item member other => same_of_arranged item other) equal
  | .obj fields, .obj others =>
    rw [Same]
    simp only [arranged, Json.obj.injEq] at equal
    apply sameFields_of_perm collation fun field member other => same_of_arranged field.2 other
    have perm := (List.perm_insertionSort collation.Fields (arrangedFields collation fields)).symm
    rw [equal] at perm
    exact perm.trans (List.perm_insertionSort collation.Fields _)
termination_by sizeOf value
decreasing_by
  · exact sizeOf_item_lt member
  · exact sizeOf_field_lt member

theorem arranged_of_canonical (numerals : Numerals) {value other : Json}
    (equal : canonical collation numerals value = canonical collation numerals other) :
    arranged collation value = arranged collation other := by
  have texts : write numerals (arranged collation value) ++ [] =
      write numerals (arranged collation other) ++ [] := congrArg (· ++ []) equal
  exact (write_reads numerals _ _ [] [] trivial trivial texts).1

/-- A canonical text determines its document up to the order of keys. -/
theorem same_of_canonical (numerals : Numerals) {value other : Json}
    (equal : canonical collation numerals value = canonical collation numerals other) :
    Same value other :=
  same_of_arranged collation value other (arranged_of_canonical collation numerals equal)

mutual

/-- No two keys of one record are tied. -/
def Untied : Json → Prop
  | .arr items => UntiedItems items
  | .obj fields =>
    (fields.Pairwise fun one two => ¬ collation.Tied one.1 two.1) ∧ UntiedFields fields
  | _ => True

def UntiedItems : List Json → Prop
  | [] => True
  | item :: rest => Untied item ∧ UntiedItems rest

def UntiedFields : List (String × Json) → Prop
  | [] => True
  | (_, value) :: rest => Untied value ∧ UntiedFields rest

end

variable {collation}

theorem untiedItems_mem {items : List Json} (untied : UntiedItems collation items) :
    ∀ item ∈ items, Untied collation item := by
  induction items with
  | nil => simp
  | cons item rest ih =>
    rw [UntiedItems] at untied
    rintro other (_ | ⟨_, member⟩)
    · exact untied.1
    · exact ih untied.2 other member

theorem untiedFields_mem {fields : List (String × Json)} (untied : UntiedFields collation fields) :
    ∀ field ∈ fields, Untied collation field.2 := by
  induction fields with
  | nil => simp
  | cons field rest ih =>
    obtain ⟨name, value⟩ := field
    rw [UntiedFields] at untied
    rintro other (_ | ⟨_, member⟩)
    · exact untied.1
    · exact ih untied.2 other member

theorem map_of_sameItems {items others : List Json}
    (equal : ∀ item ∈ items, ∀ other, Same item other →
      arranged collation item = arranged collation other)
    (same : SameItems items others) :
    items.map (arranged collation) = others.map (arranged collation) := by
  induction items generalizing others with
  | nil =>
    cases others with
    | nil => rfl
    | cons other others => simp [SameItems] at same
  | cons item rest ih =>
    cases others with
    | nil => simp [SameItems] at same
    | cons other others =>
      rw [SameItems] at same
      have head := equal item List.mem_cons_self other same.1
      have tail := ih (fun item member => equal item (List.mem_cons_of_mem _ member)) same.2
      simp [head, tail]

theorem perm_of_sameFields {fields others : List (String × Json)}
    (equal : ∀ field ∈ fields, ∀ other, Same field.2 other →
      arranged collation field.2 = arranged collation other)
    (same : SameFields fields others) :
    (arrangedFields collation fields).Perm (arrangedFields collation others) := by
  induction fields generalizing others with
  | nil =>
    rw [SameFields] at same
    rw [same]
  | cons field rest ih =>
    obtain ⟨name, value⟩ := field
    rw [SameFields] at same
    obtain ⟨first, other, last, rfl, here, later⟩ := same
    have head := equal _ List.mem_cons_self other here
    have tail := ih (fun field member => equal field (List.mem_cons_of_mem _ member)) later
    simp only [arrangedFields_eq, List.map_cons, List.map_append, ← head] at tail ⊢
    exact (tail.cons _).trans List.perm_middle.symm

theorem untied_unique {fields : List (String × Json)}
    (untied : fields.Pairwise fun one two => ¬ collation.Tied one.1 two.1)
    {one two : String × Json} (first : one ∈ fields) (second : two ∈ fields)
    (tied : collation.Tied one.1 two.1) : one = two := by
  have symm : Std.Symm fun one two : String × Json => ¬ collation.Tied one.1 two.1 :=
    ⟨fun _ _ apart tie => apart ⟨tie.2, tie.1⟩⟩
  by_contra different
  exact untied.forall first second different tied

/-- Documents that differ in the order of keys only are arranged alike, when no
two keys of one record are tied. -/
theorem arranged_of_same (value other : Json) (untied : Untied collation value)
    (same : Same value other) : arranged collation value = arranged collation other := by
  match value, other with
  | .null, .null => rfl
  | .bool one, .bool two => simpa [arranged, Same] using same
  | .num one, .num two => simpa [arranged, Same] using same
  | .str one, .str two => simpa [arranged, Same] using same
  | .arr items, .arr others =>
    rw [Same] at same
    rw [Untied] at untied
    simp only [arranged, Json.arr.injEq, arrangedItems_eq]
    exact map_of_sameItems
      (fun item member other => arranged_of_same item other (untiedItems_mem untied item member)) same
  | .obj fields, .obj others =>
    rw [Same] at same
    rw [Untied] at untied
    have perm : (arrangedFields collation fields).Perm (arrangedFields collation others) :=
      perm_of_sameFields (fun field member other =>
        arranged_of_same field.2 other (untiedFields_mem untied.2 field member)) same
    have apart : (arrangedFields collation fields).Pairwise
        fun one two => ¬ collation.Tied one.1 two.1 := by
      rw [arrangedFields_eq, List.pairwise_map]
      exact untied.1
    simp only [arranged, Json.obj.injEq]
    refine List.Perm.eq_of_pairwise (fun one two first second before after => ?_)
      (List.pairwise_insertionSort collation.Fields _) (List.pairwise_insertionSort collation.Fields _)
      (((List.perm_insertionSort _ _).trans perm).trans (List.perm_insertionSort _ _).symm)
    refine untied_unique apart (List.mem_insertionSort _ |>.mp first) ?_ ⟨before, after⟩
    exact perm.mem_iff.mpr (List.mem_insertionSort _ |>.mp second)
termination_by sizeOf value
decreasing_by
  · exact sizeOf_item_lt member
  · exact sizeOf_field_lt member

/-- A canonical text does not depend on the order of keys. -/
theorem canonical_of_same (numerals : Numerals) {value other : Json}
    (untied : Untied collation value) (same : Same value other) :
    canonical collation numerals value = canonical collation numerals other := by
  rw [canonical, canonical, arranged_of_same value other untied same]

/-! ## Arranged documents -/

variable (collation)

/-- Arranging twice is arranging once. -/
theorem arranged_arranged (value : Json) :
    arranged collation (arranged collation value) = arranged collation value := by
  match value with
  | .null | .bool _ | .num _ | .str _ => rfl
  | .arr items =>
    simp only [arranged, Json.arr.injEq, arrangedItems_eq, List.map_map]
    exact List.map_congr_left fun item member => arranged_arranged item
  | .obj fields =>
    have still : arrangedFields collation
        ((arrangedFields collation fields).insertionSort collation.Fields) =
        (arrangedFields collation fields).insertionSort collation.Fields := by
      have each : ∀ field ∈ (arrangedFields collation fields).insertionSort collation.Fields,
          (field.1, arranged collation field.2) = field := by
        intro field sorted
        rw [List.mem_insertionSort, arrangedFields_eq] at sorted
        obtain ⟨original, member, rfl⟩ := List.mem_map.mp sorted
        rw [arranged_arranged original.2]
      rw [arrangedFields_eq]
      exact (List.map_congr_left each).trans (List.map_id _)
    simp only [arranged, Json.obj.injEq, still]
    exact (List.pairwise_insertionSort collation.Fields _).insertionSort_eq
termination_by sizeOf value
decreasing_by
  · exact sizeOf_item_lt member
  · exact sizeOf_field_lt member

/-- Arranging changes the order of keys only. -/
theorem same_arranged (value : Json) : Same value (arranged collation value) :=
  same_of_arranged collation value _ (arranged_arranged collation value).symm

/-- Fields under the same keys in the same order are arranged alike only when
they are equal field by field. -/
theorem arrangedFields_of_arranged {fields others : List (String × Json)}
    (keys : fields.map Prod.fst = others.map Prod.fst) (nodup : (fields.map Prod.fst).Nodup)
    (equal : arranged collation (.obj fields) = arranged collation (.obj others)) :
    arrangedFields collation fields = arrangedFields collation others := by
  simp only [arranged, Json.obj.injEq] at equal
  have perm := (List.perm_insertionSort collation.Fields (arrangedFields collation fields)).symm
  rw [equal] at perm
  have perm := perm.trans (List.perm_insertionSort collation.Fields _)
  have names : ∀ fields, (arrangedFields collation fields).map Prod.fst = fields.map Prod.fst := by
    intro fields
    simp [arrangedFields_eq, Function.comp_def]
  rw [← names fields, ← names others] at keys
  rw [← names fields] at nodup
  exact eq_of_perm_of_keys perm keys nodup

end Json

end RpaEnterprise.Lib
