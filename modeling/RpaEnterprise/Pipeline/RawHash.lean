import RpaEnterprise.Lib.KeyOrder
import RpaEnterprise.Lib.Text

/-!
# The canonical text under the raw hash

`canonicalJson` sorts the keys of every object, leaves out the volatile ones by
their spelling and gives every key and string in NFC.  It sorts before it
normalises, compares volatile names as they are spelled, and writes the members
to an object that has an inherited `__proto__`.  A payload without objects keeps
its text under the permitted changes and under no others; a payload with an
object shares its text with a payload that has another number of members.
-/

namespace RpaEnterprise.Pipeline.RawHash

open Lib

/-- The platform: the order of strings by code units, numbers as text, and
`normalize("NFC")`. -/
structure Platform where
  codeUnits : Collation
  untied : ∀ one two, codeUnits.Tied one two → one = two
  numerals : Numerals
  nfc : String → String
  nfc_nfc : ∀ text, nfc (nfc text) = nfc text
  nfc_ascii : ∀ text, (∀ char ∈ text.toList, char.toNat < 128) → nfc text = text

variable (platform : Platform) (volatile : List String)

/-- The loop over the sorted keys. -/
def addMember (out : List (String × Json)) (member : String × Json) : List (String × Json) :=
  if member.1 ∈ volatile then out else Json.setMember out (platform.nfc member.1) member.2

def members (sorted : List (String × Json)) : List (String × Json) :=
  sorted.foldl (addMember platform volatile) []

mutual

def canonicalize : Json → Json
  | .str text => .str (platform.nfc text)
  | .arr items => .arr (canonicalizeItems items)
  | .obj fields =>
    .obj (members platform volatile
      ((canonicalizeFields fields).insertionSort platform.codeUnits.Fields))
  | .null => .null
  | .bool value => .bool value
  | .num value => .num value

def canonicalizeItems : List Json → List Json
  | [] => []
  | item :: rest => canonicalize item :: canonicalizeItems rest

/-- The fields with their values canonicalised and their own keys. -/
def canonicalizeFields : List (String × Json) → List (String × Json)
  | [] => []
  | (key, value) :: rest => (key, canonicalize value) :: canonicalizeFields rest

end

/-- `JSON.stringify` lists the members in the order of own keys. -/
def canonicalJson (value : Json) : List Char :=
  (canonicalize platform volatile value).canonical ownKeys platform.numerals

/-! ## The permitted changes -/

/-- The key is a spelling of a volatile name. -/
def IsVolatile (key : String) : Prop := ∃ name ∈ volatile, platform.nfc name = platform.nfc key

mutual

/-- The documents differ in the order of keys, the spelling of keys and strings
and the values of volatile fields only. -/
def Related : Json → Json → Prop
  | .arr items, .arr others => RelatedItems items others
  | .obj fields, .obj others => RelatedFields fields others
  | .null, .null => True
  | .bool one, .bool two => one = two
  | .num one, .num two => one = two
  | .str one, .str two => platform.nfc one = platform.nfc two
  | _, _ => False

def RelatedItems : List Json → List Json → Prop
  | [], [] => True
  | item :: rest, other :: others => Related item other ∧ RelatedItems rest others
  | _, _ => False

def RelatedFields : List (String × Json) → List (String × Json) → Prop
  | [], others => others = []
  | (key, value) :: rest, others =>
    ∃ first key' other last, others = first ++ (key', other) :: last ∧
      platform.nfc key = platform.nfc key' ∧
        (IsVolatile platform volatile key ∨ Related value other) ∧ RelatedFields rest (first ++ last)

end

mutual

def hasObject : Json → Bool
  | .obj _ => true
  | .arr items => anyObject items
  | _ => false

def anyObject : List Json → Bool
  | [] => false
  | item :: rest => hasObject item || anyObject rest

end

/-! ## Texts -/

variable {platform volatile}

theorem canonicalJson_eq_iff {value other : Json} :
    canonicalJson platform volatile value = canonicalJson platform volatile other ↔
      (canonicalize platform volatile value).arranged ownKeys =
        (canonicalize platform volatile other).arranged ownKeys :=
  ⟨Json.arranged_of_canonical ownKeys platform.numerals, fun same => by
    unfold canonicalJson Json.canonical
    rw [same]⟩

theorem canonicalizeFields_eq (fields : List (String × Json)) :
    canonicalizeFields platform volatile fields =
      fields.map fun field => (field.1, canonicalize platform volatile field.2) := by
  induction fields with
  | nil => rfl
  | cons field rest ih => simp [canonicalizeFields, ih]

/-! ## Payloads without objects -/

mutual

theorem related_iff_of_no_object (value other : Json) (plain : hasObject value = false) :
    Related platform volatile value other ↔
      (canonicalize platform volatile value).arranged ownKeys =
        (canonicalize platform volatile other).arranged ownKeys := by
  match value with
  | .obj fields => cases plain
  | .arr items =>
    have same := relatedItems_iff_of_no_object items
    cases other with
    | arr others => simpa [Related, canonicalize, Json.arranged] using same others plain
    | _ => simp [Related, canonicalize, Json.arranged]
  | .null => cases other <;> simp [Related, canonicalize, Json.arranged]
  | .bool value => cases other <;> simp [Related, canonicalize, Json.arranged]
  | .num value => cases other <;> simp [Related, canonicalize, Json.arranged]
  | .str text => cases other <;> simp [Related, canonicalize, Json.arranged]

theorem relatedItems_iff_of_no_object (items others : List Json) (plain : anyObject items = false) :
    RelatedItems platform volatile items others ↔
      Json.arrangedItems ownKeys (canonicalizeItems platform volatile items) =
        Json.arrangedItems ownKeys (canonicalizeItems platform volatile others) := by
  match items, others with
  | [], [] => simp [RelatedItems]
  | [], other :: others => simp [RelatedItems, canonicalizeItems, Json.arrangedItems]
  | item :: rest, [] => simp [RelatedItems, canonicalizeItems, Json.arrangedItems]
  | item :: rest, other :: others =>
    simp only [anyObject, Bool.or_eq_false_iff] at plain
    simp only [RelatedItems, canonicalizeItems, Json.arrangedItems, List.cons.injEq,
      related_iff_of_no_object item other plain.1, relatedItems_iff_of_no_object rest others plain.2]

end

/-! ## The order of the fields -/

/-- Fields with different keys are sorted into one list, whatever their order. -/
theorem sort_eq_of_perm {fields others : List (String × Json)} (perm : fields.Perm others)
    (distinct : (fields.map Prod.fst).Nodup) :
    fields.insertionSort platform.codeUnits.Fields = others.insertionSort platform.codeUnits.Fields := by
  have sorted := List.perm_insertionSort platform.codeUnits.Fields fields
  have sorted' := List.perm_insertionSort platform.codeUnits.Fields others
  refine List.Perm.eq_of_pairwise ?_ (List.pairwise_insertionSort _ fields)
    (List.pairwise_insertionSort _ others) (sorted.trans (perm.trans sorted'.symm))
  intro one two member member' before after
  have keys : one.1 = two.1 := platform.untied _ _ ⟨before, after⟩
  have here := sorted.mem_iff.mp member
  have there := perm.mem_iff.mpr (sorted'.mem_iff.mp member')
  exact List.inj_on_of_nodup_map distinct here there keys

theorem canonicalize_eq_of_perm {fields others : List (String × Json)} (perm : fields.Perm others)
    (distinct : (fields.map Prod.fst).Nodup) :
    canonicalize platform volatile (.obj fields) = canonicalize platform volatile (.obj others) := by
  simp only [canonicalize, canonicalizeFields_eq]
  rw [sort_eq_of_perm (perm.map _)]
  rw [List.map_map]
  exact distinct

/-- A field that the loop leaves out can stand anywhere. -/
theorem foldl_orderedInsert_skipped {State Entry : Type} {order : Entry → Entry → Prop}
    [DecidableRel order] {step : State → Entry → State} {entry : Entry}
    (skipped : ∀ state, step state entry = state) (entries : List Entry) (state : State) :
    (entries.orderedInsert order entry).foldl step state = entries.foldl step state := by
  induction entries generalizing state with
  | nil => simp [skipped]
  | cons other rest ih =>
    rw [List.orderedInsert_cons]
    split
    · rw [List.foldl_cons, skipped]
    · rw [List.foldl_cons, List.foldl_cons, ih]

theorem nfc_proto : platform.nfc "__proto__" = "__proto__" := platform.nfc_ascii _ (by decide +kernel)

/-- `__proto__` adds no member. -/
theorem canonicalize_proto (value : Json) (fields : List (String × Json)) :
    canonicalize platform volatile (.obj (("__proto__", value) :: fields)) =
      canonicalize platform volatile (.obj fields) := by
  simp only [canonicalize, canonicalizeFields, List.insertionSort_cons, members]
  rw [foldl_orderedInsert_skipped]
  intro out
  unfold addMember Json.setMember
  rw [nfc_proto]
  simp

theorem relatedFields_length {fields others : List (String × Json)}
    (related : RelatedFields platform volatile fields others) : fields.length = others.length := by
  induction fields generalizing others with
  | nil =>
    rw [RelatedFields] at related
    rw [related]
  | cons field rest ih =>
    rw [RelatedFields] at related
    obtain ⟨first, key, other, last, rfl, -, -, later⟩ := related
    have same := ih later
    simp only [List.length_append, List.length_cons] at same ⊢
    omega

/-! ## Payloads with an object -/

/-- An object has the canonical form of one with another number of members. -/
theorem exists_unrelated_object {fields : List (String × Json)} (distinct : Json.Distinct (.obj fields)) :
    ∃ others, Json.Distinct (.obj others) ∧ ¬ RelatedFields platform volatile fields others ∧
      canonicalize platform volatile (.obj fields) = canonicalize platform volatile (.obj others) := by
  rw [Json.Distinct] at distinct
  by_cases proto : "__proto__" ∈ fields.map Prod.fst
  · obtain ⟨⟨key, value⟩, member, rfl⟩ := List.mem_map.mp proto
    obtain ⟨first, last, rfl⟩ := List.append_of_mem member
    refine ⟨first ++ last, ?_, fun related => ?_, ?_⟩
    · rw [Json.Distinct]
      refine ⟨distinct.1.sublist ?_, Json.distinctFields_of_mem fun field among => ?_⟩
      · simp
      · refine Json.distinctFields_mem distinct.2 field ?_
        simp only [List.mem_append, List.mem_cons] at among ⊢
        tauto
    · have same := relatedFields_length related
      simp only [List.length_append, List.length_cons] at same
      omega
    · rw [canonicalize_eq_of_perm List.perm_middle distinct.1]
      exact canonicalize_proto value _
  · refine ⟨("__proto__", .null) :: fields, ?_, fun related => ?_, (canonicalize_proto .null fields).symm⟩
    · rw [Json.Distinct, Json.DistinctFields]
      exact ⟨List.nodup_cons.mpr ⟨proto, distinct.1⟩, by simp [Json.Distinct], distinct.2⟩
    · have same := relatedFields_length related
      simp only [List.length_cons] at same
      omega

mutual

theorem exists_unrelated (value : Json) (distinct : value.Distinct) (object : hasObject value = true) :
    ∃ other : Json, other.Distinct ∧ ¬ Related platform volatile value other ∧
      canonicalize platform volatile value = canonicalize platform volatile other := by
  match value with
  | .obj fields =>
    obtain ⟨others, distinct', unrelated, same⟩ := exists_unrelated_object distinct
    exact ⟨.obj others, distinct', by rwa [Related], same⟩
  | .arr items =>
    rw [Json.Distinct] at distinct
    obtain ⟨others, distinct', unrelated, same⟩ := exists_unrelated_items items distinct object
    refine ⟨.arr others, by rwa [Json.Distinct], by rwa [Related], ?_⟩
    rw [canonicalize, canonicalize, same]

theorem exists_unrelated_items (items : List Json) (distinct : Json.DistinctItems items)
    (object : anyObject items = true) :
    ∃ others, Json.DistinctItems others ∧ ¬ RelatedItems platform volatile items others ∧
      canonicalizeItems platform volatile items = canonicalizeItems platform volatile others := by
  match items with
  | item :: rest =>
    rw [Json.DistinctItems] at distinct
    cases here : hasObject item with
    | true =>
      obtain ⟨other, distinct', unrelated, same⟩ := exists_unrelated item distinct.1 here
      refine ⟨other :: rest, by rw [Json.DistinctItems]; exact ⟨distinct', distinct.2⟩, ?_, ?_⟩
      · rw [RelatedItems]
        exact fun related => unrelated related.1
      · rw [canonicalizeItems, canonicalizeItems, same]
    | false =>
      rw [anyObject, here, Bool.false_or] at object
      obtain ⟨others, distinct', unrelated, same⟩ := exists_unrelated_items rest distinct.2 object
      refine ⟨item :: others, by rw [Json.DistinctItems]; exact ⟨distinct.1, distinct'⟩, ?_, ?_⟩
      · rw [RelatedItems]
        exact fun related => unrelated related.2
      · rw [canonicalizeItems, canonicalizeItems, same]

end

/-- A JSON payload: each of its objects has every key once. -/
structure Payload where
  value : Json
  distinct : value.Distinct

/-- The canonical text is the same after the permitted changes and after no
others exactly if the payload has no object. -/
theorem canonicalJson_invariant_iff (platform : Platform) (volatile : List String) (payload : Payload) :
    (∀ other : Payload, Related platform volatile payload.value other.value ↔
      canonicalJson platform volatile payload.value = canonicalJson platform volatile other.value) ↔
    hasObject payload.value = false := by
  constructor
  · intro invariant
    rw [← Bool.not_eq_true]
    intro object
    obtain ⟨other, distinct, unrelated, same⟩ := exists_unrelated payload.value payload.distinct object
    refine unrelated ((invariant ⟨other, distinct⟩).mpr ?_)
    rw [canonicalJson, canonicalJson, same]
  · intro plain other
    rw [canonicalJson_eq_iff]
    exact related_iff_of_no_object payload.value other.value plain

/-! ## A platform -/

/-- The composition of `e` with an acute accent. -/
def composeAcute : List Char → List Char
  | 'e' :: '\u0301' :: rest => '\u00e9' :: composeAcute rest
  | char :: rest => char :: composeAcute rest
  | [] => []

theorem composeAcute_composeAcute (chars : List Char) :
    composeAcute (composeAcute chars) = composeAcute chars := by
  induction chars using composeAcute.induct with
  | case1 rest ih =>
    rw [composeAcute, composeAcute, ih]
    simp
  | case2 char rest apart ih =>
    have kept : composeAcute (char :: rest) = char :: composeAcute rest := by
      rw [composeAcute]
      exact apart
    rw [kept, composeAcute, ih]
    -- what follows the character begins with an accent only if it did before
    rintro next rfl accented
    unfold composeAcute at accented
    split at accented
    · simp at accented
    · obtain ⟨rfl, -⟩ := List.cons.inj accented
      exact apart _ rfl rfl
    · cases accented
  | case3 => rfl

theorem composeAcute_of_ascii {chars : List Char} (ascii : ∀ char ∈ chars, char.toNat < 128) :
    composeAcute chars = chars := by
  induction chars with
  | nil => rfl
  | cons char rest ih =>
    have later := ih fun other member => ascii other (List.mem_cons_of_mem _ member)
    rw [composeAcute, later]
    rintro next rfl rfl
    exact absurd (ascii '\u0301' (by simp)) (by decide)

/-- Strings in the order of their characters, numbers as fractions, and one
composition. -/
def plainPlatform : Platform where
  codeUnits := .characters
  untied := Collation.characters_ties
  numerals := .fractions
  nfc text := String.ofList (composeAcute text.toList)
  nfc_nfc text := by simp [composeAcute_composeAcute]
  nfc_ascii text ascii := by rw [composeAcute_of_ascii ascii, String.ofList_toList]

/-- A key in another spelling changes its place, a volatile name in another
spelling stays in the text, and `__proto__` is not in the text. -/
theorem respelled_and_inherited_keys :
    (Related plainPlatform [] (.obj [("e\u0301", .num 1), ("f", .num 2)])
        (.obj [("\u00e9", .num 1), ("f", .num 2)]) ∧
      canonicalJson plainPlatform [] (.obj [("e\u0301", .num 1), ("f", .num 2)]) ≠
        canonicalJson plainPlatform [] (.obj [("\u00e9", .num 1), ("f", .num 2)])) ∧
    (Related plainPlatform ["\u00e9"] (.obj [("e\u0301", .num 1)]) (.obj [("e\u0301", .num 2)]) ∧
      canonicalJson plainPlatform ["\u00e9"] (.obj [("e\u0301", .num 1)]) ≠
        canonicalJson plainPlatform ["\u00e9"] (.obj [("e\u0301", .num 2)])) ∧
    (¬ Related plainPlatform [] (.obj [("__proto__", .num 1)]) (.obj []) ∧
      canonicalJson plainPlatform [] (.obj [("__proto__", .num 1)]) =
        canonicalJson plainPlatform [] (.obj [])) := by
  refine ⟨⟨?_, by decide +kernel⟩, ⟨?_, by decide +kernel⟩, ?_, by decide +kernel⟩
  · rw [Related, RelatedFields]
    refine ⟨[], _, _, _, rfl, by decide +kernel, .inr (by rw [Related]), ?_⟩
    rw [RelatedFields]
    exact ⟨[], _, _, [], rfl, rfl, .inr (by rw [Related]), by rw [RelatedFields]; rfl⟩
  · rw [Related, RelatedFields]
    refine ⟨[], _, _, [], rfl, rfl, .inl ⟨_, List.mem_singleton_self _, by decide +kernel⟩, ?_⟩
    rw [RelatedFields]
    rfl
  · rw [Related]
    intro related
    have same := relatedFields_length related
    cases same

end RpaEnterprise.Pipeline.RawHash
