import RpaEnterprise.Lib.Json
import RpaEnterprise.Lib.Results
import RpaEnterprise.Lib.Text

/-!
# The fields of a document

The built-in extractor looks a field up in the document read as a JSON record, then in the
document read as a CSV record, by the patterns of the field and at last by a label line.
The first route that finds something decides the value.  Members of the two records are
taken as they are, blank ones too, and quote marks are taken off after the text was seen
not to be blank; so a required field may count as extracted although its value is empty.
An external provider's values are checked for that.
-/

namespace RpaEnterprise.Documents

open Lib

inductive DocumentFieldType where
  | text
  | number
  | date
  | boolean
deriving Repr, DecidableEq

inductive DocumentFieldStatus where
  | extracted
  | missing
  | lowConfidence
deriving Repr, DecidableEq

inductive DocumentFieldSource where
  | json
  | csv
  | pattern
  | label
  | missing
  | externalIdp
deriving Repr, DecidableEq

inductive DocumentExtractionStatus where
  | completed
  | validationRequired
deriving Repr, DecidableEq

structure DocumentFieldSchema where
  key : String
  label : String
  required : Bool
  type : DocumentFieldType
  aliases : List String
  patterns : List String
  minConfidence : Rat
deriving Repr, DecidableEq

structure DocumentExtractionField where
  key : String
  label : String
  value : Option String
  confidence : Rat
  status : DocumentFieldStatus
  source : DocumentFieldSource
deriving Repr, DecidableEq

structure DocumentExtractionResult where
  status : DocumentExtractionStatus
  fields : List DocumentExtractionField
  missingFields : List String
deriving Repr, DecidableEq

/-- What `exec` of a regular expression found: the whole match and its first group. -/
structure Match where
  whole : String
  group : Option String

/-- `JSON.parse`, `toLowerCase` and regular expressions with the flags `iu`. -/
structure Platform where
  parseJson : String → Option Json
  lower : String → String
  isRegExp : String → Bool
  exec : String → String → Option Match

/-! ## The field schema -/

/-- The pattern `^[A-Za-z0-9_.-]{1,80}$`. -/
def isFieldKey (text : String) : Bool :=
  text.toList.all (fun char => char.isAlphanum || char = '_' || char = '.' || char = '-') &&
    1 ≤ text.toList.length && text.toList.length ≤ 80

/-- `FIELD_TYPES`. -/
def fieldTypes : List (String × DocumentFieldType) :=
  [("text", .text), ("number", .number), ("date", .date), ("boolean", .boolean)]

/-- `field_schema[index]`. -/
def placeText (index : Nat) : String := "field_schema[" ++ toString index ++ "]"

def stringField (value : Json) (key : String) (index : Nat) : Except String String :=
  match value.field key with
  | some (.str raw) =>
    if Text.blank raw then .error (placeText index ++ "." ++ key ++ " is required") else .ok (Text.trim raw)
  | _ => .error (placeText index ++ "." ++ key ++ " is required")

def optionalString (value : Option Json) (fallback : String) : String :=
  match value with
  | some (.str text) => if Text.blank text then fallback else Text.trim text
  | _ => fallback

def optionalType (value : Option Json) : Except String DocumentFieldType :=
  match value with
  | none => .ok .text
  | some (.str text) =>
    match fieldTypes.lookup text with
    | some type => .ok type
    | none => .error "field type is invalid"
  | some _ => .error "field type is invalid"

def optionalConfidence (value : Option Json) : Except String Rat :=
  match value with
  | none => .ok (4 / 5)
  | some (.num value) =>
    if value < 0 ∨ value > 1 then .error "min_confidence must be between 0 and 1" else .ok value
  | some _ => .error "min_confidence must be between 0 and 1"

def stringArray (value : Option Json) : Except String (List String) :=
  match value with
  | none => .ok []
  | some (.arr items) =>
    match items.mapM Json.text? with
    | some texts => .ok ((texts.map Text.trim).filter (· ≠ ""))
    | none => .error "string array expected"
  | some _ => .error "string array expected"

def validatePatterns (platform : Platform) (patterns : List String) (index : Nat) : Except String Unit :=
  if patterns.all platform.isRegExp then .ok ()
  else .error (placeText index ++ ".patterns contains an invalid regex")

def parseField (platform : Platform) (value : Json) (index : Nat) : Except String DocumentFieldSchema :=
  match value with
  | .obj fields => do
    let value := Json.obj fields
    let key ← stringField value "key" index
    if isFieldKey key = false then .error (placeText index ++ ".key is invalid")
    else
      let label := optionalString (value.field "label") key
      let type ← optionalType (value.field "type")
      let aliases ← stringArray (value.field "aliases")
      let patterns ← stringArray (value.field "patterns")
      validatePatterns platform patterns index
      let minConfidence ← optionalConfidence (value.field "min_confidence")
      let required := match value.field "required" with
        | some (.bool true) => true
        | _ => false
      pure { key, label, required, type, aliases, patterns, minConfidence }
  | _ => .error (placeText index ++ " must be an object")

/-- `value.map((item, index) => parseField(item, index))`, from an index on. -/
def parseFieldsFrom (platform : Platform) (index : Nat) : List Json → Except String (List DocumentFieldSchema)
  | [] => .ok []
  | item :: rest => do
    let field ← parseField platform item index
    let fields ← parseFieldsFrom platform (index + 1) rest
    pure (field :: fields)

def parseDocumentFieldSchema (platform : Platform) (value : Json) : Except String (List DocumentFieldSchema) :=
  match value with
  | .arr (item :: rest) => parseFieldsFrom platform 0 (item :: rest)
  | _ => .error "field_schema must contain at least one field"

/-! ## Records -/

def isQuote (char : Char) : Bool := char = '"' || char = '\''

/-- `replace(/^["']|["']$/gu, "")`. -/
def stripQuotes (chars : List Char) : List Char :=
  let opened := match chars with
    | first :: rest => if isQuote first then rest else first :: rest
    | [] => []
  match opened.getLast? with
  | some last => if isQuote last then opened.dropLast else opened
  | none => opened

def trimValue (value : String) : String :=
  String.ofList (Text.trimChars (stripQuotes (Text.trimChars value.toList)))

/-- The variables of the loop of `parseCsvRows`. -/
structure CsvReader where
  rows : List (List String) := []
  row : List String := []
  field : List Char := []
  inQuotes : Bool := false
  fieldQuoted : Bool := false

namespace CsvReader

def pushField (reader : CsvReader) : CsvReader :=
  let text := String.ofList reader.field
  { reader with
    row := reader.row ++ [if reader.fieldQuoted then text else trimValue text]
    field := []
    fieldQuoted := false }

def pushRow (reader : CsvReader) : CsvReader :=
  let pushed := reader.pushField
  { pushed with rows := pushed.rows ++ [pushed.row], row := [] }

def add (reader : CsvReader) (char : Char) : CsvReader := { reader with field := reader.field ++ [char] }

def read (reader : CsvReader) : List Char → Option (List (List String))
  | [] =>
    if reader.inQuotes then none
    else if reader.field ≠ [] ∨ reader.fieldQuoted ∨ reader.row ≠ [] then some reader.pushRow.rows
    else some reader.rows
  | '"' :: '"' :: rest =>
    if reader.inQuotes then read (reader.add '"') rest
    else if reader.field.all Text.isSpace then
      -- the first mark opens the quotes and the second closes them
      read { reader with inQuotes := true, fieldQuoted := true } ('"' :: rest)
    else read (reader.add '"') ('"' :: rest)
  | '"' :: rest =>
    if reader.inQuotes then read { reader with inQuotes := false } rest
    else if reader.field.all Text.isSpace then read { reader with inQuotes := true, fieldQuoted := true } rest
    else read (reader.add '"') rest
  | ',' :: rest => if reader.inQuotes then read (reader.add ',') rest else read reader.pushField rest
  | '\n' :: rest => if reader.inQuotes then read (reader.add '\n') rest else read reader.pushRow rest
  | '\r' :: '\n' :: rest =>
    if reader.inQuotes then read (reader.add '\r') ('\n' :: rest) else read reader.pushRow rest
  | '\r' :: rest => if reader.inQuotes then read (reader.add '\r') rest else read reader.pushRow rest
  | char :: rest => read (reader.add char) rest

end CsvReader

def parseCsvRows (content : String) : Option (List (List String)) := CsvReader.read {} content.toList

/-- `Object.fromEntries`. -/
def fromEntries (entries : List (String × String)) : List (String × Json) :=
  entries.foldl (fun record entry => Json.assign entry.1 (.str entry.2) record) []

def parseCsvRecord (content : String) : Option (List (String × Json)) := do
  let rows ← parseCsvRows content
  match rows.filter (fun row => row.any fun cell => !Text.blank cell) with
  | headers :: values :: _ =>
    if headers.length < 2 ∨ headers.length ≠ values.length then none
    else some (fromEntries (headers.zip values))
  | _ => none

def parseJsonRecord (platform : Platform) (content : String) : Option (List (String × Json)) :=
  (platform.parseJson content).bind Json.record?

/-! ## The routes -/

section Extractor

variable (platform : Platform)

/-- A member that is null counts as none. -/
def present : Json → Option Json
  | .null => none
  | value => some value

def lookupRecord (record : Option (List (String × Json))) (names : List String) : Option Json := do
  let entries ← record
  let value ← names.findSome? fun name =>
    (entries.find? fun entry => platform.lower entry.1 = platform.lower name).map Prod.snd
  present value

def lookupPatterns (content : String) (patterns : List String) : Option String :=
  patterns.findSome? fun pattern => do
    let found ← platform.exec pattern content
    let value := found.group.getD found.whole
    if Text.blank value then none else some (trimValue value)

/-- The characters of `/[.*+?^${}()|[\]\\]/`. -/
def regExpMarks : List Char := ['.', '*', '+', '?', '^', '$', '\x7b', '\x7d', '(', ')', '|', '[', ']', '\\']

def escapeRegExp (value : String) : String :=
  String.ofList (value.toList.flatMap fun char => if char ∈ regExpMarks then ['\\', char] else [char])

def labelPattern (name : String) : String :=
  "(?:^|\\n)\\s*" ++ escapeRegExp name ++ "\\s*[:=]\\s*([^\\n\\r]+)"

def lookupLabel (content : String) (names : List String) : Option String :=
  names.findSome? fun name => do
    let found ← platform.exec (labelPattern name) content
    let value ← found.group
    if Text.blank value then none else some (trimValue value)

def normalizeValue : Json → String
  | .null => ""
  | .str text => trimValue text
  | value => value.stringify

def completed (field : DocumentFieldSchema) (rawValue : Json) (confidence : Rat) (source : DocumentFieldSource) :
    DocumentExtractionField where
  key := field.key
  label := field.label
  value := some (normalizeValue rawValue)
  confidence
  status := if confidence ≥ field.minConfidence then .extracted else .lowConfidence
  source

def DocumentFieldSchema.names (field : DocumentFieldSchema) : List String :=
  field.key :: field.label :: field.aliases

def extractField (content : String) (json csv : Option (List (String × Json))) (field : DocumentFieldSchema) :
    DocumentExtractionField :=
  match lookupRecord platform json field.names with
  | some value => completed field value (98 / 100) .json
  | none =>
    match lookupRecord platform csv field.names with
    | some value => completed field value (93 / 100) .csv
    | none =>
      match lookupPatterns platform content field.patterns with
      | some value => completed field (.str value) (86 / 100) .pattern
      | none =>
        match lookupLabel platform content field.names with
        | some value => completed field (.str value) (78 / 100) .label
        | none =>
          { key := field.key, label := field.label, value := none, confidence := 0, status := .missing,
            source := .missing }

/-- A field that a reviewer has to look at. -/
def needsReview (field : DocumentFieldSchema) (extracted : DocumentExtractionField) : Bool :=
  extracted.status = .lowConfidence || (extracted.status = .missing && field.required)

/-- The keys of the fields to review, and the status that goes with them. -/
def summarize (schema : List DocumentFieldSchema) (fields : List DocumentExtractionField) :
    DocumentExtractionResult :=
  let missingFields := ((schema.zip fields).filter fun pair => needsReview pair.1 pair.2).map (·.2.key)
  { status := if missingFields.length > 0 then .validationRequired else .completed, fields, missingFields }

def extractDocumentFields (content : String) (schema : List DocumentFieldSchema) : DocumentExtractionResult :=
  summarize schema
    (schema.map (extractField platform content (parseJsonRecord platform content) (parseCsvRecord content)))

end Extractor

/-! ## External providers -/

/-- An `IR_SCHEMA_INVALID` response with its reason and the field it names. -/
structure ApiIssue where
  reason : String
  field : Option String := none
deriving Repr, DecidableEq

structure ExternalDocumentExtractionFieldInput where
  key : String
  value : Option String
  confidence : Rat
deriving Repr, DecidableEq

/-- One field of the schema with what the provider gives for it. -/
def normalizeExternalField (inputFields : List ExternalDocumentExtractionFieldInput)
    (field : DocumentFieldSchema) : DocumentExtractionField :=
  let absent : DocumentExtractionField :=
    { key := field.key, label := field.label, value := none, confidence := 0, status := .missing,
      source := .externalIdp }
  -- the last input of a key is the one a `Map` holds
  match inputFields.reverse.find? (·.key = field.key) with
  | some { value := some value, confidence, .. } =>
    if Text.blank value then absent
    else
      { key := field.key, label := field.label, value := some value, confidence
        status := if confidence ≥ field.minConfidence then .extracted else .lowConfidence
        source := .externalIdp }
  | _ => absent

def normalizeExternalFields (schema : List DocumentFieldSchema)
    (inputFields : List ExternalDocumentExtractionFieldInput) : Except ApiIssue DocumentExtractionResult :=
  match inputFields.find? fun input => !(schema.any (·.key = input.key)) with
  | some input => .error ⟨"external_field_not_in_schema", some input.key⟩
  | none => .ok (summarize schema (schema.map (normalizeExternalField inputFields)))

/-! ## Blank values -/

theorem isSpace_of_isDigit {char : Char} (digit : char.isDigit = true) : Text.isSpace char = false := by
  have digits : ∀ offset : Fin 10, Text.isSpace (Char.ofNat (48 + offset)) = false := by decide
  simp only [Char.isDigit, Bool.and_eq_true, decide_eq_true_eq] at digit
  have least : 48 ≤ char.toNat := UInt32.le_iff_toNat_le.mp digit.1
  have most : char.toNat ≤ 57 := UInt32.le_iff_toNat_le.mp digit.2
  have same := digits ⟨char.toNat - 48, by omega⟩
  rwa [show 48 + (char.toNat - 48) = char.toNat by omega, Char.ofNat_toNat] at same

theorem not_blank_repr (value : Nat) : Text.blank (Nat.repr value) = false := by
  obtain ⟨lead, tail, digits⟩ := List.exists_cons_of_ne_nil (@Nat.toDigits_ne_nil value 10)
  have spaced : Text.isSpace lead = false :=
    isSpace_of_isDigit (@Nat.isDigit_of_mem_toDigits 10 value lead (by decide) (by decide) (by simp [digits]))
  rw [Text.blank, Nat.toList_repr, digits, List.all_cons, spaced, Bool.false_and]

theorem not_blank_numText (value : Rat) : Text.blank (Json.numText value) = false := by
  simp only [Json.numText]
  split <;> simp [Text.blank_append, not_blank_repr]

/-- A text with more than blanks and an enclosing pair of quote marks; what is no text is always printed
as something. -/
def legible : Json → Bool
  | .null => false
  | .str text => !Text.blank (trimValue text)
  | _ => true

theorem blank_normalizeValue (value : Json) : Text.blank (normalizeValue value) = !legible value := by
  cases value with
  | null => rfl
  | bool value => cases value <;> decide
  | num value => exact not_blank_numText value
  | str text => simp [normalizeValue, legible]
  | arr items => simp [normalizeValue, legible, Json.stringify, Text.blank_append, show Text.blank "[" = false by decide]
  | obj fields => simp [normalizeValue, legible, Json.stringify, Text.blank_append, show Text.blank "\x7b" = false by decide]

/-! ## What a completed extraction has -/

/-- The document says this about the field, by the first route that finds anything, and so surely. -/
inductive Given (platform : Platform) (content : String) (field : DocumentFieldSchema) : Json → Rat → Prop where
  | json {value : Json} (found : lookupRecord platform (parseJsonRecord platform content) field.names = some value) :
      Given platform content field value (98 / 100)
  | csv {value : Json} (unread : lookupRecord platform (parseJsonRecord platform content) field.names = none)
      (found : lookupRecord platform (parseCsvRecord content) field.names = some value) :
      Given platform content field value (93 / 100)
  | pattern {text : String} (unread : lookupRecord platform (parseJsonRecord platform content) field.names = none)
      (unlisted : lookupRecord platform (parseCsvRecord content) field.names = none)
      (found : lookupPatterns platform content field.patterns = some text) :
      Given platform content field (.str text) (86 / 100)
  | label {text : String} (unread : lookupRecord platform (parseJsonRecord platform content) field.names = none)
      (unlisted : lookupRecord platform (parseCsvRecord content) field.names = none)
      (unmatched : lookupPatterns platform content field.patterns = none)
      (found : lookupLabel platform content field.names = some text) :
      Given platform content field (.str text) (78 / 100)

/-- A non-blank value with the confidence the field asks for. -/
def Complete (field : DocumentFieldSchema) (extracted : DocumentExtractionField) : Prop :=
  ∃ value, extracted.value = some value ∧ Text.blank value = false ∧ field.minConfidence ≤ extracted.confidence

/-- Every required field is complete. -/
def Completes (schema : List DocumentFieldSchema) (result : DocumentExtractionResult) : Prop :=
  result.fields.map (·.key) = schema.map (·.key) ∧
    ∀ pair ∈ schema.zip result.fields, pair.1.required = true → Complete pair.1 pair.2

section Completeness

variable {platform : Platform} {content : String} {field : DocumentFieldSchema} {schema : List DocumentFieldSchema}

theorem Given.extractField {value : Json} {confidence : Rat} (given : Given platform content field value confidence) :
    ∃ source, extractField platform content (parseJsonRecord platform content) (parseCsvRecord content) field =
      completed field value confidence source := by
  cases given with
  | json found => exact ⟨.json, by simp [Documents.extractField, found]⟩
  | csv unread found => exact ⟨.csv, by simp [Documents.extractField, unread, found]⟩
  | pattern unread unlisted found => exact ⟨.pattern, by simp [Documents.extractField, unread, unlisted, found]⟩
  | label unread unlisted unmatched found =>
    exact ⟨.label, by simp [Documents.extractField, unread, unlisted, unmatched, found]⟩

theorem extractField_of_not_given (absent : ∀ value confidence, ¬ Given platform content field value confidence) :
    extractField platform content (parseJsonRecord platform content) (parseCsvRecord content) field =
      { key := field.key, label := field.label, value := none, confidence := 0, status := .missing,
        source := .missing } := by
  unfold extractField
  split
  · exact absurd (.json ‹_›) (absent _ _)
  · split
    · exact absurd (.csv ‹_› ‹_›) (absent _ _)
    · split
      · exact absurd (.pattern ‹_› ‹_› ‹_›) (absent _ _)
      · split
        · exact absurd (.label ‹_› ‹_› ‹_› ‹_›) (absent _ _)
        · rfl

theorem summarize_completed_iff (extract : DocumentFieldSchema → DocumentExtractionField) :
    (summarize schema (schema.map extract)).status = .completed ↔
      ∀ field ∈ schema, needsReview field (extract field) = false := by
  have settled : (summarize schema (schema.map extract)).missingFields = [] ↔
      ∀ field ∈ schema, needsReview field (extract field) = false := by
    simp only [summarize, ← List.map_prod_left_eq_zip, List.map_eq_nil_iff, List.filter_eq_nil_iff, Bool.not_eq_true]
    constructor
    · intro none field member
      exact none _ (List.mem_map_of_mem member)
    · intro none pair member
      obtain ⟨field, among, rfl⟩ := List.mem_map.mp member
      exact none field among
  rw [← settled]
  change (if (summarize schema (schema.map extract)).missingFields.length > 0
    then DocumentExtractionStatus.validationRequired else .completed) = .completed ↔ _
  cases (summarize schema (schema.map extract)).missingFields <;> simp

theorem completes_summarize_iff {extract : DocumentFieldSchema → DocumentExtractionField}
    (named : ∀ field, (extract field).key = field.key) :
    Completes schema (summarize schema (schema.map extract)) ↔
      ∀ field ∈ schema, field.required = true → Complete field (extract field) := by
  have keys : (schema.map extract).map (·.key) = schema.map (·.key) := by
    rw [List.map_map]
    exact List.map_congr_left fun field _ => named field
  simp only [Completes, summarize, ← List.map_prod_left_eq_zip, keys, true_and, List.mem_map]
  constructor
  · intro complete field member
    exact complete _ ⟨field, member, rfl⟩
  · rintro complete _ ⟨field, member, rfl⟩
    exact complete field member

/-- The document says nothing about a field that must be there, or says it too unsurely. -/
def Unsettled (platform : Platform) (content : String) (field : DocumentFieldSchema) : Prop :=
  (field.required = true ∧ ∀ value confidence, ¬ Given platform content field value confidence) ∨
    ∃ value confidence, Given platform content field value confidence ∧ confidence < field.minConfidence

theorem needsReview_extractField_iff :
    needsReview field
        (extractField platform content (parseJsonRecord platform content) (parseCsvRecord content) field) = true ↔
      Unsettled platform content field := by
  by_cases given : ∃ value confidence, Given platform content field value confidence
  · obtain ⟨value, confidence, given⟩ := given
    obtain ⟨source, extracted⟩ := given.extractField
    rw [extracted]
    by_cases sure : field.minConfidence ≤ confidence
    · simp only [needsReview, completed, ge_iff_le, sure, if_true, reduceCtorEq, decide_false, Bool.false_and,
        Bool.or_false, Bool.false_eq_true, false_iff]
      rintro (⟨-, absent⟩ | ⟨other, less, found, unsure⟩)
      · exact absent _ _ given
      · obtain ⟨_, again⟩ := found.extractField
        have same : less = confidence := congrArg DocumentExtractionField.confidence (again.symm.trans extracted)
        exact absurd (same ▸ unsure) (Rat.not_lt.mpr sure)
    · simp only [needsReview, completed, ge_iff_le, sure, if_false, decide_true, Bool.true_or, true_iff]
      exact .inr ⟨value, confidence, given, Rat.not_le.mp sure⟩
  · have absent : ∀ value confidence, ¬ Given platform content field value confidence :=
      fun value confidence found => given ⟨value, confidence, found⟩
    rw [extractField_of_not_given absent]
    simp only [needsReview, reduceCtorEq, decide_false, decide_true, Bool.true_and, Bool.false_or]
    exact ⟨fun required => .inl ⟨required, absent⟩, fun open_ => open_.elim And.left
      fun ⟨value, confidence, found, _⟩ => absurd found (absent value confidence)⟩

theorem complete_extractField_iff {value : Json} {confidence : Rat}
    (given : Given platform content field value confidence) (sure : field.minConfidence ≤ confidence) :
    Complete field
        (extractField platform content (parseJsonRecord platform content) (parseCsvRecord content) field) ↔
      legible value = true := by
  obtain ⟨source, extracted⟩ := given.extractField
  rw [extracted]
  simp [Complete, completed, blank_normalizeValue, sure]

theorem extractField_key :
    (extractField platform content (parseJsonRecord platform content) (parseCsvRecord content) field).key =
      field.key := by
  unfold extractField
  repeat' split
  all_goals rfl

theorem normalizeExternalField_complete {inputFields : List ExternalDocumentExtractionFieldInput}
    (required : field.required = true) (settled : needsReview field (normalizeExternalField inputFields field) = false) :
    Complete field (normalizeExternalField inputFields field) := by
  unfold normalizeExternalField at settled ⊢
  split at settled
  next key value confidence found =>
    split at settled
    next => simp [needsReview, required] at settled
    next filled =>
      by_cases sure : field.minConfidence ≤ confidence
      · exact ⟨value, by simp [filled], by simpa using filled, by simpa [found, filled] using sure⟩
      · simp [needsReview, sure] at settled
  next => simp [needsReview, required] at settled

theorem normalizeExternalField_key {inputFields : List ExternalDocumentExtractionFieldInput} :
    (normalizeExternalField inputFields field).key = field.key := by
  unfold normalizeExternalField
  repeat' split
  all_goals rfl

end Completeness

/-- The built-in extractor completes a document without a blank required field exactly if what the
document says about the required fields is legible, or if some field keeps it from completing.  What an
external provider completes is complete. -/
theorem completed_extraction_complete_iff (platform : Platform) (content : String)
    (schema : List DocumentFieldSchema) :
    (((extractDocumentFields platform content schema).status = .completed →
        Completes schema (extractDocumentFields platform content schema)) ↔
      ((∀ field ∈ schema, field.required = true → ∀ value confidence,
          Given platform content field value confidence → legible value = true) ∨
        ∃ field ∈ schema, Unsettled platform content field)) ∧
    ∀ inputFields result, normalizeExternalFields schema inputFields = .ok result → result.status = .completed →
      Completes schema result := by
  constructor
  · rw [extractDocumentFields, summarize_completed_iff, completes_summarize_iff fun field => extractField_key]
    by_cases open_ : ∃ field ∈ schema, Unsettled platform content field
    · obtain ⟨field, member, unsettled⟩ := open_
      refine ⟨fun _ => .inr ⟨field, member, unsettled⟩, fun _ settled => ?_⟩
      rw [← needsReview_extractField_iff, settled field member] at unsettled
      cases unsettled
    · have settled : ∀ field ∈ schema, ¬ Unsettled platform content field :=
        fun field member unsettled => open_ ⟨field, member, unsettled⟩
      have done : ∀ field ∈ schema, needsReview field
          (extractField platform content (parseJsonRecord platform content) (parseCsvRecord content) field) = false :=
        fun field member => Bool.eq_false_iff.mpr fun review =>
          settled field member (needsReview_extractField_iff.mp review)
      simp only [open_, or_false]
      constructor
      · intro complete field member required value confidence given
        have sure : field.minConfidence ≤ confidence :=
          Rat.not_lt.mp fun unsure => settled field member (.inr ⟨value, confidence, given, unsure⟩)
        exact (complete_extractField_iff given sure).mp (complete done field member required)
      · intro legible _ field member required
        by_cases given : ∃ value confidence, Given platform content field value confidence
        · obtain ⟨value, confidence, given⟩ := given
          have sure : field.minConfidence ≤ confidence :=
            Rat.not_lt.mp fun unsure => settled field member (.inr ⟨value, confidence, given, unsure⟩)
          exact (complete_extractField_iff given sure).mpr (legible field member required value confidence given)
        · exact absurd (.inl ⟨required, fun value confidence found => given ⟨value, confidence, found⟩⟩)
            (settled field member)
  · intro inputFields result normalized done
    unfold normalizeExternalFields at normalized
    split at normalized
    next => cases normalized
    next =>
      cases normalized
      rw [summarize_completed_iff] at done
      rw [completes_summarize_iff fun field => normalizeExternalField_key]
      exact fun field member required => normalizeExternalField_complete required (done field member)

/-- A reader that knows one document. -/
def onePlatform : Platform where
  parseJson text := if text = "\x7b\"total\":\"\"\x7d" then some (.obj [("total", .str "")]) else none
  lower text := text
  isRegExp _ := true
  exec _ _ := none

/-- `{"total":""}` completes with an empty total. -/
theorem blank_member_completes :
    ∃ schema, parseDocumentFieldSchema onePlatform
        (.arr [.obj [("key", .str "total"), ("required", .bool true)]]) = .ok schema ∧
      (extractDocumentFields onePlatform "\x7b\"total\":\"\"\x7d" schema).status = .completed ∧
      ¬ Completes schema (extractDocumentFields onePlatform "\x7b\"total\":\"\"\x7d" schema) := by
  refine ⟨_, rfl, by decide +kernel, ?_⟩
  rintro ⟨-, complete⟩
  obtain ⟨value, same, filled, -⟩ := complete _ (List.mem_cons_self ..) rfl
  cases same
  exact absurd filled (by decide +kernel)

end RpaEnterprise.Documents
