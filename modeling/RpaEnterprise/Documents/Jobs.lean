import RpaEnterprise.Documents.Extraction
import RpaEnterprise.Interpreter.FormAnswers
import RpaEnterprise.Lib.Execution
import RpaEnterprise.Runtime.StateMachine

/-!
# Document jobs

A job has at most one extraction, written by the built-in extractor or by an external
provider; fields that could not be read go to a reviewer as a business form.  The keys of
a field schema and the keys of a form follow different rules, and what the reviewer
answers is stored with the task only.

Both commands that write the extraction look for it first, in a statement of its own.
What happens between that statement and the upsert is part of the schedule.
-/

namespace RpaEnterprise.Documents

open Lib

/-! ## The review form -/

def DocumentFieldType.name : DocumentFieldType → String
  | .text => "text"
  | .number => "number"
  | .date => "date"
  | .boolean => "boolean"

def DocumentFieldType.formType : DocumentFieldType → Interpreter.BusinessFormFieldType
  | .text => .text
  | .number => .number
  | .date => .date
  | .boolean => .boolean

def helpText : String := "추출 결과가 없거나 신뢰도가 낮아 검토가 필요합니다."

def reviewFields (schema : List DocumentFieldSchema) (missing : List String) : List DocumentFieldSchema :=
  schema.filter fun field => missing.contains field.key

def reviewField (field : DocumentFieldSchema) : Json :=
  .obj [("key", .str field.key), ("label", .str field.label), ("type", .str field.type.name),
    ("required", .bool true), ("help_text", .str helpText)]

/-- The form that `createValidationTask` stores. -/
def resultSchema (schema : List DocumentFieldSchema) (missing : List String) : Json :=
  .obj [("version", .str "business_form_v1"), ("fields", .arr ((reviewFields schema missing).map reviewField))]

/-- The field of the form as its parser reads it. -/
def formField (field : DocumentFieldSchema) : Interpreter.BusinessFormField where
  key := field.key
  label := field.label
  type := field.type.formType
  required := true
  options := none
  helpText := some helpText

section Forms

theorem stringProp_of_text {value : Json} {prop text : String} (has : value.field prop = some (.str text))
    (filled : text ≠ "") : Interpreter.stringProp value prop = .ok text := by
  have found : (Ir.textOf value prop).filter (· ≠ "") = some text := by
    rw [Option.filter_eq_some_iff, Ir.textOf, has]
    exact ⟨rfl, decide_eq_true filled⟩
  rw [Interpreter.stringProp, found]

theorem fieldTypes_name (type : DocumentFieldType) :
    Interpreter.fieldTypes.lookup type.name = some type.formType := by
  cases type <;> decide

theorem parseType_reviewField (field : DocumentFieldSchema) :
    Interpreter.parseType (reviewField field) field.key = .ok field.type.formType := by
  have type : Interpreter.stringProp (reviewField field) "type" = .ok field.type.name :=
    stringProp_of_text rfl (by cases field.type <;> decide)
  simp only [Interpreter.parseType, type, bind, Except.bind, fieldTypes_name]

theorem parseKey_reviewField {field : DocumentFieldSchema} (named : field.key ≠ "") {seen : List String} {key : String} :
    Interpreter.parseKey (reviewField field) seen = .ok key ↔
      (Interpreter.isFormKey field.key = true ∧ field.key ∉ seen) ∧ key = field.key := by
  have text : Interpreter.stringProp (reviewField field) "key" = .ok field.key := stringProp_of_text rfl named
  rw [Interpreter.parseKey, text]
  change (if Interpreter.isFormKey field.key = false then _ else if field.key ∈ seen then _ else Except.ok field.key) = _ ↔ _
  by_cases formal : Interpreter.isFormKey field.key = true
  · by_cases used : field.key ∈ seen
    · simp [formal, used]
    · simp [formal, used, eq_comm]
  · simp [formal]

theorem parseOptions_formType (type : DocumentFieldType) (key : String) :
    Interpreter.parseOptions none key type.formType = .ok none := by
  cases type <;> rfl

theorem parseField_reviewField {field : DocumentFieldSchema} (named : field.key ≠ "") (labelled : field.label ≠ "")
    {seen : List String} {form : Interpreter.BusinessFormField} :
    Interpreter.parseField (reviewField field) seen = .ok form ↔
      (Interpreter.isFormKey field.key = true ∧ field.key ∉ seen) ∧ form = formField field := by
  have label : Interpreter.stringProp (reviewField field) "label" = .ok field.label := stringProp_of_text rfl labelled
  have keys : Interpreter.requireFieldKeys (reviewField field) = .ok () := rfl
  have required : Interpreter.parseRequired field.key ((reviewField field).field "required") = .ok true := rfl
  have help : Interpreter.parseHelpText field.key ((reviewField field).field "help_text") = .ok (some helpText) := rfl
  have options : (reviewField field).field "options" = none := rfl
  simp only [Interpreter.parseField, bind_eq_ok, parseKey_reviewField named, pure, Except.pure, Except.ok.injEq]
  constructor
  · rintro ⟨-, -, _, ⟨formal, rfl⟩, _, isLabel, _, isType, _, isRequired, _, isHelp, _, isOptions, rfl⟩
    rw [label] at isLabel
    rw [parseType_reviewField] at isType
    rw [required] at isRequired
    rw [help] at isHelp
    cases isLabel
    cases isType
    cases isRequired
    cases isHelp
    rw [options, parseOptions_formType] at isOptions
    cases isOptions
    exact ⟨formal, rfl⟩
  · rintro ⟨formal, rfl⟩
    exact ⟨(), keys, _, ⟨formal, rfl⟩, _, label, _, parseType_reviewField field, _, required, _, help, _,
      (by rw [options]; exact parseOptions_formType field.type field.key), rfl⟩

theorem parseFields_reviewFields {fields : List DocumentFieldSchema}
    (worded : ∀ field ∈ fields, field.key ≠ "" ∧ field.label ≠ "") {seen : List String}
    {form : List Interpreter.BusinessFormField} :
    Interpreter.parseFields seen (fields.map reviewField) = .ok form ↔
      ((∀ field ∈ fields, Interpreter.isFormKey field.key = true ∧ field.key ∉ seen) ∧
        (fields.map (·.key)).Nodup) ∧ form = fields.map formField := by
  induction fields generalizing seen form with
  | nil =>
    refine ⟨fun parsed => ?_, ?_⟩
    · cases parsed
      exact ⟨⟨fun _ member => (List.not_mem_nil member).elim, List.nodup_nil⟩, rfl⟩
    · rintro ⟨-, rfl⟩
      rfl
  | cons field rest ih =>
    obtain ⟨named, labelled⟩ := worded field List.mem_cons_self
    have later := @ih fun other member => worded other (List.mem_cons_of_mem _ member)
    simp only [List.map_cons, Interpreter.parseFields, bind_eq_ok, parseField_reviewField named labelled, pure,
      Except.pure, Except.ok.injEq, later, List.forall_mem_cons, List.nodup_cons, List.mem_map, not_exists, not_and]
    constructor
    · rintro ⟨_, ⟨formal, rfl⟩, _, ⟨⟨others, distinct⟩, rfl⟩, rfl⟩
      refine ⟨⟨⟨formal, fun other member => ⟨(others other member).1, fun used => ?_⟩⟩, ?_, distinct⟩, rfl⟩
      · exact (others other member).2 (List.mem_cons_of_mem _ used)
      · exact fun other member same => (others other member).2 (same ▸ List.mem_cons_self)
    · rintro ⟨⟨⟨formal, others⟩, apart, distinct⟩, rfl⟩
      refine ⟨_, ⟨formal, rfl⟩, _, ⟨⟨fun other member => ⟨(others other member).1, fun used => ?_⟩, distinct⟩, rfl⟩, rfl⟩
      rcases List.mem_cons.mp used with same | before
      · exact apart other member same
      · exact (others other member).2 before

theorem parse_resultSchema {schema : List DocumentFieldSchema} {missing : List String}
    (worded : ∀ field ∈ schema, field.key ≠ "" ∧ field.label ≠ "") (some_ : reviewFields schema missing ≠ [])
    {form : Option (List Interpreter.BusinessFormField)} :
    Interpreter.parseBusinessFormSchema (some (resultSchema schema missing)) = .ok form ↔
      ((∀ field ∈ reviewFields schema missing, Interpreter.isFormKey field.key = true) ∧
        ((reviewFields schema missing).map (·.key)).Nodup) ∧
        form = some ((reviewFields schema missing).map formField) := by
  obtain ⟨field, rest, fields⟩ := List.exists_cons_of_ne_nil some_
  have parsed : Interpreter.parseBusinessFormSchema (some (resultSchema schema missing)) =
      (Interpreter.parseFields [] ((reviewFields schema missing).map reviewField)).bind fun form => .ok (some form) := by
    rw [resultSchema, fields]
    rfl
  have read := fun other => @parseFields_reviewFields (reviewFields schema missing)
    (fun field member => worded field (List.mem_filter.mp member).1) [] other
  rw [parsed]
  change (Interpreter.parseFields [] _ >>= fun form => Except.ok (some form)) = _ ↔ _
  simp only [bind_eq_ok, read, List.not_mem_nil, not_false_eq_true, and_true, Except.ok.injEq]
  constructor
  · rintro ⟨_, ⟨formal, rfl⟩, rfl⟩
    exact ⟨formal, rfl⟩
  · rintro ⟨formal, rfl⟩
    exact ⟨_, ⟨formal, rfl⟩, rfl⟩

/-- An answer of the type of the field. -/
def sampleValue : DocumentFieldType → Json
  | .text => .str "0"
  | .number => .num 0
  | .date => .str "2026-01-01"
  | .boolean => .bool true

def sampleAnswers (fields : List DocumentFieldSchema) : List (String × Json) :=
  fields.map fun field => (field.key, sampleValue field.type)

theorem lookup_sampleAnswers {fields : List DocumentFieldSchema} (distinct : (fields.map (·.key)).Nodup)
    {field : DocumentFieldSchema} (member : field ∈ fields) :
    Json.lookup field.key (sampleAnswers fields) = some (sampleValue field.type) := by
  induction fields with
  | nil => cases member
  | cons first rest ih =>
    simp only [List.map_cons, List.nodup_cons] at distinct
    rcases List.mem_cons.mp member with rfl | among
    · simp [sampleAnswers, Json.lookup]
    · have apart : first.key ≠ field.key := fun same => distinct.1 (same ▸ List.mem_map_of_mem among)
      simpa [sampleAnswers, Json.lookup, apart] using ih distinct.2 among

theorem fieldByKey_formField {fields : List DocumentFieldSchema} (distinct : (fields.map (·.key)).Nodup)
    {field : DocumentFieldSchema} (member : field ∈ fields) :
    Interpreter.fieldByKey (fields.map formField) field.key = .ok (formField field) := by
  have found : (fields.map formField).find? (·.key = field.key) = some (formField field) := by
    induction fields with
    | nil => cases member
    | cons first rest ih =>
      simp only [List.map_cons, List.nodup_cons] at distinct
      rcases List.mem_cons.mp member with rfl | among
      · simp [formField]
      · have apart : first.key ≠ field.key := fun same => distinct.1 (same ▸ List.mem_map_of_mem among)
        rw [List.map_cons, List.find?_cons_of_neg (by simp [formField, apart])]
        exact ih distinct.2 among
  rw [Interpreter.fieldByKey, found]

variable {parseDate : String → Option Rat}

theorem validateFieldValue_sample (reads : (parseDate "2026-01-01T00:00:00Z").isSome = true)
    (field : DocumentFieldSchema) :
    Interpreter.validateFieldValue parseDate (formField field) (sampleValue field.type) = .ok () := by
  have filled : Interpreter.isEmptyAnswer (sampleValue field.type) = false := by cases field.type <;> decide
  have typed : Interpreter.isAnswerOf parseDate (formField field) (sampleValue field.type) = true := by
    cases type : field.type with
    | date =>
      have date : Interpreter.isFormDate "2026-01-01" = true := by decide +kernel
      simp only [Interpreter.isAnswerOf, formField, type, DocumentFieldType.formType, sampleValue, date, Bool.true_and]
      exact reads
    | text | number | boolean =>
      simp [Interpreter.isAnswerOf, formField, type, DocumentFieldType.formType, sampleValue]
  rw [Interpreter.validateFieldValue, filled, typed]
  rfl

theorem validateCorrections_sample (reads : (parseDate "2026-01-01T00:00:00Z").isSome = true)
    {fields : List DocumentFieldSchema} (distinct : (fields.map (·.key)).Nodup) {some_ : List DocumentFieldSchema}
    (among : some_ ⊆ fields) :
    Interpreter.validateCorrections parseDate (fields.map formField) (sampleAnswers fields) (some_.map (·.key)) =
      .ok () := by
  induction some_ with
  | nil => rfl
  | cons field rest ih =>
    have member : field ∈ fields := among List.mem_cons_self
    rw [List.map_cons, Interpreter.validateCorrections, fieldByKey_formField distinct member,
      lookup_sampleAnswers distinct member, Option.getD_some]
    change (Interpreter.validateFieldValue parseDate (formField field) (sampleValue field.type) >>= _) = _
    rw [validateFieldValue_sample reads]
    exact ih fun other later => among (List.mem_cons_of_mem _ later)

end Forms

theorem parseField_worded {platform : Platform} {value : Json} {index : Nat} {field : DocumentFieldSchema}
    (parsed : parseField platform value index = .ok field) : field.key ≠ "" ∧ field.label ≠ "" := by
  cases value with
  | obj fields =>
    obtain ⟨key, -, checked⟩ := bind_eq_ok.mp parsed
    split at checked
    · cases checked
    · rename_i formed
      simp only [bind_eq_ok, pure, Except.pure, Except.ok.injEq] at checked
      obtain ⟨_, -, _, -, _, -, _, -, _, -, rfl⟩ := checked
      have named : key ≠ "" := by
        rintro rfl
        exact formed (by decide)
      refine ⟨named, ?_⟩
      change optionalString _ key ≠ ""
      unfold optionalString
      split
      · split
        · exact named
        · rename_i filled
          exact Text.trim_ne_empty (by simpa using filled)
      · exact named
  | _ => cases parsed

theorem parseDocumentFieldSchema_worded {platform : Platform} {value : Json} {schema : List DocumentFieldSchema}
    (parsed : parseDocumentFieldSchema platform value = .ok schema) :
    ∀ field ∈ schema, field.key ≠ "" ∧ field.label ≠ "" := by
  have all : ∀ items index fields, parseFieldsFrom platform index items = .ok fields →
      ∀ field ∈ fields, field.key ≠ "" ∧ field.label ≠ "" := by
    intro items
    induction items with
    | nil =>
      intro index fields read
      cases read
      exact fun _ member => (List.not_mem_nil member).elim
    | cons item rest ih =>
      intro index fields read
      simp only [parseFieldsFrom, bind_eq_ok, pure, Except.pure, Except.ok.injEq] at read
      obtain ⟨field, first, later, others, rfl⟩ := read
      exact List.forall_mem_cons.mpr ⟨parseField_worded first, ih _ _ others⟩
  unfold parseDocumentFieldSchema at parsed
  split at parsed
  · exact all _ _ _ parsed
  · cases parsed

theorem reviewFields_ne_nil {schema : List DocumentFieldSchema} {extract : DocumentFieldSchema → DocumentExtractionField}
    (named : ∀ field, (extract field).key = field.key)
    (open_ : (summarize schema (schema.map extract)).status = .validationRequired) :
    reviewFields schema (summarize schema (schema.map extract)).missingFields ≠ [] := by
  intro none
  have done : (summarize schema (schema.map extract)).status = .completed := by
    rw [summarize_completed_iff]
    intro field member
    by_contra review
    rw [Bool.not_eq_false] at review
    have listed : field.key ∈ (summarize schema (schema.map extract)).missingFields := by
      simp only [summarize, ← List.map_prod_left_eq_zip, List.mem_map, List.mem_filter]
      exact ⟨_, ⟨⟨field, member, rfl⟩, review⟩, named field⟩
    have among : field ∈ reviewFields schema (summarize schema (schema.map extract)).missingFields :=
      List.mem_filter.mpr ⟨member, by simpa using listed⟩
    rw [none] at among
    cases among
  rw [done] at open_
  cases open_

/-- What either engine answers for a schema. -/
inductive Extracts (platform : Platform) (schema : List DocumentFieldSchema) : DocumentExtractionResult → Prop where
  | builtIn (content : String) : Extracts platform schema (extractDocumentFields platform content schema)
  | external {inputFields : List ExternalDocumentExtractionFieldInput} {result : DocumentExtractionResult}
      (normalized : normalizeExternalFields schema inputFields = .ok result) : Extracts platform schema result

theorem Extracts.reviewFields_ne_nil {platform : Platform} {schema : List DocumentFieldSchema}
    {result : DocumentExtractionResult} (extracts : Extracts platform schema result)
    (open_ : result.status = .validationRequired) : reviewFields schema result.missingFields ≠ [] := by
  cases extracts with
  | builtIn content => exact Documents.reviewFields_ne_nil (fun field => extractField_key) open_
  | external normalized =>
    unfold normalizeExternalFields at normalized
    split at normalized
    · cases normalized
    · cases normalized
      exact Documents.reviewFields_ne_nil (fun field => normalizeExternalField_key) open_

/-- A correction with one value for each field of the form, which the form accepts. -/
def Answerable (parseDate : String → Option Rat) (schema : List DocumentFieldSchema) (missing : List String) : Prop :=
  (∃ form, Interpreter.parseBusinessFormSchema (some (resultSchema schema missing)) = .ok (some form)) ∧
    ∃ resolution : Interpreter.HumanTaskResolution, resolution.decision = "correct" ∧
      (resolution.corrections.getD []).map Prod.fst = (reviewFields schema missing).map (·.key) ∧
      Interpreter.validateResolutionAgainstBusinessForm parseDate (some (resultSchema schema missing))
        (some resolution) = .ok ()

/-- The form of an extraction that needs validation can be answered exactly if the keys of its fields
are keys of forms, and no two of them the same. -/
theorem validation_form_answerable_iff (platform : Platform) (parseDate : String → Option Rat)
    (reads : (parseDate "2026-01-01T00:00:00Z").isSome = true) (fieldSchema : Json)
    (schema : List DocumentFieldSchema) (accepted : parseDocumentFieldSchema platform fieldSchema = .ok schema)
    (result : DocumentExtractionResult) (extracts : Extracts platform schema result)
    (open_ : result.status = .validationRequired) :
    Answerable parseDate schema result.missingFields ↔
      (∀ field ∈ reviewFields schema result.missingFields, Interpreter.isFormKey field.key = true) ∧
        ((reviewFields schema result.missingFields).map (·.key)).Nodup := by
  have parsed := fun form => @parse_resultSchema schema result.missingFields
    (parseDocumentFieldSchema_worded accepted) (extracts.reviewFields_ne_nil open_) form
  constructor
  · rintro ⟨⟨form, read⟩, -⟩
    exact ((parsed _).mp read).1
  · intro formal
    have read := (parsed _).mpr ⟨formal, rfl⟩
    refine ⟨⟨_, read⟩, ⟨"correct", by decide, some (sampleAnswers (reviewFields schema result.missingFields)),
      none, none, none⟩, rfl, by simp [sampleAnswers], ?_⟩
    have keys : (sampleAnswers (reviewFields schema result.missingFields)).map Prod.fst =
        (reviewFields schema result.missingFields).map (·.key) := by simp [sampleAnswers]
    have answered : Interpreter.requireAnswers ((reviewFields schema result.missingFields).map formField) "correct"
        (sampleAnswers (reviewFields schema result.missingFields)) = .ok () := by
      have none : ((reviewFields schema result.missingFields).map formField).find? (fun field => field.required &&
          (Json.lookup field.key (sampleAnswers (reviewFields schema result.missingFields))).isNone) = none := by
        rw [List.find?_eq_none]
        intro form member
        obtain ⟨field, among, rfl⟩ := List.mem_map.mp member
        simp [formField, lookup_sampleAnswers formal.2 among]
      rw [Interpreter.requireAnswers, if_pos rfl, none]
    rw [Interpreter.validateResolutionAgainstBusinessForm, read]
    change (Interpreter.validateCorrections parseDate _ _ _ >>= _) = _
    rw [Option.getD_some, keys, validateCorrections_sample reads formal.2 (List.Subset.refl _)]
    exact answered

/-- A schema of one required field of a key. -/
def oneField (key : String) : Json := .arr [.obj [("key", .str key), ("required", .bool true)]]

theorem validation_form_answerable_iff_total :
    ∃ schema, parseDocumentFieldSchema onePlatform (oneField "total") = .ok schema ∧
      (extractDocumentFields onePlatform "" schema).status = .validationRequired ∧
      Answerable (fun _ => some 0) schema (extractDocumentFields onePlatform "" schema).missingFields :=
  ⟨_, rfl, by decide +kernel,
    (validation_form_answerable_iff onePlatform (fun _ => some 0) rfl (oneField "total") _ rfl _ (.builtIn "")
      (by decide +kernel)).mpr (by decide +kernel)⟩

/-- A key with a point is a key of a field schema and none of a form. -/
theorem pointed_key_is_unanswerable :
    ∃ schema, parseDocumentFieldSchema onePlatform (oneField "total.amount") = .ok schema ∧
      (extractDocumentFields onePlatform "" schema).status = .validationRequired ∧
      ¬ Answerable (fun _ => some 0) schema (extractDocumentFields onePlatform "" schema).missingFields := by
  refine ⟨_, rfl, by decide +kernel, ?_⟩
  rintro ⟨⟨form, read⟩, -⟩
  have refused : Interpreter.parseBusinessFormSchema (some (resultSchema
      [⟨"total.amount", "total.amount", true, .text, [], [], 4 / 5⟩] ["total.amount"])) =
        .error ⟨"invalid_business_form_field_key", some ("field", "total.amount")⟩ := by rfl
  cases refused.symm.trans read

/-! ## The extraction of a job -/

inductive DocumentJobStatus where
  | created
  | extracted
  | validationRequired
  | validated
  | failed
deriving Repr, DecidableEq

def DocumentExtractionStatus.jobStatus : DocumentExtractionStatus → DocumentJobStatus
  | .completed => .extracted
  | .validationRequired => .validationRequired

inductive DocumentExtractionEngine where
  | builtIn
  | external
deriving Repr, DecidableEq

/-- Who wrote a column: the built-in extractor, or the call with an alias and a receipt id. -/
inductive Author where
  | builtIn
  | external (providerAlias receiptId : String)
deriving Repr, DecidableEq

/-- A column with its author, which is not stored. -/
structure Written (Value : Type) where
  value : Value
  author : Author
deriving Repr, DecidableEq

structure DocumentExtractionRow where
  engine : DocumentExtractionEngine
  providerAlias : Option String
  providerReceiptId : Option String
  status : Written DocumentExtractionStatus
  fields : Written (List DocumentExtractionField)
  missingFields : Written (List String)
  validationHumanTaskId : Option Nat
deriving Repr, DecidableEq

/-- The three columns as one call writes them. -/
def DocumentExtractionRow.write (row : DocumentExtractionRow) (author : Author) (result : DocumentExtractionResult) :
    DocumentExtractionRow :=
  { row with
    status := ⟨result.status, author⟩
    fields := ⟨result.fields, author⟩
    missingFields := ⟨result.missingFields, author⟩ }

structure ExternalDocumentExtractionBody where
  providerAlias : String
  receiptId : String
  fields : List ExternalDocumentExtractionFieldInput
deriving Repr, DecidableEq

/-- `ON CONFLICT ... DO UPDATE` without a condition, and without the engine. -/
def upsertExtraction (row : Option DocumentExtractionRow) (result : DocumentExtractionResult) :
    DocumentExtractionRow :=
  match row with
  | some row => row.write .builtIn result
  | none =>
    { engine := .builtIn, providerAlias := none, providerReceiptId := none, status := ⟨result.status, .builtIn⟩
      fields := ⟨result.fields, .builtIn⟩, missingFields := ⟨result.missingFields, .builtIn⟩
      validationHumanTaskId := none }

/-- `ON CONFLICT ... DO UPDATE ... WHERE`: nothing is written to a row of another call. -/
def upsertExternalExtraction (row : Option DocumentExtractionRow) (body : ExternalDocumentExtractionBody)
    (result : DocumentExtractionResult) : Option DocumentExtractionRow :=
  let author := Author.external body.providerAlias body.receiptId
  match row with
  | some row =>
    if row.engine = .external ∧ row.providerAlias = some body.providerAlias ∧
        row.providerReceiptId = some body.receiptId then some (row.write author result)
    else none
  | none =>
    some { engine := .external, providerAlias := some body.providerAlias, providerReceiptId := some body.receiptId
           status := ⟨result.status, author⟩, fields := ⟨result.fields, author⟩
           missingFields := ⟨result.missingFields, author⟩, validationHumanTaskId := none }

/-! ## Commands -/

/-- A validation task: its state, its form and the resolution stored with it. -/
structure ReviewTask where
  state : Runtime.HumanTaskState := .opened
  resultSchema : Json
  result : Option Interpreter.HumanTaskResolution := none

/-- A transaction that has made its reads and has still to write. -/
inductive Pending where
  | extract (result : DocumentExtractionResult)
  | external (body : ExternalDocumentExtractionBody) (result : DocumentExtractionResult)
  | review (missing : List String)

/-- What a job is created with; nothing changes it. -/
structure Job where
  fieldSchema : Json
  content : String

structure JobState where
  status : DocumentJobStatus := .created
  extraction : Option DocumentExtractionRow := none
  tasks : List ReviewTask := []
  pending : List Pending := []

inductive JobAction where
  /-- The reads of `extractDocumentJob`; `readable` tells whether the artifact may be read. -/
  | extract (readable : Bool)
  /-- The reads of `recordExternalDocumentExtraction`; `usedElsewhere` tells whether another job has the receipt. -/
  | record (body : ExternalDocumentExtractionBody) (usedElsewhere : Bool)
  /-- The reads of `createValidationTask`. -/
  | createValidationTask
  /-- The writes of a transaction and its commit. -/
  | commit (index : Nat)
  | rollback (index : Nat)
  /-- A command on a validation task, or a move of its own. -/
  | moveTask (task : Nat) (event : Runtime.HumanTaskEvent) (guard : Runtime.HumanTaskGuard)
      (resolution : Option Interpreter.HumanTaskResolution)

section Commands

variable (platform : Platform) (parseDate : String → Option Rat) (job : Job)

/-- What the built-in extractor makes of the job, whenever it is asked. -/
def Job.result : Option DocumentExtractionResult :=
  ((parseDocumentFieldSchema platform job.fieldSchema).map (extractDocumentFields platform job.content)).toOption

/-- What is made of a provider's fields. -/
def Job.normalized (body : ExternalDocumentExtractionBody) : Option DocumentExtractionResult := do
  let schema ← (parseDocumentFieldSchema platform job.fieldSchema).toOption
  (normalizeExternalFields schema body.fields).toOption

namespace JobState

def startExtract (state : JobState) (readable : Bool) : JobState :=
  if readable ∧ ∀ row, state.extraction = some row → row.engine = .builtIn then
    match job.result platform with
    | some result => { state with pending := state.pending ++ [.extract result] }
    | none => state
  else state

/-- A job with an extraction is answered from its row or refused. -/
def startRecord (state : JobState) (body : ExternalDocumentExtractionBody) (usedElsewhere : Bool) : JobState :=
  if usedElsewhere then state
  else
    match state.extraction, job.normalized platform body with
    | none, some result => { state with pending := state.pending ++ [.external body result] }
    | _, _ => state

def startReview (state : JobState) : JobState :=
  match state.extraction with
  | some row =>
    if row.status.value = .validationRequired ∧ row.validationHumanTaskId = none then
      { state with pending := state.pending ++ [.review row.missingFields.value] }
    else state
  | none => state

/-- The task with the form of the fields that were missing when they were read. -/
def insertReview (state : JobState) (missing : List String) : JobState :=
  match parseDocumentFieldSchema platform job.fieldSchema with
  | .ok schema =>
    { state with
      tasks := state.tasks ++ [{ resultSchema := resultSchema schema missing }]
      extraction := state.extraction.map fun row => { row with validationHumanTaskId := some state.tasks.length }
      status := .validationRequired }
  | .error _ => state

def write (state : JobState) : Pending → JobState
  | .extract result =>
    { state with extraction := some (upsertExtraction state.extraction result), status := result.status.jobStatus }
  | .external body result =>
    match upsertExternalExtraction state.extraction body result with
    | some row => { state with extraction := some row, status := result.status.jobStatus }
    | none => state
  | .review missing => insertReview platform job state missing

/-- `applyHumanTaskCommand` and the check of the resolution that comes before it. -/
def moveTask (state : JobState) (index : Nat) (event : Runtime.HumanTaskEvent) (guard : Runtime.HumanTaskGuard)
    (resolution : Option Interpreter.HumanTaskResolution) : JobState :=
  match state.tasks[index]? with
  | none => state
  | some task =>
    if event = .resolve ∧ (Interpreter.validateResolutionAgainstBusinessForm parseDate (some task.resultSchema)
        resolution).toOption = none then state
    else
      match Runtime.transitionHumanTask task.state event guard with
      | .error _ => state
      | .ok moved =>
        let result := if event = .resolve then resolution else task.result
        { state with tasks := state.tasks.set index { task with state := moved.next, result } }

def step (state : JobState) : JobAction → JobState
  | .extract readable => startExtract platform job state readable
  | .record body usedElsewhere => startRecord platform job state body usedElsewhere
  | .createValidationTask => state.startReview
  | .commit index =>
    match state.pending[index]? with
    | some pending => write platform job { state with pending := state.pending.eraseIdx index } pending
    | none => state
  | .rollback index => { state with pending := state.pending.eraseIdx index }
  | .moveTask task event guard resolution => moveTask parseDate state task event guard resolution

end JobState

end Commands

/-! ## One author -/

/-- The author that the engine, the alias and the receipt id name. -/
def DocumentExtractionRow.named (row : DocumentExtractionRow) : Option Author :=
  match row.engine, row.providerAlias, row.providerReceiptId with
  | .builtIn, _, _ => some .builtIn
  | .external, some providerAlias, some receiptId => some (.external providerAlias receiptId)
  | _, _, _ => none

/-- Status, fields and missing fields are all by the author the row names. -/
def DocumentExtractionRow.OneAuthor (row : DocumentExtractionRow) : Prop :=
  row.named = some row.status.author ∧ row.named = some row.fields.author ∧ row.named = some row.missingFields.author

instance (row : DocumentExtractionRow) : Decidable row.OneAuthor := inferInstanceAs (Decidable (_ ∧ _ ∧ _))

def JobState.OneAuthor (state : JobState) : Prop := ∀ row ∈ state.extraction, row.OneAuthor

/-- No extraction of an external provider is there when the built-in extractor writes. -/
def JobState.Unmixed (state : JobState) (action : JobAction) : Prop :=
  ∀ index result, action = .commit index → state.pending[index]? = some (.extract result) →
    ∀ row ∈ state.extraction, row.engine = .builtIn

section Authors

variable (platform : Platform) (parseDate : String → Option Rat) (job : Job)

theorem oneAuthor_write_iff {row : DocumentExtractionRow} {author : Author} {result : DocumentExtractionResult} :
    (row.write author result).OneAuthor ↔ row.named = some author := by
  simp [DocumentExtractionRow.OneAuthor, DocumentExtractionRow.write, DocumentExtractionRow.named]

theorem oneAuthor_upsertExtraction_iff {row : Option DocumentExtractionRow} {result : DocumentExtractionResult} :
    (upsertExtraction row result).OneAuthor ↔ ∀ old ∈ row, old.engine = .builtIn := by
  cases row with
  | none => simp [upsertExtraction, DocumentExtractionRow.OneAuthor, DocumentExtractionRow.named]
  | some row =>
    simp only [upsertExtraction, oneAuthor_write_iff, Option.mem_some_iff, forall_eq']
    unfold DocumentExtractionRow.named
    constructor
    · intro named
      split at named
      · assumption
      · cases named
      · cases named
    · intro builtIn
      simp [builtIn]

theorem oneAuthor_upsertExternalExtraction {row : Option DocumentExtractionRow} {body : ExternalDocumentExtractionBody}
    {result : DocumentExtractionResult} {written : DocumentExtractionRow}
    (upserted : upsertExternalExtraction row body result = some written) : written.OneAuthor := by
  unfold upsertExternalExtraction at upserted
  split at upserted
  · split at upserted
    · rename_i matching
      cases upserted
      rw [oneAuthor_write_iff, DocumentExtractionRow.named, matching.1, matching.2.1, matching.2.2]
    · cases upserted
  · cases upserted
    exact ⟨rfl, rfl, rfl⟩

theorem extraction_moveTask (state : JobState) (index : Nat) (event : Runtime.HumanTaskEvent)
    (guard : Runtime.HumanTaskGuard) (resolution : Option Interpreter.HumanTaskResolution) :
    let moved := state.moveTask parseDate index event guard resolution
    moved.extraction = state.extraction ∧ moved.status = state.status ∧ moved.pending = state.pending := by
  unfold JobState.moveTask
  repeat' split
  all_goals exact ⟨rfl, rfl, rfl⟩

/-- A command that is started joins the transactions under way, or changes nothing. -/
theorem startExtract_cases (state : JobState) (readable : Bool) :
    state.startExtract platform job readable = state ∨
      (∀ row ∈ state.extraction, row.engine = .builtIn) ∧ ∃ result, job.result platform = some result ∧
        state.startExtract platform job readable = { state with pending := state.pending ++ [.extract result] } := by
  unfold JobState.startExtract
  split
  · rename_i free
    cases again : job.result platform with
    | none => exact .inl rfl
    | some result => exact .inr ⟨free.2, result, rfl, rfl⟩
  · exact .inl rfl

theorem startRecord_cases (state : JobState) (body : ExternalDocumentExtractionBody) (usedElsewhere : Bool) :
    state.startRecord platform job body usedElsewhere = state ∨
      state.extraction = none ∧ ∃ result, state.startRecord platform job body usedElsewhere =
        { state with pending := state.pending ++ [.external body result] } := by
  unfold JobState.startRecord
  split
  · exact .inl rfl
  · split
    · rename_i result absent _
      exact .inr ⟨absent, result, rfl⟩
    · exact .inl rfl

theorem startReview_cases (state : JobState) :
    state.startReview = state ∨ ∃ row ∈ state.extraction, row.status.value = .validationRequired ∧
      state.startReview = { state with pending := state.pending ++ [.review row.missingFields.value] } := by
  unfold JobState.startReview
  split
  · rename_i row stored
    split
    · rename_i open_
      exact .inr ⟨row, stored, open_.1, rfl⟩
    · exact .inl rfl
  · exact .inl rfl

theorem oneAuthor_congr {one two : JobState} (same : two.extraction = one.extraction) (authored : one.OneAuthor) :
    two.OneAuthor := by
  rw [JobState.OneAuthor, same]
  exact authored

theorem oneAuthor_insertReview {state : JobState} (missing : List String) (one : state.OneAuthor) :
    (state.insertReview platform job missing).OneAuthor := by
  unfold JobState.insertReview
  split
  · intro row member
    obtain ⟨old, among, rfl⟩ := Option.map_eq_some_iff.mp member
    exact one old among
  · exact one

/-- Of all steps only the built-in extractor's write can leave a row with two authors. -/
theorem oneAuthor_step_iff (state : JobState) (action : JobAction) (one : state.OneAuthor) :
    (state.step platform parseDate job action).OneAuthor ↔ state.Unmixed action := by
  have other : (∀ index, action ≠ .commit index) → state.Unmixed action :=
    fun none index _ same => absurd same (none index)
  cases action with
  | extract readable =>
    refine iff_of_true (oneAuthor_congr ?_ one) (other fun _ => nofun)
    obtain idle | ⟨-, _, -, started⟩ := startExtract_cases platform job state readable
    · rw [JobState.step, idle]
    · rw [JobState.step, started]
  | record body usedElsewhere =>
    refine iff_of_true (oneAuthor_congr ?_ one) (other fun _ => nofun)
    obtain idle | ⟨-, _, started⟩ := startRecord_cases platform job state body usedElsewhere
    · rw [JobState.step, idle]
    · rw [JobState.step, started]
  | createValidationTask =>
    refine iff_of_true (oneAuthor_congr ?_ one) (other fun _ => nofun)
    obtain idle | ⟨_, -, -, started⟩ := startReview_cases state
    · rw [JobState.step, idle]
    · rw [JobState.step, started]
  | rollback index => exact iff_of_true one (other fun _ => nofun)
  | moveTask task event guard resolution =>
    exact iff_of_true (oneAuthor_congr (extraction_moveTask parseDate state task event guard resolution).1 one)
      (other fun _ => nofun)
  | commit index =>
    simp only [JobState.step, JobState.Unmixed, JobAction.commit.injEq]
    cases pending : state.pending[index]? with
    | none =>
      refine iff_of_true one ?_
      rintro _ result rfl found
      rw [pending] at found
      cases found
    | some waiting =>
      cases waiting with
      | extract result =>
        have written : (JobState.write platform job { state with pending := state.pending.eraseIdx index }
            (.extract result)).OneAuthor ↔ ∀ row ∈ state.extraction, row.engine = .builtIn := by
          rw [← @oneAuthor_upsertExtraction_iff state.extraction result]
          simp [JobState.OneAuthor, JobState.write]
        refine written.trans ⟨fun unmixed _ _ _ _ => unmixed, fun unmixed => unmixed index result rfl pending⟩
      | external body result =>
        refine iff_of_true ?_ (by rintro _ other rfl found; rw [pending] at found; cases found)
        simp only [JobState.write]
        split
        · rename_i row upserted
          intro new member
          cases member
          exact oneAuthor_upsertExternalExtraction upserted
        · exact one
      | review missing =>
        refine iff_of_true ?_ (by rintro _ other rfl found; rw [pending] at found; cases found)
        exact oneAuthor_insertReview platform job missing one

end Authors

/-- For every interleaving, the stored extraction has one author all along just if the built-in extractor
never writes over an extraction of an external provider. -/
theorem extraction_one_author_iff (platform : Platform) (parseDate : String → Option Rat) (job : Job)
    (schedule : List JobAction) :
    Throughout (JobState.step platform parseDate job) JobState.OneAuthor {} schedule ↔
      Along (JobState.step platform parseDate job) JobState.Unmixed {} schedule :=
  @throughout_iff_along _ _ (JobState.step platform parseDate job) JobState.Unmixed JobState.OneAuthor
    (oneAuthor_step_iff platform parseDate job) {} (fun _ member => nomatch member) schedule

/-- A provider that reads the total of a document. -/
def providerCall : ExternalDocumentExtractionBody :=
  { providerAlias := "ocr", receiptId := "r-1", fields := [⟨"total", some "5", 1⟩] }

def totalJob : Job := { fieldSchema := oneField "total", content := "" }

/-- The extractor looks for a row, the provider's call is stored, and the extractor writes. -/
theorem extractor_overwrites_provider :
    ∃ row ∈ (exec (JobState.step onePlatform (fun _ => none) totalJob) {}
        [.extract true, .record providerCall false, .commit 1, .commit 0]).extraction,
      row.engine = .external ∧ row.providerReceiptId = some "r-1" ∧ row.status.author = .builtIn ∧
        row.missingFields.value = ["total"] ∧ ¬ row.OneAuthor :=
  ⟨_, rfl, by decide +kernel⟩

/-! ## Jobs that wait for validation -/

/-- The columns of an extraction that a reviewer's answer would change. -/
def DocumentExtractionRow.values (row : DocumentExtractionRow) : DocumentExtractionResult :=
  ⟨row.status.value, row.fields.value, row.missingFields.value⟩

section Waiting

variable (platform : Platform) (parseDate : String → Option Rat) (job : Job)

/-- The extraction of a job that waits, as far as the built-in extractor has written it. -/
def Awaited (row : DocumentExtractionRow) : Prop := row.engine = .builtIn → row.values.status = .validationRequired

/-- What the built-in extractor has written is what it writes again. -/
structure JobState.Sound (state : JobState) : Prop where
  builtIn : ∀ row ∈ state.extraction, row.engine = .builtIn → job.result platform = some row.values
  extracting : ∀ result, Pending.extract result ∈ state.pending → job.result platform = some result
  reviewing : ∀ missing, Pending.review missing ∈ state.pending → ∃ row ∈ state.extraction, Awaited row
  waiting : state.status = .validationRequired → ∃ row ∈ state.extraction, Awaited row

variable {platform job} {state : JobState}

theorem values_upsertExtraction (row : Option DocumentExtractionRow) (result : DocumentExtractionResult) :
    (upsertExtraction row result).values = result := by
  cases row <;> rfl

theorem engine_upsertExternalExtraction {row : Option DocumentExtractionRow} {body : ExternalDocumentExtractionBody}
    {result : DocumentExtractionResult} {written : DocumentExtractionRow}
    (upserted : upsertExternalExtraction row body result = some written) : written.engine = .external := by
  unfold upsertExternalExtraction at upserted
  split at upserted
  · split at upserted
    · rename_i matching
      cases upserted
      exact matching.1
    · cases upserted
  · cases upserted
    rfl

/-- A transaction more. -/
theorem JobState.Sound.append (sound : state.Sound platform job) {pending : Pending}
    (extracting : ∀ result, pending = .extract result → job.result platform = some result)
    (reviewing : ∀ missing, pending = .review missing → ∃ row ∈ state.extraction, Awaited row) :
    JobState.Sound platform job { state with pending := state.pending ++ [pending] } := by
  refine ⟨sound.builtIn, fun result member => ?_, fun missing member => ?_, sound.waiting⟩
  · rcases List.mem_append.mp member with before | new
    · exact sound.extracting result before
    · exact extracting result (List.mem_singleton.mp new).symm
  · rcases List.mem_append.mp member with before | new
    · exact sound.reviewing missing before
    · exact reviewing missing (List.mem_singleton.mp new).symm

/-- A transaction less. -/
theorem JobState.Sound.eraseIdx (sound : state.Sound platform job) (index : Nat) :
    JobState.Sound platform job { state with pending := state.pending.eraseIdx index } :=
  ⟨sound.builtIn, fun result member => sound.extracting result (List.mem_of_mem_eraseIdx member),
    fun missing member => sound.reviewing missing (List.mem_of_mem_eraseIdx member), sound.waiting⟩

theorem JobState.Sound.insertReview (sound : state.Sound platform job) (missing : List String)
    (reviewed : ∃ row ∈ state.extraction, Awaited row) :
    (state.insertReview platform job missing).Sound platform job := by
  unfold JobState.insertReview
  split
  · obtain ⟨row, stored, awaited⟩ := reviewed
    have there : ∃ other ∈ state.extraction.map fun row =>
        { row with validationHumanTaskId := some state.tasks.length }, Awaited other :=
      ⟨_, Option.map_eq_some_iff.mpr ⟨row, stored, rfl⟩, awaited⟩
    refine ⟨fun other member builtIn => ?_, sound.extracting, fun _ _ => there, fun _ => there⟩
    obtain ⟨old, among, rfl⟩ := Option.map_eq_some_iff.mp member
    exact sound.builtIn old among builtIn
  · exact sound

theorem JobState.Sound.write (sound : state.Sound platform job) {pending : Pending}
    (extracting : ∀ result, pending = .extract result → job.result platform = some result)
    (reviewing : ∀ missing, pending = .review missing → ∃ row ∈ state.extraction, Awaited row) :
    (state.write platform job pending).Sound platform job := by
  cases pending with
  | extract result =>
    have same := extracting result rfl
    have values := values_upsertExtraction state.extraction result
    refine ⟨fun row member _ => ?_, sound.extracting, fun missing member => ?_, fun waiting => ?_⟩
    · cases member
      rw [values]
      exact same
    · obtain ⟨row, stored, awaited⟩ := sound.reviewing missing member
      refine ⟨_, rfl, fun builtIn => ?_⟩
      rw [stored] at builtIn values ⊢
      rw [values, ← Option.some.inj ((sound.builtIn row stored builtIn).symm.trans same)]
      exact awaited builtIn
    · refine ⟨_, rfl, fun _ => ?_⟩
      rw [values]
      cases status : result.status with
      | completed => simp [JobState.write, status, DocumentExtractionStatus.jobStatus] at waiting
      | validationRequired => rfl
  | external body result =>
    simp only [JobState.write]
    split
    · rename_i row upserted
      have engine := engine_upsertExternalExtraction upserted
      have awaited : Awaited row := fun builtIn => absurd (builtIn.symm.trans engine) (by decide)
      refine ⟨fun other member builtIn => ?_, sound.extracting, fun _ _ => ⟨row, rfl, awaited⟩,
        fun _ => ⟨row, rfl, awaited⟩⟩
      cases member
      exact absurd (builtIn.symm.trans engine) (by decide)
    · exact sound
  | review missing => exact sound.insertReview missing (reviewing missing rfl)

theorem JobState.Sound.step (sound : state.Sound platform job) (action : JobAction) :
    (state.step platform parseDate job action).Sound platform job := by
  cases action with
  | extract readable =>
    obtain idle | ⟨-, result, again, started⟩ := startExtract_cases platform job state readable
    · rwa [JobState.step, idle]
    · rw [JobState.step, started]
      exact sound.append (fun other same => by cases same; exact again) nofun
  | record body usedElsewhere =>
    obtain idle | ⟨-, result, started⟩ := startRecord_cases platform job state body usedElsewhere
    · rwa [JobState.step, idle]
    · rw [JobState.step, started]
      exact sound.append nofun nofun
  | createValidationTask =>
    obtain idle | ⟨row, stored, open_, started⟩ := startReview_cases state
    · rwa [JobState.step, idle]
    · rw [JobState.step, started]
      exact sound.append nofun fun _ _ => ⟨row, stored, fun _ => open_⟩
  | rollback index => exact sound.eraseIdx index
  | moveTask task event guard resolution =>
    obtain ⟨extraction, status, pending⟩ := extraction_moveTask parseDate state task event guard resolution
    exact ⟨extraction ▸ sound.builtIn, pending ▸ sound.extracting, extraction ▸ pending ▸ sound.reviewing,
      extraction ▸ status ▸ sound.waiting⟩
  | commit index =>
    simp only [JobState.step]
    split
    · rename_i waiting found
      have member := List.mem_of_getElem? found
      exact (sound.eraseIdx index).write (fun result same => sound.extracting result (same ▸ member))
        fun missing same => sound.reviewing missing (same ▸ member)
    · exact sound

theorem sound_exec (schedule : List JobAction) :
    (exec (JobState.step platform parseDate job) {} schedule).Sound platform job :=
  @exec_invariant _ _ (JobState.step platform parseDate job) (JobState.Sound platform job)
    (fun _ action sound => sound.step parseDate action) {}
    ⟨nofun, nofun, nofun, nofun⟩ schedule

/-- The job waits, and no transaction under way will write another extraction than the one there is. -/
structure JobState.Stuck (values : DocumentExtractionResult) (state : JobState) : Prop where
  status : state.status = .validationRequired
  stored : ∃ row ∈ state.extraction, row.values = values ∧ Awaited row ∧
    ∀ result, Pending.extract result ∈ state.pending → row.engine = .builtIn
  alone : ∀ body result, Pending.external body result ∉ state.pending

variable {values : DocumentExtractionResult}

theorem JobState.Stuck.append (stuck : state.Stuck values) {pending : Pending}
    (extracting : ∀ result, pending = .extract result → ∀ row ∈ state.extraction, row.engine = .builtIn)
    (alone : ∀ body result, pending ≠ .external body result) :
    JobState.Stuck values { state with pending := state.pending ++ [pending] } := by
  obtain ⟨row, stored, same, awaited, builtIn⟩ := stuck.stored
  refine ⟨stuck.status, ⟨row, stored, same, awaited, fun result member => ?_⟩, fun body result member => ?_⟩
  · rcases List.mem_append.mp member with before | new
    · exact builtIn result before
    · exact extracting result (List.mem_singleton.mp new).symm row stored
  · rcases List.mem_append.mp member with before | new
    · exact stuck.alone body result before
    · exact alone body result (List.mem_singleton.mp new).symm

theorem JobState.Stuck.eraseIdx (stuck : state.Stuck values) (index : Nat) :
    JobState.Stuck values { state with pending := state.pending.eraseIdx index } := by
  obtain ⟨row, stored, same, awaited, builtIn⟩ := stuck.stored
  exact ⟨stuck.status, ⟨row, stored, same, awaited,
    fun result member => builtIn result (List.mem_of_mem_eraseIdx member)⟩,
    fun body result member => stuck.alone body result (List.mem_of_mem_eraseIdx member)⟩

/-- Extracting again writes what is there. -/
theorem JobState.Stuck.extract (sound : state.Sound platform job) (stuck : state.Stuck values)
    {result : DocumentExtractionResult} (again : job.result platform = some result)
    (builtIn : ∀ row ∈ state.extraction, row.engine = .builtIn) :
    (state.write platform job (.extract result)).Stuck values := by
  obtain ⟨row, stored, same, awaited, -⟩ := stuck.stored
  have engine := builtIn row stored
  have unchanged : result = values := by
    rw [← same]
    exact Option.some.inj (again.symm.trans (sound.builtIn row stored engine))
  have open_ : result.status = .validationRequired := by
    rw [unchanged, ← same]
    exact awaited engine
  refine ⟨?_, ⟨_, rfl, ?_, fun _ => ?_, fun _ _ => ?_⟩, stuck.alone⟩
  · simp [JobState.write, open_, DocumentExtractionStatus.jobStatus]
  · rw [values_upsertExtraction, unchanged]
  · rw [values_upsertExtraction, open_]
  · rw [Option.mem_def.mp stored]
    exact engine

theorem JobState.Stuck.insertReview (stuck : state.Stuck values) (missing : List String) :
    (state.insertReview platform job missing).Stuck values := by
  unfold JobState.insertReview
  split
  · obtain ⟨row, stored, same, awaited, builtIn⟩ := stuck.stored
    exact ⟨rfl, ⟨_, Option.map_eq_some_iff.mpr ⟨row, stored, rfl⟩, same, awaited, builtIn⟩, stuck.alone⟩
  · exact stuck

theorem JobState.Stuck.step (sound : state.Sound platform job) (stuck : state.Stuck values) (action : JobAction) :
    (state.step platform parseDate job action).Stuck values := by
  cases action with
  | extract readable =>
    obtain idle | ⟨builtIn, result, -, started⟩ := startExtract_cases platform job state readable
    · rwa [JobState.step, idle]
    · rw [JobState.step, started]
      exact stuck.append (fun _ _ => builtIn) nofun
  | record body usedElsewhere =>
    obtain idle | ⟨absent, -⟩ := startRecord_cases platform job state body usedElsewhere
    · rwa [JobState.step, idle]
    · obtain ⟨row, stored, -⟩ := stuck.stored
      cases absent.symm.trans stored
  | createValidationTask =>
    obtain idle | ⟨row, -, -, started⟩ := startReview_cases state
    · rwa [JobState.step, idle]
    · rw [JobState.step, started]
      exact stuck.append nofun nofun
  | rollback index => exact stuck.eraseIdx index
  | moveTask task event guard resolution =>
    obtain ⟨extraction, status, pending⟩ := extraction_moveTask parseDate state task event guard resolution
    exact ⟨status.trans stuck.status, extraction ▸ pending ▸ stuck.stored, pending ▸ stuck.alone⟩
  | commit index =>
    simp only [JobState.step]
    split
    · rename_i waiting found
      have member := List.mem_of_getElem? found
      cases waiting with
      | extract result =>
        refine (stuck.eraseIdx index).extract (sound.eraseIdx index) (sound.extracting result member) fun row stored => ?_
        obtain ⟨other, also, -, -, builtIn⟩ := stuck.stored
        cases stored.symm.trans also
        exact builtIn result member
      | external body result => exact absurd member (stuck.alone body result)
      | review missing => exact (stuck.eraseIdx index).insertReview missing
    · exact stuck

/-- Nothing that comes after ends the waiting. -/
theorem stuck_exec (sound : state.Sound platform job) (quiet : state.pending = [])
    (waiting : state.status = .validationRequired) (after : List JobAction) :
    (exec (JobState.step platform parseDate job) state after).status = .validationRequired ∧
      (exec (JobState.step platform parseDate job) state after).extraction.map DocumentExtractionRow.values =
        state.extraction.map DocumentExtractionRow.values := by
  obtain ⟨row, stored, awaited⟩ := sound.waiting waiting
  have start : state.Stuck row.values :=
    ⟨waiting, ⟨row, stored, rfl, awaited, fun _ member => by rw [quiet] at member; cases member⟩,
      fun _ _ member => by rw [quiet] at member; cases member⟩
  have both := @exec_invariant _ _ (JobState.step platform parseDate job)
    (fun state => state.Sound platform job ∧ state.Stuck row.values)
    (fun _ action ⟨sound, stuck⟩ => ⟨sound.step parseDate action, stuck.step parseDate sound action⟩) state
    ⟨sound, start⟩ after
  obtain ⟨last, there, same, -⟩ := both.2.stored
  exact ⟨both.2.status, by rw [Option.mem_def.mp there, Option.mem_def.mp stored, Option.map_some, same, Option.map_some]⟩

end Waiting

/-- The job is done and its extraction holds the reviewer's value of every field that was missing. -/
def JobState.Finished (missing : List String) (state : JobState) : Prop :=
  (state.status = .extracted ∨ state.status = .validated) ∧
    ∃ row ∈ state.extraction, ∃ task ∈ state.tasks, ∃ resolution ∈ task.result, ∀ key ∈ missing,
      ∃ value, Json.lookup key (resolution.corrections.getD []) = some value ∧
        ∃ field ∈ row.fields.value, field.key = key ∧ field.value = some (normalizeValue value)

/-- From a state in which the job waits for validation and no transaction is under way, no schedule
finishes the job: each leaves it waiting, with the extraction it has. -/
theorem validation_never_finishes (platform : Platform) (parseDate : String → Option Rat) (job : Job)
    (before : List JobAction) (quiet : (exec (JobState.step platform parseDate job) {} before).pending = [])
    (waiting : (exec (JobState.step platform parseDate job) {} before).status = .validationRequired)
    (after : List JobAction) (missing : List String) :
    (exec (JobState.step platform parseDate job) {} (before ++ after)).status = .validationRequired ∧
      (exec (JobState.step platform parseDate job) {} (before ++ after)).extraction.map DocumentExtractionRow.values =
        (exec (JobState.step platform parseDate job) {} before).extraction.map DocumentExtractionRow.values ∧
      ¬ JobState.Finished missing (exec (JobState.step platform parseDate job) {} (before ++ after)) := by
  obtain ⟨status, values⟩ := stuck_exec parseDate (sound_exec parseDate before) quiet waiting after
  rw [exec_append]
  refine ⟨status, values, ?_⟩
  rintro ⟨extracted | validated, -⟩
  · exact absurd (status.symm.trans extracted) (by decide)
  · exact absurd (status.symm.trans validated) (by decide)

/-- The commands that end with the resolution of the review. -/
def reviewOf (resolution : Interpreter.HumanTaskResolution) : List JobAction :=
  [.createValidationTask, .commit 0, .moveTask 0 .assign {} none, .moveTask 0 .start {} none,
    .moveTask 0 .resolve {} (some resolution)]

def totalResolution : Interpreter.HumanTaskResolution :=
  { decision := "correct", known := by decide, corrections := some [("total", .str "5")] }

theorem validation_never_finishes_total :
    ¬ JobState.Finished ["total"] (exec (JobState.step onePlatform (fun _ => none) totalJob) {}
      ([.extract true, .commit 0] ++ reviewOf totalResolution)) :=
  (validation_never_finishes onePlatform (fun _ => none) totalJob [.extract true, .commit 0] rfl (by decide +kernel)
    (reviewOf totalResolution) ["total"]).2.2

/-- The total is missing, a reviewer answers it, and no schedule ever ends the waiting. -/
theorem reviewed_total_is_not_stored :
    (exec (JobState.step onePlatform (fun _ => none) totalJob) {} [.extract true, .commit 0]).status =
        .validationRequired ∧
      ((exec (JobState.step onePlatform (fun _ => none) totalJob) {}
        ([.extract true, .commit 0] ++ reviewOf totalResolution)).tasks.map (·.state)) = [.resolved] ∧
      ¬ ∃ after, JobState.Finished ["total"]
        (exec (JobState.step onePlatform (fun _ => none) totalJob) {} ([.extract true, .commit 0] ++ after)) := by
  have waiting : (exec (JobState.step onePlatform (fun _ => none) totalJob) {} [.extract true, .commit 0]).status =
      .validationRequired := by decide +kernel
  refine ⟨waiting, by decide +kernel, ?_⟩
  rintro ⟨after, done, -⟩
  rw [exec_append] at done
  have status := (stuck_exec (fun _ => none) (sound_exec (fun _ => none) [.extract true, .commit 0]) rfl waiting after).1
  rcases done with extracted | validated
  · exact absurd (status.symm.trans extracted) (by decide)
  · exact absurd (status.symm.trans validated) (by decide)

end RpaEnterprise.Documents
