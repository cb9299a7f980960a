import Mathlib.Data.List.Induction
import RpaEnterprise.Interpreter.Runs
import RpaEnterprise.Ir.Accepted
import RpaEnterprise.Irel.Soundness
import RpaEnterprise.Lib.Results

/-!
# Answers to business forms

A form is read twice: the static check takes the types of the correction keys from it,
and the resolve command checks the answer against it.  The stored answer is what the
conditions of the resumed drive see.  An optional field may be answered with nothing at
all, which the check of the answer accepts for every type.
-/

namespace RpaEnterprise.Interpreter

open Lib Ir Irel

/-! ## Forms -/

inductive BusinessFormFieldType where
  | text
  | textarea
  | number
  | boolean
  | date
  | select
deriving Repr, DecidableEq

/-- `FIELD_TYPES`. -/
def fieldTypes : List (String × BusinessFormFieldType) :=
  [("text", .text), ("textarea", .textarea), ("number", .number), ("boolean", .boolean), ("date", .date),
    ("select", .select)]

structure BusinessFormField where
  key : String
  label : String
  type : BusinessFormFieldType
  required : Bool
  options : Option (List String)
  helpText : Option String

/-- An `IR_SCHEMA_INVALID` response with its reason and the detail it names. -/
structure FormIssue where
  reason : String
  detail : Option (String × String) := none
deriving Repr, DecidableEq

/-- The pattern `^[A-Za-z_][A-Za-z0-9_]{0,63}$`. -/
def isFormKey (text : String) : Bool := isIdentifier text.toList && text.toList.length ≤ 64

def stringProp (field : Json) (prop : String) : Except FormIssue String :=
  match (textOf field prop).filter (· ≠ "") with
  | some text => .ok text
  | none => .error ⟨"invalid_business_form_field_property", some ("prop", prop)⟩

def optionText : Json → Option String
  | .str text => if text = "" then none else some text
  | _ => none

def parseOptions (value : Option Json) (key : String) (type : BusinessFormFieldType) :
    Except FormIssue (Option (List String)) :=
  if type ≠ .select then
    if value.isSome then .error ⟨"business_form_options_without_select", some ("field", key)⟩ else .ok none
  else
    match value with
    | some (.arr (item :: rest)) =>
      match (item :: rest).mapM optionText with
      | some options => .ok (some options)
      | none => .error ⟨"invalid_business_form_options", some ("field", key)⟩
    | _ => .error ⟨"invalid_business_form_options", some ("field", key)⟩

/-- The keys a field of a form may have. -/
def formFieldKeys : List String := ["key", "label", "type", "required", "options", "help_text"]

def parseRequired (key : String) : Option Json → Except FormIssue Bool
  | none => .ok false
  | some (.bool required) => .ok required
  | some _ => .error ⟨"invalid_business_form_required", some ("field", key)⟩

def parseHelpText (key : String) : Option Json → Except FormIssue (Option String)
  | none => .ok none
  | some (.str text) => .ok (some text)
  | some _ => .error ⟨"invalid_business_form_help_text", some ("field", key)⟩

/-- The keys of a field, which must be an object with no others. -/
def requireFieldKeys : Json → Except FormIssue Unit
  | .obj fields =>
    match (fields.map Prod.fst).find? (!formFieldKeys.contains ·) with
    | some key => .error ⟨"invalid_business_form_field_key", some ("field", key)⟩
    | none => .ok ()
  | _ => .error ⟨"invalid_business_form_field", none⟩

def parseKey (value : Json) (seen : List String) : Except FormIssue String := do
  let key ← stringProp value "key"
  if isFormKey key = false then .error ⟨"invalid_business_form_field_key", some ("field", key)⟩
  else if key ∈ seen then .error ⟨"duplicate_business_form_field", some ("field", key)⟩
  else .ok key

def parseType (value : Json) (key : String) : Except FormIssue BusinessFormFieldType := do
  let text ← stringProp value "type"
  match fieldTypes.lookup text with
  | some type => .ok type
  | none => .error ⟨"invalid_business_form_field_type", some ("field", key)⟩

def parseField (value : Json) (seen : List String) : Except FormIssue BusinessFormField := do
  requireFieldKeys value
  let key ← parseKey value seen
  let label ← stringProp value "label"
  let type ← parseType value key
  let required ← parseRequired key (value.field "required")
  let helpText ← parseHelpText key (value.field "help_text")
  let options ← parseOptions (value.field "options") key type
  pure { key, label, type, required, options, helpText }

/-- `value.fields.map((raw) => parseField(raw, seen))`. -/
def parseFields (seen : List String) : List Json → Except FormIssue (List BusinessFormField)
  | [] => .ok []
  | value :: rest => do
    let field ← parseField value seen
    let fields ← parseFields (field.key :: seen) rest
    pure (field :: fields)

/-- The fields of the form, and nothing for a schema that is not a form. -/
def parseBusinessFormSchema (schema : Option Json) : Except FormIssue (Option (List BusinessFormField)) :=
  match schema with
  | some (.obj fields) =>
    match (Json.obj fields).field "version" with
    | none => .ok none
    | some (.str "business_form_v1") =>
      match (Json.obj fields).field "fields" with
      | some (.arr (value :: rest)) => do
        let form ← parseFields [] (value :: rest)
        pure (some form)
      | _ => .error ⟨"invalid_business_form_fields", none⟩
    | some _ => .error ⟨"invalid_business_form_schema_version", none⟩
  | _ => .ok none

/-! ## Answers -/

/-- A value that counts as no answer. -/
def isEmptyAnswer : Json → Bool
  | .null => true
  | .str text => text = ""
  | _ => false

/-- The pattern `^\d{4}-\d{2}-\d{2}$`. -/
def isFormDate (text : String) : Bool :=
  ((do
    let (_, rest) ← Text.readDigits 4 text.toList
    let rest ← Text.readChar '-' rest
    let (_, rest) ← Text.readDigits 2 rest
    let rest ← Text.readChar '-' rest
    let (_, rest) ← Text.readDigits 2 rest
    some rest) : Option (List Char)) = some []

def isAnswerOf (parseDate : String → Option Rat) (field : BusinessFormField) (value : Json) : Bool :=
  match field.type, value with
  | .text, .str _ | .textarea, .str _ | .number, .num _ | .boolean, .bool _ => true
  | .date, .str text => isFormDate text && (parseDate (text ++ "T00:00:00Z")).isSome
  | .select, .str text => (field.options.getD []).contains text
  | _, _ => false

def validateFieldValue (parseDate : String → Option Rat) (field : BusinessFormField) (value : Json) :
    Except FormIssue Unit :=
  if isEmptyAnswer value then
    if field.required then .error ⟨"business_form_required_field_empty", some ("field", field.key)⟩ else .ok ()
  else if isAnswerOf parseDate field value then .ok ()
  else if field.type = .select then .error ⟨"business_form_select_value_invalid", some ("field", field.key)⟩
  else .error ⟨"business_form_value_type_mismatch", some ("field", field.key)⟩

/-- `HumanTaskResolution`, as `requireResolutionResult` returns it. -/
structure HumanTaskResolution where
  decision : String
  known : decision ∈ irelDecisionValues
  corrections : Option (List (String × Json))
  reason : Option String := none
  confidence : Option Rat := none
  notes : Option String := none

/-- What `storeHumanTaskResolution` writes. -/
def HumanTaskResolution.json (resolution : HumanTaskResolution) : Json :=
  .obj ([("decision", .str resolution.decision)] ++
    (resolution.corrections.map fun fields => ("corrections", .obj fields)).toList ++
    (resolution.reason.map fun text => ("reason", .str text)).toList ++
    (resolution.confidence.map fun value => ("confidence", .num value)).toList ++
    (resolution.notes.map fun text => ("notes", .str text)).toList)

/-- `fieldByKey.get(key)`; the keys of a form are distinct. -/
def fieldByKey (form : List BusinessFormField) (key : String) : Except FormIssue BusinessFormField :=
  match form.find? (·.key = key) with
  | some field => .ok field
  | none => .error ⟨"business_form_unknown_field", some ("field", key)⟩

/-- Every key of the answer, in turn. -/
def validateCorrections (parseDate : String → Option Rat) (form : List BusinessFormField)
    (corrections : List (String × Json)) : List String → Except FormIssue Unit
  | [] => .ok ()
  | key :: rest => do
    let field ← fieldByKey form key
    validateFieldValue parseDate field ((Json.lookup key corrections).getD .null)
    validateCorrections parseDate form corrections rest

/-- A corrected form has an answer for each of its required fields. -/
def requireAnswers (form : List BusinessFormField) (decision : String) (corrections : List (String × Json)) :
    Except FormIssue Unit :=
  if decision = "correct" then
    match form.find? fun field => field.required && (Json.lookup field.key corrections).isNone with
    | some field => .error ⟨"business_form_required_field_missing", some ("field", field.key)⟩
    | none => .ok ()
  else .ok ()

def validateResolutionAgainstBusinessForm (parseDate : String → Option Rat) (resultSchema : Option Json)
    (resolution : Option HumanTaskResolution) : Except FormIssue Unit := do
  let form ← parseBusinessFormSchema resultSchema
  match form, resolution with
  | some form, some resolution =>
    let corrections := resolution.corrections.getD []
    validateCorrections parseDate form corrections (corrections.map Prod.fst)
    requireAnswers form resolution.decision corrections
  | _, _ => .ok ()

/-! ## One form, two readings -/

/-- The type the static check gives to the answers of a field. -/
def BusinessFormFieldType.irelType : BusinessFormFieldType → List TypeAtom
  | .text | .textarea | .date | .select => [.string]
  | .number => [.number]
  | .boolean => [.boolean]

theorem lookupType_fieldTypes {text : String} {type : BusinessFormFieldType}
    (known : fieldTypes.lookup text = some type) :
    lookupType businessFormFieldType text = some (.atoms type.irelType) := by
  have listed := (lookup_of_mem_distinct (by decide)).mp known
  simp only [fieldTypes, List.mem_cons, Prod.mk.injEq, List.not_mem_nil, or_false] at listed
  rcases listed with ⟨rfl, rfl⟩ | ⟨rfl, rfl⟩ | ⟨rfl, rfl⟩ | ⟨rfl, rfl⟩ | ⟨rfl, rfl⟩ | ⟨rfl, rfl⟩ <;> rfl

theorem stringProp_eq_ok {field : Json} {prop text : String} (read : stringProp field prop = .ok text) :
    textOf field prop = some text := by
  unfold stringProp at read
  split at read
  · rename_i found
    cases read
    exact (Option.filter_eq_some_iff.mp found).1
  · cases read

theorem parseKey_eq_ok {value : Json} {seen : List String} {key : String}
    (read : parseKey value seen = .ok key) : textOf value "key" = some key ∧ key ∉ seen := by
  obtain ⟨text, isText, checked⟩ := bind_eq_ok.mp read
  split at checked
  · cases checked
  · split at checked
    · cases checked
    · rename_i fresh
      cases checked
      exact ⟨stringProp_eq_ok isText, fresh⟩

theorem parseType_eq_ok {value : Json} {key : String} {type : BusinessFormFieldType}
    (read : parseType value key = .ok type) :
    ∃ text, textOf value "type" = some text ∧
      lookupType businessFormFieldType text = some (.atoms type.irelType) := by
  obtain ⟨text, isText, checked⟩ := bind_eq_ok.mp read
  split at checked
  · rename_i known
    cases checked
    exact ⟨text, stringProp_eq_ok isText, lookupType_fieldTypes known⟩
  · cases checked

/-- A field of the form as the static check reads it. -/
theorem parseField_eq_ok {value : Json} {seen : List String} {field : BusinessFormField}
    (parsed : parseField value seen = .ok field) :
    textOf value "key" = some field.key ∧ field.key ∉ seen ∧
      ∃ text, textOf value "type" = some text ∧
        lookupType businessFormFieldType text = some (.atoms field.type.irelType) := by
  simp only [parseField, bind_eq_ok, pure, Except.pure, Except.ok.injEq] at parsed
  obtain ⟨-, -, key, isKey, label, -, type, isType, required, -, helpText, -, options, -, rfl⟩ := parsed
  obtain ⟨keyText, fresh⟩ := parseKey_eq_ok isKey
  exact ⟨keyText, fresh, parseType_eq_ok isType⟩

theorem parseFields_fresh {seen : List String} {values : List Json} {form : List BusinessFormField}
    (parsed : parseFields seen values = .ok form) : ∀ field ∈ form, field.key ∉ seen := by
  induction values generalizing seen form with
  | nil =>
    cases parsed
    simp
  | cons value rest ih =>
    simp only [parseFields, bind_eq_ok, pure, Except.pure, Except.ok.injEq] at parsed
    obtain ⟨first, isFirst, fields, later, rfl⟩ := parsed
    intro field member
    rcases List.mem_cons.mp member with rfl | among
    · exact (parseField_eq_ok isFirst).2.1
    · exact fun before => ih later field among (List.mem_cons_of_mem _ before)

/-- One field more in the types of the correction keys. -/
def addCorrectionField (fields : List (String × Ty)) (field : Json) : List (String × Ty) :=
  match textOf field "key", textOf field "type" with
  | some key, some type =>
    match lookupType businessFormFieldType type with
    | some irelType => setField key irelType fields
    | none => fields
  | _, _ => fields

theorem lookup_setField (key other : String) (type : Ty) (fields : List (String × Ty)) :
    (setField key type fields).lookup other = if other = key then some type else fields.lookup other := by
  unfold setField
  by_cases same : other = key
  · simp [same]
  · rw [List.lookup_cons, beq_false_of_ne same, if_neg same]
    rw [lookup_without, if_neg same]

/-- The static check gives every key of the form the type of its field. -/
theorem lookup_correctionFields {seen : List String} {values : List Json} {form : List BusinessFormField}
    (parsed : parseFields seen values = .ok form) (before : List (String × Ty)) (key : String) :
    (values.foldl addCorrectionField before).lookup key =
      ((form.find? (·.key = key)).map fun field => Ty.atoms field.type.irelType).or (before.lookup key) := by
  induction values generalizing seen form before with
  | nil =>
    cases parsed
    simp
  | cons value rest ih =>
    simp only [parseFields, bind_eq_ok, pure, Except.pure, Except.ok.injEq] at parsed
    obtain ⟨first, isFirst, fields, later, rfl⟩ := parsed
    obtain ⟨isKey, -, text, isType, known⟩ := parseField_eq_ok isFirst
    have added : addCorrectionField before value = setField first.key (.atoms first.type.irelType) before := by
      simp [addCorrectionField, isKey, isType, known]
    rw [List.foldl_cons, ih later, added, lookup_setField]
    by_cases same : first.key = key
    · have none : fields.find? (·.key = key) = none := by
        rw [List.find?_eq_none]
        intro field member isSame
        exact parseFields_fresh later field member (by simp_all)
      simp [same, none]
    · simp [same, Ne.symm same]

theorem correctionFieldsOf_eq {input : Json} {schema : List (String × Json)} {values : List Json}
    (isSchema : input.field "result_schema" = some (.obj schema))
    (version : (Json.obj schema).field "version" = some (.str "business_form_v1"))
    (isFields : (Json.obj schema).field "fields" = some (.arr values)) :
    correctionFieldsOf input = values.foldl addCorrectionField [] := by
  have text : textOf (.obj schema) "version" = some "business_form_v1" := by
    simp [textOf, version, Json.text?]
  simp only [correctionFieldsOf, isSchema, text, if_true, isFields, arrayOr, Option.bind_some, Json.items?,
    Option.getD_some]
  rfl

/-! ## Accepted answers -/

section Accepted

variable {parseDate : String → Option Rat} {form : List BusinessFormField}
  {corrections : List (String × Json)}

theorem validateCorrections_eq_ok {keys : List String}
    (valid : validateCorrections parseDate form corrections keys = .ok ()) :
    ∀ key ∈ keys, ∃ field, form.find? (·.key = key) = some field ∧
      validateFieldValue parseDate field ((Json.lookup key corrections).getD .null) = .ok () := by
  induction keys with
  | nil => simp
  | cons first rest ih =>
    simp only [validateCorrections, bind_eq_ok] at valid
    obtain ⟨field, found, _, checked, later⟩ := valid
    intro key member
    rcases List.mem_cons.mp member with rfl | among
    · unfold fieldByKey at found
      split at found
      · rename_i isField
        cases found
        exact ⟨field, isField, checked⟩
      · cases found
    · exact ih later key among

/-- An accepted answer is empty or a value of the type of its field. -/
theorem validateFieldValue_eq_ok {field : BusinessFormField} {value : Json}
    (valid : validateFieldValue parseDate field value = .ok ()) :
    isEmptyAnswer value = true ∨ ∃ answer, scalar? value = some answer ∧ HasType answer field.type.irelType := by
  unfold validateFieldValue at valid
  split at valid
  · exact .inl ‹_›
  · right
    split at valid
    · rename_i answers
      unfold isAnswerOf at answers
      split at answers
      all_goals first
        | exact ⟨_, rfl, by simp [BusinessFormFieldType.irelType, hasType_singleton, inhabits, numericAtom, *]⟩
        | cases answers
    · split at valid <;> cases valid

theorem parseBusinessFormSchema_eq_ok {schema : List (String × Json)} {form : Option (List BusinessFormField)}
    (version : (Json.obj schema).field "version" = some (.str "business_form_v1"))
    (parsed : parseBusinessFormSchema (some (.obj schema)) = .ok form) :
    ∃ values fields, (Json.obj schema).field "fields" = some (.arr values) ∧
      parseFields [] values = .ok fields ∧ form = some fields := by
  simp only [parseBusinessFormSchema, version] at parsed
  split at parsed
  · rename_i value rest isFields
    obtain ⟨fields, read, same⟩ := bind_eq_ok.mp parsed
    cases same
    exact ⟨value :: rest, fields, isFields, read, rfl⟩
  · cases parsed

/-- An accepted answer to a form: every answer is to a field of the form, and empty or of
the type the static check gives to the field. -/
theorem answers_of_accepted {input : Json} {schema : List (String × Json)} {resolution : HumanTaskResolution}
    (isSchema : input.field "result_schema" = some (.obj schema))
    (version : (Json.obj schema).field "version" = some (.str "business_form_v1"))
    (accepted : validateResolutionAgainstBusinessForm parseDate (some (.obj schema)) (some resolution) = .ok ())
    {key : String} {value : Json} (answered : Json.lookup key (resolution.corrections.getD []) = some value) :
    ∃ field : BusinessFormField, (correctionFieldsOf input).lookup key = some (.atoms field.type.irelType) ∧
      (isEmptyAnswer value = true ∨
        ∃ answer, scalar? value = some answer ∧ HasType answer field.type.irelType) := by
  obtain ⟨form, parsed, checked⟩ := bind_eq_ok.mp accepted
  obtain ⟨values, fields, isFields, read, rfl⟩ := parseBusinessFormSchema_eq_ok version parsed
  obtain ⟨_, valid, -⟩ := bind_eq_ok.mp checked
  obtain ⟨field, found, fits⟩ := validateCorrections_eq_ok valid key (List.mem_map_of_mem (Json.mem_of_lookup answered))
  rw [answered, Option.getD_some] at fits
  refine ⟨field, ?_, validateFieldValue_eq_ok fits⟩
  rw [correctionFieldsOf_eq isSchema version isFields, lookup_correctionFields read, found]
  rfl

end Accepted

/-! ## Stored answers -/

/-- The last task of a node that was resolved. -/
def lastResolved (nodeId : NodeId) (rows : List ResolvedTask) : Option ResolvedTask :=
  (rows.filter (·.nodeId = nodeId)).getLast?

/-- One resolved task more. -/
theorem loadResolved_concat (rows : List ResolvedTask) (row : ResolvedTask) :
    loadResolvedHumanTaskNodeOutputs (rows ++ [row]) =
      match humanTaskNodeOutput row.result with
      | some output => setOutput row.nodeId output (loadResolvedHumanTaskNodeOutputs rows)
      | none => (loadResolvedHumanTaskNodeOutputs rows).filter (·.1 ≠ row.nodeId) :=
  List.foldl_append

theorem lookup_loadResolved_concat (rows : List ResolvedTask) (row : ResolvedTask) {nodeId : NodeId}
    (own : nodeId ≠ "__proto__") :
    Json.lookup nodeId (loadResolvedHumanTaskNodeOutputs (rows ++ [row])) =
      if row.nodeId = nodeId then (humanTaskNodeOutput row.result).map Json.obj
      else Json.lookup nodeId (loadResolvedHumanTaskNodeOutputs rows) := by
  rw [loadResolved_concat]
  cases humanTaskNodeOutput row.result with
  | none =>
    rw [Json.lookup_eq, lookup_without, Json.lookup_eq]
    simp [eq_comm]
  | some output =>
    unfold setOutput
    by_cases proto : row.nodeId = "__proto__"
    · have apart : row.nodeId ≠ nodeId := fun same => own (same.symm.trans proto)
      dsimp only
      rw [if_pos proto, if_neg apart]
    · simp [proto, Json.lookup_assign, eq_comm]

/-- The answer of the last resolved task of a node is its output. -/
theorem lookup_loadResolved (rows : List ResolvedTask) {nodeId : NodeId} (own : nodeId ≠ "__proto__") :
    Json.lookup nodeId (loadResolvedHumanTaskNodeOutputs rows) =
      (lastResolved nodeId rows).bind fun row => (humanTaskNodeOutput row.result).map Json.obj := by
  -- the rows are read in order, so the induction is on the last one
  induction rows using List.reverseRecOn with
  | nil => rfl
  | append_singleton earlier row ih =>
    rw [lookup_loadResolved_concat earlier row own, ih]
    unfold lastResolved
    rw [List.filter_append]
    by_cases same : row.nodeId = nodeId
    · simp [same]
    · simp [same]

theorem humanTaskNodeOutput_json (resolution : HumanTaskResolution) :
    humanTaskNodeOutput (some resolution.json) =
      some ([("decision", .str resolution.decision)] ++
        (resolution.corrections.map fun fields => ("correction", Json.obj fields)).toList) := by
  obtain ⟨decision, known, corrections, reason, confidence, notes⟩ := resolution
  have decided : irelDecisionValues.contains decision = true := by simpa using known
  cases corrections <;> cases reason <;> cases confidence <;> cases notes <;>
    simp [humanTaskNodeOutput, HumanTaskResolution.json, textOf, Json.field, Json.fields, Json.record?,
      Json.lookup, Json.text?, Option.filter, known]

/-! ## What conditions see -/

/-- `node.<id>.correction.<key>` in a drive that starts with the resolved tasks. -/
def answerSeen (rows : List ResolvedTask) (nodeId key : String) : Evaluated IrelValue :=
  resolveRuntimeVariable ["node", nodeId, "correction", key]
    { node := some (.obj (loadResolvedHumanTaskNodeOutputs rows)) }

/-- Nothing is there, or a value of the type. -/
def FitsType (seen : Evaluated IrelValue) (list : List TypeAtom) : Prop :=
  (∃ label, seen = .error (.missing label)) ∨ ∃ value, seen = .ok value ∧ HasType value list

/-- Every correction key has the type that the static check has given to it. -/
def CorrectionsFit (input : Json) (rows : List ResolvedTask) (nodeId : NodeId) : Prop :=
  ∀ key type, (correctionFieldsOf input).lookup key = some type →
    ∃ list, type = .atoms list ∧ FitsType (answerSeen rows nodeId key) list

/-- No answer is `null`, and an empty text only answers fields whose answers are texts. -/
def NoBareAnswers (input : Json) (resolution : HumanTaskResolution) : Prop :=
  ∀ key value, Json.lookup key (resolution.corrections.getD []) = some value →
    value ≠ .null ∧ (value = .str "" → (correctionFieldsOf input).lookup key = some (.atoms [.string]))

theorem answerSeen_absent {rows : List ResolvedTask} {nodeId : NodeId}
    (absent : Json.lookup nodeId (loadResolvedHumanTaskNodeOutputs rows) = none) (key : String) :
    answerSeen rows nodeId key = .error (.missing s!"node.{nodeId}") := by
  simp [answerSeen, resolveRuntimeVariable, resolveNodePath, readRuntimePath, ownPath, absent, bind, Except.bind]

/-- The answer of the resolution, or nothing. -/
theorem answerSeen_resolved {rows : List ResolvedTask} {nodeId key : String} {resolution : HumanTaskResolution}
    (output : Json.lookup nodeId (loadResolvedHumanTaskNodeOutputs rows) =
      some (.obj ([("decision", .str resolution.decision)] ++
        (resolution.corrections.map fun fields => ("correction", Json.obj fields)).toList))) :
    answerSeen rows nodeId key =
      match Json.lookup key (resolution.corrections.getD []) with
      | none => .error (.missing (Text.join "." ["node", nodeId, "correction", key]))
      | some value => toRuntimeValue value (Text.join "." ["node", nodeId, "correction", key]) := by
  cases corrections : resolution.corrections with
  | none =>
    rw [corrections] at output
    simp [answerSeen, resolveRuntimeVariable, resolveNodePath, readScalar, readRuntimePath, ownPath, output,
      Json.lookup, bind, Except.bind]
  | some fields =>
    rw [corrections] at output
    simp only [answerSeen, resolveRuntimeVariable, resolveNodePath, readScalar, readRuntimePath, ownPath, output,
      List.head?_cons, List.drop_succ_cons, List.drop_zero, List.length_cons, List.length_nil, bind,
      Except.bind, Option.getD_some]
    cases found : Json.lookup key fields <;> simp [Json.lookup, found]

theorem lookup_loadResolved_proto (rows : List ResolvedTask) :
    Json.lookup "__proto__" (loadResolvedHumanTaskNodeOutputs rows) = none := by
  induction rows using List.reverseRecOn with
  | nil => rfl
  | append_singleton earlier row ih =>
    rw [loadResolved_concat]
    cases humanTaskNodeOutput row.result with
    | none =>
      rw [Json.lookup_eq, lookup_without, ← Json.lookup_eq]
      simp [ih]
    | some output =>
      dsimp only [setOutput]
      split
      · exact ih
      · rename_i own
        rw [Json.lookup_assign, if_neg (Ne.symm own), ih]

/-- The type of a correction key of a form is the type of a field. -/
theorem correctionField_type {parseDate : String → Option Rat} {input : Json} {schema : List (String × Json)}
    {resolution : HumanTaskResolution} (isSchema : input.field "result_schema" = some (.obj schema))
    (version : (Json.obj schema).field "version" = some (.str "business_form_v1"))
    (accepted : validateResolutionAgainstBusinessForm parseDate (some (.obj schema)) (some resolution) = .ok ())
    {key : String} {type : Ty} (declared : (correctionFieldsOf input).lookup key = some type) :
    ∃ fieldType : BusinessFormFieldType, type = .atoms fieldType.irelType := by
  obtain ⟨form, parsed, -⟩ := bind_eq_ok.mp accepted
  obtain ⟨values, fields, isFields, read, -⟩ := parseBusinessFormSchema_eq_ok version parsed
  rw [correctionFieldsOf_eq isSchema version isFields, lookup_correctionFields read] at declared
  cases found : fields.find? (·.key = key) with
  | none => simp [found] at declared
  | some field =>
    rw [found] at declared
    cases declared
    exact ⟨field.type, rfl⟩

theorem toRuntimeValue_scalar {value : Json} {answer : IrelValue} (scalar : scalar? value = some answer)
    (label : String) : toRuntimeValue value label = .ok answer := by
  cases value <;> cases scalar <;> rfl

theorem hasType_empty {fieldType : BusinessFormFieldType} (typed : HasType (.str "") fieldType.irelType) :
    fieldType.irelType = [.string] := by
  cases fieldType <;> simp_all [BusinessFormFieldType.irelType, hasType_singleton, inhabits]

theorem not_hasType_null (fieldType : BusinessFormFieldType) : ¬ HasType .null fieldType.irelType := by
  cases fieldType <;> simp [BusinessFormFieldType.irelType, hasType_singleton, inhabits]

/-- The answers to a form that a resumed drive sees have the types of its fields exactly
if the last resolution has no bare answer. -/
theorem corrections_fit_iff (parseDate : String → Option Rat) (input : Json) (schema : List (String × Json))
    (resolution : HumanTaskResolution) (nodeId : NodeId) (rows : List ResolvedTask)
    (isSchema : input.field "result_schema" = some (.obj schema))
    (version : (Json.obj schema).field "version" = some (.str "business_form_v1"))
    (accepted : validateResolutionAgainstBusinessForm parseDate (some (.obj schema)) (some resolution) = .ok ())
    (stored : lastResolved nodeId rows = some ⟨nodeId, some resolution.json⟩) :
    CorrectionsFit input rows nodeId ↔ nodeId = "__proto__" ∨ NoBareAnswers input resolution := by
  by_cases proto : nodeId = "__proto__"
  · subst proto
    refine iff_of_true (fun key type declared => ?_) (.inl rfl)
    obtain ⟨fieldType, rfl⟩ := correctionField_type isSchema version accepted declared
    exact ⟨_, rfl, .inl ⟨_, answerSeen_absent (lookup_loadResolved_proto rows) key⟩⟩
  · rw [or_iff_right proto]
    have output := lookup_loadResolved rows proto
    rw [stored, Option.bind_some, humanTaskNodeOutput_json, Option.map_some] at output
    constructor
    · intro fit key value answered
      obtain ⟨field, declared, -⟩ := answers_of_accepted isSchema version accepted answered
      obtain ⟨list, same, fits⟩ := fit key _ declared
      cases same
      rw [answerSeen_resolved output, answered] at fits
      refine ⟨?_, ?_⟩
      · rintro rfl
        rcases fits with ⟨label, missing⟩ | ⟨answer, seen, typed⟩
        · cases missing
        · cases seen
          exact not_hasType_null field.type typed
      · rintro rfl
        rcases fits with ⟨label, missing⟩ | ⟨answer, seen, typed⟩
        · cases missing
        · cases seen
          rw [declared, hasType_empty typed]
    · intro bare key type declared
      obtain ⟨fieldType, rfl⟩ := correctionField_type isSchema version accepted declared
      refine ⟨_, rfl, ?_⟩
      rw [answerSeen_resolved output]
      cases answered : Json.lookup key (resolution.corrections.getD []) with
      | none => exact .inl ⟨_, rfl⟩
      | some value =>
        obtain ⟨notNull, emptyText⟩ := bare key value answered
        obtain ⟨field, same, fits⟩ := answers_of_accepted isSchema version accepted answered
        rw [declared, Option.some.injEq, Ty.atoms.injEq] at same
        right
        rcases fits with empty | ⟨answer, scalar, typed⟩
        · cases value with
          | null => exact absurd rfl notNull
          | str text =>
            obtain rfl : text = "" := by simpa [isEmptyAnswer] using empty
            have isText := emptyText rfl
            rw [declared, Option.some.injEq, Ty.atoms.injEq] at isText
            exact ⟨.str "", rfl, by simp [isText, hasType_singleton, inhabits]⟩
          | bool flag | num number | arr items | obj fields => cases empty
        · exact ⟨answer, toRuntimeValue_scalar scalar _, same ▸ typed⟩

/-- A form with one optional number. -/
def amountForm : List (String × Json) :=
  [("version", .str "business_form_v1"),
    ("fields", .arr [.obj [("key", .str "amount"), ("label", .str "금액"), ("type", .str "number")]])]

def reviewInput : Json := .obj [("assignee_role", .str "reviewer"), ("result_schema", .obj amountForm)]

/-- The field is given back empty. -/
def clearedAmount : HumanTaskResolution where
  decision := "approve"
  known := by decide
  corrections := some [("amount", .str "")]

theorem corrections_fit_iff_cleared :
    validateResolutionAgainstBusinessForm (fun _ => none) (some (.obj amountForm)) (some clearedAmount) = .ok () ∧
      (CorrectionsFit reviewInput [⟨"review", some clearedAmount.json⟩] "review" ↔
        "review" = "__proto__" ∨ NoBareAnswers reviewInput clearedAmount) :=
  ⟨rfl, corrections_fit_iff (fun _ => none) reviewInput amountForm clearedAmount "review"
    [⟨"review", some clearedAmount.json⟩] rfl rfl rfl rfl⟩

/-- The empty answer is accepted, and a comparison of the number with another one fails on
resume. -/
theorem cleared_number_is_text :
    validateResolutionAgainstBusinessForm (fun _ => none) (some (.obj amountForm)) (some clearedAmount) = .ok () ∧
      (correctionFieldsOf reviewInput).lookup "amount" = some (.atoms [.number]) ∧
      answerSeen [⟨"review", some clearedAmount.json⟩] "review" "amount" = .ok (.str "") ∧
      evaluateIrelBooleanExpression (fun _ => none)
        { node := some (.obj (loadResolvedHumanTaskNodeOutputs [⟨"review", some clearedAmount.json⟩])) }
        (.compare .gt (.var ["node", "review", "correction", "amount"] false) (.literal .int (.num 100) false) false) =
          .error (.operand "> left operand" .number .string) := by
  refine ⟨rfl, rfl, rfl, rfl⟩

end RpaEnterprise.Interpreter
