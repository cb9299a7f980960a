import RpaEnterprise.Lib.Json
import RpaEnterprise.Lib.Text

/-!
# Actions and action plans of the DOM executor

The errors of the executor and the anchors that join the rows of an extract to
the page.  `parseActionPlan` reads what a model returned, or what a cache kept,
into a plan; a fill plan carries a literal value or the key of an asset whose
secret is to be typed.
-/

namespace RpaEnterprise.Executor

open Lib

inductive DomExecutorErrorCode where
  | irSchemaInvalid
  | runAborted
deriving Repr, DecidableEq

structure DomExecutorError where
  code : DomExecutorErrorCode
  message : String
deriving Repr, DecidableEq

def schemaInvalid (message : String) : DomExecutorError := ⟨.irSchemaInvalid, message⟩

/-! ## Actions -/

structure ExtractRowAnchor where
  selector : String
  textSelector : Option String
  matchField : String
  field : String
  attributeName : String
  pattern : String
  template : String
  requireFullCoverage : Option Bool
deriving Repr, DecidableEq

/-- A string field of a record. -/
def stringField (record : Json) (key : String) : Option String :=
  (record.field key).bind Json.text?

/-- A string field that is not empty. -/
def filledField (record : Json) (key : String) : Option String :=
  (stringField record key).filter (· ≠ "")

/-- `String(value)` of a type that is not a string. -/
def typeText : Json → String
  | .str text => text
  | .obj _ => "[object Object]"
  | .arr items => Text.join "," (items.map Json.stringify)
  | value => value.stringify

/-! ## Plans -/

inductive ActionPlan where
  | click (selector : String)
  | fill (selector : String) (value valueRef : Option String)
  | select (selector value : String)
deriving Repr, DecidableEq

/-- A character of an asset key in a placeholder. -/
def isKeyChar (char : Char) : Bool := char.isAlphanum || "._:-".toList.contains char

/-- `SECRET_PLACEHOLDER_RE`: the key in a value that is a secret placeholder. -/
def secretPlaceholder (value : String) : Option String :=
  let opening := "\x7b\x7bsecret:".toList
  let closing := "\x7d\x7d".toList
  let chars := value.toList
  if opening.isPrefixOf chars && closing.isSuffixOf chars then
    let key := (chars.drop opening.length).dropLast.dropLast
    if key ≠ [] ∧ key.all isKeyChar then some (String.ofList key) else none
  else none

def parseFill (selector : String) (value : Json) : ActionPlan :=
  match filledField value "valueRef" with
  | some valueRef => .fill selector none (some valueRef)
  | none =>
    match stringField value "value" with
    | some text =>
      match secretPlaceholder text with
      | some key => .fill selector none (some key)
      | none => .fill selector (some text) none
    | none => .fill selector none none

def parseActionPlan (value : Json) : Option ActionPlan := do
  let selector ← filledField value "selector"
  match value.field "operation" with
  | some (.str "click") => some (.click selector)
  | some (.str "select") => (stringField value "value").map (.select selector)
  | some (.str "fill") => some (parseFill selector value)
  | _ => none

end RpaEnterprise.Executor
