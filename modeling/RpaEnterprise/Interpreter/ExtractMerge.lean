import RpaEnterprise.Interpreter.HumanTask
import RpaEnterprise.Lib.KeyOrder

/-!
# Merging extracted pages

The pages a drive extracts are merged into one list of records, without the records
whose key was seen before.  The key of a record is its first natural key, or all of it as
a text with sorted keys.
-/

namespace RpaEnterprise.Interpreter

open Lib

def defaultNaturalKeys : List String :=
  ["BBSCTT_ID", "bbscttId", "noticeId", "SEQ", "seq", "id", "ID", "no", "NO"]

def arrayContainerKeys : List String :=
  ["records", "rows", "items", "data", "list", "results", "result", "grid"]

/-- `findRecordArray`, with the levels that may still be searched. -/
def findRecordArray : Nat → Json → Option (List Json)
  | _, .arr items => some items
  | 0, _ => none
  | levels + 1, .obj fields =>
    let values := fields.map Prod.snd
    let inRecord (child : Json) : Option (List Json) :=
      match child with
      | .obj inner => findRecordArray levels (.obj inner)
      | _ => none
    let inContainer (key : String) : Option (List Json) :=
      match Json.lookup key fields with
      | some (.arr items) => some items
      | some child => inRecord child
      | none => none
    arrayContainerKeys.findSome? inContainer <|> values.findSome? Json.items? <|>
      values.findSome? inRecord <|> some (if fields.isEmpty then [] else [.obj fields])
  | _ + 1, _ => none

def recordsFromExtractOutput (output : Json) : List Json := (findRecordArray 4 output).getD []

def isNaturalKeyValue : Json → Bool
  | .str text => !Text.blank text
  | .num _ | .bool _ => true
  | _ => false

structure MergedExtractResult where
  records : List Json
  pageCount : Nat
  inputCount : Nat
  duplicateCount : Nat
  naturalKeys : List String

namespace ExtractDedupe

/-! ## Keys of records -/

/-- The platform: the order of strings by code units, and numbers as text. -/
structure Platform where
  codeUnits : Collation
  untied : ∀ one two, codeUnits.Tied one two → one = two
  numerals : Numerals

/-- Strings in the order of their characters, and numbers as fractions. -/
def plainPlatform : Platform := ⟨.characters, Collation.characters_ties, .fractions⟩

variable (platform : Platform) (naturalKeys : List String)

mutual

def normalizeForStableStringify : Json → Json
  | .arr items => .arr (normalizeItems items)
  | .obj fields =>
    .obj (((normalizeFields fields).insertionSort platform.codeUnits.Fields).foldl
      (fun out member => Json.setMember out member.1 member.2) [])
  | .null => .null
  | .bool value => .bool value
  | .num value => .num value
  | .str text => .str text

def normalizeItems : List Json → List Json
  | [] => []
  | item :: rest => normalizeForStableStringify item :: normalizeItems rest

def normalizeFields : List (String × Json) → List (String × Json)
  | [] => []
  | (key, value) :: rest => (key, normalizeForStableStringify value) :: normalizeFields rest

end

/-- `JSON.stringify` lists the members in the order of own keys. -/
def stableStringify (value : Json) : String :=
  String.ofList ((normalizeForStableStringify platform value).canonical ownKeys platform.numerals)

/-- `String(value)` of a value that is a natural key. -/
def stringOf : Json → String
  | .str text => text
  | .num value => String.ofList (platform.numerals.write value)
  | .bool true => "true"
  | _ => "false"

/-- The first field that identifies a record. -/
def identify (record : Json) : Option (String × Json) :=
  naturalKeys.findSome? fun naturalKey =>
    match record.field naturalKey with
    | some value => if isNaturalKeyValue value then some (naturalKey, value) else none
    | none => none

def naturalText (field : String × Json) : String := field.1 ++ ":" ++ stringOf platform field.2

def dedupeKey (record : Json) : String :=
  match identify naturalKeys record with
  | some field => naturalText platform field
  | none => "json:" ++ stableStringify platform record

/-! ## The merge -/

/-- The accumulators of the loop. -/
structure Merge where
  records : List Json
  seen : List String
  inputCount : Nat
  duplicateCount : Nat

def visit (merge : Merge) (record : Json) : Merge :=
  let inputCount := merge.inputCount + 1
  let key := dedupeKey platform naturalKeys record
  if key ∈ merge.seen then { merge with inputCount, duplicateCount := merge.duplicateCount + 1 }
  else { merge with inputCount, seen := key :: merge.seen, records := merge.records ++ [record] }

def visitPage (merge : Merge) (output : Json) : Merge :=
  (recordsFromExtractOutput output).foldl (visit platform naturalKeys) merge

def mergeExtractOutputs (outputs : List Json) (options : Option (List String)) : MergedExtractResult :=
  let naturalKeys := options.getD defaultNaturalKeys
  let merge := outputs.foldl (visitPage platform naturalKeys) ⟨[], [], 0, 0⟩
  { records := merge.records
    pageCount := outputs.length
    inputCount := merge.inputCount
    duplicateCount := merge.duplicateCount
    naturalKeys }

end ExtractDedupe

end RpaEnterprise.Interpreter
