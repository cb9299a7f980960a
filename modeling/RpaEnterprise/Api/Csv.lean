import RpaEnterprise.Lib.Rfc4180

/-!
# Rows of a CSV export

`csvCell` and `csvRow`, read back by the reader of RFC 4180.  What `String(value)` makes
of a number is a parameter.
-/

namespace RpaEnterprise.Api.Csv

open Lib

inductive CellValue (Number : Type) where
  | text (text : String)
  | number (value : Number)
  | bool (value : Bool)
  | null
  | undefined

/-- The class of `/^[=+\-@\t\r]/`: what a spreadsheet may take for the start of a formula. -/
def formulaStarts : List Char := ['=', '+', '-', '@', '\t', '\r']

def guardSpreadsheetFormula : List Char → List Char
  | [] => []
  | first :: rest => if first ∈ formulaStarts then '\'' :: first :: rest else first :: rest

def csvCell (value : List Char) : List Char := Rfc4180.quote (guardSpreadsheetFormula value)

variable {Number : Type} (numberText : Number → String)

def textOf : CellValue Number → List Char
  | .text text => text.toList
  | .number value => (numberText value).toList
  | .bool true => "true".toList
  | .bool false => "false".toList
  | .null | .undefined => []

/-- `join(",")` of the cells. -/
def csvRow : List (CellValue Number) → List Char
  | [] => []
  | [value] => csvCell (textOf numberText value)
  | value :: rest => csvCell (textOf numberText value) ++ ',' :: csvRow rest

def guardedText (value : CellValue Number) : List Char := guardSpreadsheetFormula (textOf numberText value)

theorem csvRow_eq_record (values : List (CellValue Number)) :
    csvRow numberText values = Rfc4180.record (values.map (guardedText numberText)) := by
  induction values with
  | nil => rfl
  | cons value rest ih =>
    cases rest with
    | nil => rfl
    | cons next rest =>
      rw [csvRow, ih]
      · rfl
      · exact List.cons_ne_nil next rest

theorem guardSpreadsheetFormula_safe {value : List Char} {first : Char}
    (starts : (guardSpreadsheetFormula value).head? = some first) : first ∉ formulaStarts := by
  cases value with
  | nil => cases starts
  | cons char rest =>
    rw [guardSpreadsheetFormula] at starts
    split at starts
    next =>
      cases starts
      decide
    next harmless =>
      cases starts
      exact harmless

/-- A row with a cell is read back as its guarded texts; the row of no cells is read as one empty
cell.  No cell read starts like a formula. -/
theorem parse_csvRow (values : List (CellValue Number)) :
    Rfc4180.parse (csvRow numberText values) =
      some (if values.isEmpty then [[]] else values.map (guardedText numberText)) ∧
    ∀ cells, Rfc4180.parse (csvRow numberText values) = some cells →
      ∀ cell ∈ cells, ∀ first, cell.head? = some first → first ∉ formulaStarts := by
  cases values with
  | nil =>
    refine ⟨rfl, fun cells read cell member first starts => ?_⟩
    cases read
    cases List.mem_singleton.mp member
    cases starts
  | cons value rest =>
    have read : Rfc4180.parse (csvRow numberText (value :: rest)) =
        some ((value :: rest).map (guardedText numberText)) := by
      rw [csvRow_eq_record, List.map_cons, Rfc4180.parse_record]
    refine ⟨read, fun cells same cell member first starts => ?_⟩
    cases read.symm.trans same
    obtain ⟨source, -, rfl⟩ := List.mem_map.mp member
    exact guardSpreadsheetFormula_safe starts

/-- The row of no cells comes back with a cell. -/
theorem no_cells_read_as_one :
    Rfc4180.parse (csvRow (fun text : String => text) []) ≠
      some (([] : List (CellValue String)).map (guardedText fun text => text)) := by
  decide

end RpaEnterprise.Api.Csv
