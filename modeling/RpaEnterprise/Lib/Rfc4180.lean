import Mathlib.Data.List.Basic

/-!
# Records of comma-separated values

A reader for one record of RFC 4180: fields between commas, a field in quotes may hold
any character with its quotes doubled, a field without quotes holds no quote and no
line break.
-/

namespace RpaEnterprise.Lib.Rfc4180

inductive Mode where
  | start
  | plain
  | quoted
  /-- After a quote inside a quoted field: its end, or the first of two. -/
  | closed
deriving Repr, DecidableEq

/-- The fields of a record, with what is read of the current field given. -/
def read : Mode → List Char → List Char → Option (List (List Char))
  | .quoted, _, [] => none
  | _, field, [] => some [field]
  | .start, field, char :: rest =>
    if char = '"' then read .quoted field rest
    else if char = ',' then (read .start [] rest).map (field :: ·)
    else if char = '\r' ∨ char = '\n' then none
    else read .plain (field ++ [char]) rest
  | .plain, field, char :: rest =>
    if char = ',' then (read .start [] rest).map (field :: ·)
    else if char = '"' ∨ char = '\r' ∨ char = '\n' then none
    else read .plain (field ++ [char]) rest
  | .quoted, field, char :: rest =>
    if char = '"' then read .closed field rest else read .quoted (field ++ [char]) rest
  | .closed, field, char :: rest =>
    if char = '"' then read .quoted (field ++ ['"']) rest
    else if char = ',' then (read .start [] rest).map (field :: ·)
    else none

def parse (record : List Char) : Option (List (List Char)) := read .start [] record

/-- A text with its quotes doubled. -/
def double : List Char → List Char
  | [] => []
  | char :: rest => if char = '"' then '"' :: '"' :: double rest else char :: double rest

def quote (text : List Char) : List Char := '"' :: double text ++ ['"']

/-- Fields in quotes, with commas between them. -/
def record : List (List Char) → List Char
  | [] => []
  | [text] => quote text
  | text :: rest => quote text ++ ',' :: record rest

theorem read_double (text field tail : List Char) :
    read .quoted field (double text ++ tail) = read .quoted (field ++ text) tail := by
  induction text generalizing field with
  | nil => rw [double, List.nil_append, List.append_nil]
  | cons char rest ih =>
    by_cases isQuote : char = '"'
    · subst isQuote
      simp only [double, read, List.cons_append, if_true, ih, List.append_assoc, List.nil_append]
    · simp only [double, read, List.cons_append, if_neg isQuote, ih, List.append_assoc, List.nil_append]

theorem read_quote (text tail : List Char) : read .start [] (quote text ++ tail) = read .closed text tail := by
  rw [quote, List.append_assoc, List.cons_append, read, if_pos rfl, read_double, List.nil_append]
  rfl

/-- Fields written in quotes are read back. -/
theorem parse_record (text : List Char) (rest : List (List Char)) :
    parse (record (text :: rest)) = some (text :: rest) := by
  rw [parse]
  induction rest generalizing text with
  | nil =>
    have alone := read_quote text []
    rw [List.append_nil] at alone
    exact alone
  | cons next rest ih =>
    rw [record, read_quote, read, if_neg (by decide), if_pos rfl, ih next]
    · rfl
    · exact List.cons_ne_nil next rest

end RpaEnterprise.Lib.Rfc4180
