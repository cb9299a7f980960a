import Mathlib

/-!
# Texts

The string operations of the language the sources are written in, character by
character: `trim`, `join` and the replacements of runs of characters.
-/

namespace RpaEnterprise.Lib.Text

/-- What holds of the characters of a list is decided on the list, not on all characters. -/
instance (priority := 2000) decidableForallMem {chars : List Char} {holds : Char → Prop} [DecidablePred holds] :
    Decidable (∀ char, char ∈ chars → holds char) :=
  List.decidableBAll holds chars

/-- The characters `\s` matches and `trim` removes. -/
def isSpace (char : Char) : Bool :=
  char.isWhitespace || [11, 12, 160, 5760, 8232, 8233, 8239, 8287, 12288, 65279].contains char.toNat
    || (8192 ≤ char.toNat && char.toNat ≤ 8202)

def trimChars (chars : List Char) : List Char :=
  ((chars.dropWhile isSpace).reverse.dropWhile isSpace).reverse

def trim (text : String) : String := String.ofList (trimChars text.toList)

/-- `text.trim().length === 0`. -/
def blank (text : String) : Bool := text.toList.all isSpace

/-- `text.length`, which counts UTF-16 code units. -/
def utf16Length (text : String) : Nat :=
  (text.toList.map fun char => if char.toNat < 0x10000 then 1 else 2).sum

def join (separator : String) : List String → String
  | [] => ""
  | [text] => text
  | text :: rest => text ++ separator ++ join separator rest

/-- `text.replace(/\s+/g, " ").trim()`. -/
def collapseSpaces (text : String) : String :=
  let runs := text.toList.foldr (fun char rest =>
    if isSpace char then (if rest.head? = some ' ' then rest else ' ' :: rest)
    else char :: rest) []
  String.ofList (trimChars runs)

/-- `template.split(mark).join(value)`, with the characters of the mark given. -/
def substitute (mark value : List Char) : Nat → List Char → List Char
  | _, [] => []
  | 0, char :: rest => char :: rest
  | fuel + 1, char :: rest =>
    if mark.isPrefixOf (char :: rest) then
      value ++ substitute mark value fuel ((char :: rest).drop mark.length)
    else char :: substitute mark value fuel rest

/-! ## Fixed formats -/

/-- `\d{count}` at the start, with its value and what follows. -/
def readDigits (count : Nat) (chars : List Char) : Option (Nat × List Char) :=
  let digits := chars.take count
  if digits.length = count ∧ digits.all Char.isDigit then
    some (digits.foldl (fun value digit => 10 * value + (digit.toNat - '0'.toNat)) 0, chars.drop count)
  else none

def readChar (char : Char) : List Char → Option (List Char)
  | [] => none
  | first :: rest => if first = char then some rest else none

/-! ## Trimming and replacing -/

theorem trimChars_eq_rdropWhile (text : List Char) :
    trimChars text = (text.dropWhile isSpace).rdropWhile isSpace := rfl

theorem trimChars_eq_nil_iff {text : List Char} : trimChars text = [] ↔ ∀ char ∈ text, isSpace char = true := by
  rw [trimChars_eq_rdropWhile, List.rdropWhile_eq_nil_iff]
  constructor
  · intro spaced
    rw [← List.dropWhile_eq_nil_iff]
    cases rest : text.dropWhile isSpace with
    | nil => rfl
    | cons head tail =>
      have fixed := List.dropWhile_idempotent isSpace text
      rw [rest, List.dropWhile_cons_of_pos (spaced head (by simp [rest]))] at fixed
      have long := List.length_dropWhile_le isSpace tail
      rw [fixed, List.length_cons] at long
      omega
  · intro spaced char member
    exact spaced char ((List.dropWhile_suffix isSpace).subset member)

theorem blank_append (one two : String) : blank (one ++ two) = (blank one && blank two) := by
  rw [blank, String.toList_append, List.all_append, blank, blank]

theorem trim_ne_empty {text : String} (filled : blank text = false) : trim text ≠ "" := by
  intro empty
  have none : trimChars text.toList = [] := by
    have same := congrArg String.toList empty
    rwa [trim, String.toList_ofList] at same
  have spaced : blank text = true := List.all_eq_true.mpr (trimChars_eq_nil_iff.mp none)
  rw [spaced] at filled
  cases filled

end RpaEnterprise.Lib.Text
