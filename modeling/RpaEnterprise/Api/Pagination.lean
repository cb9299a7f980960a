import Mathlib.Data.List.Sort
import Mathlib.Data.Prod.Lex
import RpaEnterprise.Lib.Json

/-!
# Cursor pagination

`decodeCursor`, `encodeCursor` and `paginate` with the keyset query that all the list routes
share: rows below the cursor in the order of (created_at, id), newest first, one more
than the page holds.
-/

namespace RpaEnterprise.Api.Pagination

open Lib

/-- What the database and the language do with timestamps, ids and cursor texts. -/
structure Platform (Id Raw : Type) where
  /-- `created_at::text`, in microseconds, and `::timestamptz`. -/
  timeText : Int → String
  timeOf : String → Option Int
  timeOf_timeText : ∀ time, timeOf (timeText time) = some time
  timeText_ne : ∀ time, timeText time ≠ ""
  /-- `!Number.isNaN(Date.parse(text))`. -/
  isDate : String → Bool
  isDate_timeText : ∀ time, isDate (timeText time) = true
  /-- The text of an id, `::uuid` and `UUID_RE`. -/
  idText : Id → String
  idOf : String → Option Id
  idOf_idText : ∀ id, idOf (idText id) = some id
  isUuid : String → Bool
  isUuid_idText : ∀ id, isUuid (idText id) = true
  /-- `JSON.stringify` into base64url, and back. -/
  pack : Json → Raw
  unpack : Raw → Option Json
  unpack_pack : ∀ value, unpack (pack value) = some value
  isEmpty : Raw → Bool
  isEmpty_pack : ∀ value, isEmpty (pack value) = false

inductive ApiError where
  | invalidLimit
  | invalidCursor
  | cursorSourceNotText
deriving Repr, DecidableEq

/-! ## The parameters of a page -/

/-- A page holds at least one row. -/
abbrev Limit := { limit : Nat // 1 ≤ limit }

structure PageCursor where
  createdAt : String
  id : String
deriving Repr, DecidableEq

section Codec

variable {Id Raw : Type} (platform : Platform Id Raw)

def decodeCursor : Option Raw → Except ApiError (Option PageCursor)
  | none => .ok none
  | some raw =>
    if platform.isEmpty raw then .error .invalidCursor
    else
      match platform.unpack raw with
      | none => .error .invalidCursor
      | some parsed =>
        match parsed.field "c", parsed.field "i" with
        | some (.str createdAt), some (.str id) =>
          if platform.isUuid id && platform.isDate createdAt then .ok (some ⟨createdAt, id⟩)
          else .error .invalidCursor
        | _, _ => .error .invalidCursor

def encodeCursor (cursor : PageCursor) : Except ApiError Raw :=
  if cursor.createdAt = "" then .error .cursorSourceNotText
  else .ok (platform.pack (.obj [("c", .str cursor.createdAt), ("i", .str cursor.id)]))

end Codec

/-! ## Pages -/

structure Row (Id Data : Type) where
  createdAt : Int
  id : Id
  data : Data

structure Page (Item Raw : Type) where
  items : List Item
  nextCursor : Option Raw

section Pages

variable {Id Raw Data Item : Type} (platform : Platform Id Raw)

def cursorOf (row : Row Id Data) : PageCursor := ⟨platform.timeText row.createdAt, platform.idText row.id⟩

def paginate (limit : Nat) (map : Row Id Data → Item) (rows : List (Row Id Data)) :
    Except ApiError (Page Item Raw) :=
  let hasMore := limit < rows.length
  let pageRows := if hasMore then rows.take limit else rows
  match (if hasMore then pageRows.getLast? else none) with
  | none => .ok ⟨pageRows.map map, none⟩
  | some last => do
    let raw ← encodeCursor platform (cursorOf platform last)
    pure ⟨pageRows.map map, some raw⟩

end Pages

/-! ## The keyset query -/

section Query

variable {Id Raw Data Item : Type} [LinearOrder Id] (platform : Platform Id Raw)

def Row.key (row : Row Id Data) : Int ×ₗ Id := toLex (row.createdAt, row.id)

/-- `(created_at, id) < (cursor)`; a cast that fails is an error of the database and selects nothing. -/
def isBelow (cursor : Option PageCursor) (row : Row Id Data) : Bool :=
  match cursor with
  | none => true
  | some cursor =>
    match platform.timeOf cursor.createdAt, platform.idOf cursor.id with
    | some time, some id => decide (row.key < toLex (time, id))
    | _, _ => false

/-- The rows of the table, newest first. -/
def ordered (table : List (Row Id Data)) : List (Row Id Data) :=
  table.insertionSort fun one two => two.key ≤ one.key

def select (table : List (Row Id Data)) (cursor : Option PageCursor) (count : Nat) : List (Row Id Data) :=
  ((ordered table).filter (isBelow platform cursor)).take count

/-- A request of a list route. -/
def listPage (table : List (Row Id Data)) (map : Row Id Data → Item) (limit : Limit) (raw : Option Raw) :
    Except ApiError (Page Item Raw) := do
  let cursor ← decodeCursor platform raw
  paginate platform limit.1 map (select platform table cursor (limit.1 + 1))

/-- Requests that follow the cursors until there is none, at most as many as the fuel. -/
def walk (table : List (Row Id Data)) (map : Row Id Data → Item) (limit : Limit) :
    Nat → Option Raw → Option (List (List Item))
  | 0, _ => none
  | fuel + 1, raw =>
    match listPage platform table map limit raw with
    | .error _ => none
    | .ok ⟨items, none⟩ => some [items]
    | .ok ⟨items, some next⟩ => (walk table map limit fuel (some next)).map (items :: ·)

end Query

/-! ## One request -/

section Request

variable {Id Raw Data Item : Type} [LinearOrder Id] (platform : Platform Id Raw)

/-- The cursor of a row. -/
def rawOf (row : Row Id Data) : Raw :=
  platform.pack (.obj [("c", .str (platform.timeText row.createdAt)), ("i", .str (platform.idText row.id))])

omit [LinearOrder Id] in
theorem encodeCursor_cursorOf (row : Row Id Data) :
    encodeCursor platform (cursorOf platform row) = .ok (rawOf platform row) := by
  have text : (cursorOf platform row).createdAt ≠ "" := platform.timeText_ne row.createdAt
  rw [encodeCursor, if_neg text]
  rfl

omit [LinearOrder Id] in
theorem decodeCursor_rawOf (row : Row Id Data) :
    decodeCursor platform (some (rawOf platform row)) = .ok (some (cursorOf platform row)) := by
  simp [decodeCursor, rawOf, cursorOf, platform.isEmpty_pack, platform.unpack_pack, Json.field, Json.fields,
    Json.record?, Json.lookup, platform.isUuid_idText, platform.isDate_timeText]

theorem isBelow_cursorOf (last row : Row Id Data) :
    isBelow platform (some (cursorOf platform last)) row = decide (row.key < last.key) := by
  simp only [isBelow, cursorOf, platform.timeOf_timeText, platform.idOf_idText]
  rfl

omit [LinearOrder Id] in
theorem paginate_last {limit : Nat} (map : Row Id Data → Item) {rows : List (Row Id Data)}
    (fits : rows.length ≤ limit) : paginate platform limit map rows = .ok ⟨rows.map map, none⟩ := by
  simp [paginate, Nat.not_lt.mpr fits]

omit [LinearOrder Id] in
theorem paginate_more {limit : Nat} (map : Row Id Data → Item) {early rest : List (Row Id Data)}
    {last : Row Id Data} (size : (early ++ [last]).length = limit) (more : rest ≠ []) :
    paginate platform limit map (early ++ [last] ++ rest) =
      .ok ⟨(early ++ [last]).map map, some (rawOf platform last)⟩ := by
  have long : limit < (early ++ [last] ++ rest).length := by
    have := List.length_pos_of_ne_nil more
    rw [List.length_append, size]
    omega
  have page : (early ++ [last] ++ rest).take limit = early ++ [last] := by rw [← size, List.take_left]
  simp only [paginate, long, if_true, page, List.getLast?_concat, encodeCursor_cursorOf]
  rfl

variable {table : List (Row Id Data)} (distinct : (table.map Row.id).Nodup)

include distinct

theorem ordered_strict : (ordered table).Pairwise fun one two => two.key < one.key := by
  have sorted : (ordered table).Pairwise fun one two => two.key ≤ one.key := List.pairwise_insertionSort _ _
  have ids : ((ordered table).map Row.id).Nodup :=
    ((List.perm_insertionSort _ table).map Row.id).nodup_iff.mpr distinct
  refine (sorted.and (List.pairwise_map.mp ids)).imp fun ⟨below, other⟩ => lt_of_le_of_ne below fun same => ?_
  exact other (congrArg (fun key => (ofLex key).2) same).symm

/-- The rows below the last row of a beginning are the rows after it. -/
theorem filter_below {early rest : List (Row Id Data)} {last : Row Id Data}
    (split : ordered table = early ++ [last] ++ rest) :
    (ordered table).filter (isBelow platform (some (cursorOf platform last))) = rest := by
  have strict := ordered_strict distinct
  rw [split] at strict ⊢
  obtain ⟨upTo, after, across⟩ := List.pairwise_append.mp strict
  have above : ∀ row ∈ early ++ [last], ¬row.key < last.key := by
    intro row member
    rcases List.mem_append.mp member with before | self
    · exact lt_asymm ((List.pairwise_append.mp upTo).2.2 row before last (List.mem_singleton_self last))
    · rw [List.mem_singleton.mp self]
      exact lt_irrefl last.key
  have below : ∀ row ∈ rest, row.key < last.key := fun row member =>
    across last (List.mem_append_right early (List.mem_singleton_self last)) row member
  rw [List.filter_append, List.filter_eq_nil_iff.mpr, List.filter_eq_self.mpr, List.nil_append]
  · exact fun row member => by simpa [isBelow_cursorOf] using below row member
  · exact fun row member => by simpa [isBelow_cursorOf] using above row member

end Request

/-! ## The walk -/

/-- The ceiling of rows over page size, and one page without rows. -/
def pageCount (limit count : Nat) : Nat := if count = 0 then 1 else (count + limit - 1) / limit

theorem pageCount_last {limit count : Nat} (positive : 1 ≤ limit) (fits : count ≤ limit) :
    pageCount limit count = 1 := by
  rw [pageCount]
  split
  · rfl
  · exact Nat.div_eq_of_lt_le (by omega) (by omega)

theorem pageCount_more {limit count : Nat} (positive : 1 ≤ limit) (more : 0 < count) :
    pageCount limit (limit + count) = 1 + pageCount limit count := by
  rw [pageCount, pageCount, if_neg (by omega), if_neg (by omega),
    show limit + count + limit - 1 = (count + limit - 1) + limit by omega, Nat.add_div_right _ positive, Nat.add_comm]

/-- More rows than a page holds: a full page with its last row, and a row after it. -/
theorem exists_page {α : Type} {limit : Nat} (positive : 1 ≤ limit) {rows : List α} (long : limit < rows.length) :
    ∃ early last next later, rows = early ++ [last] ++ next :: later ∧ (early ++ [last]).length = limit := by
  have size : (rows.take limit).length = limit := by
    rw [List.length_take]
    omega
  have more : rows.drop limit ≠ [] := by
    rw [Ne, List.drop_eq_nil_iff]
    omega
  obtain none | ⟨early, last, page⟩ := List.eq_nil_or_concat' (rows.take limit)
  · rw [none, List.length_nil] at size
    omega
  · obtain ⟨next, later, rest⟩ := List.exists_cons_of_ne_nil more
    refine ⟨early, last, next, later, ?_, page ▸ size⟩
    rw [← page, ← rest, List.take_append_drop]

section Walk

variable {Id Raw Data Item : Type} [LinearOrder Id] (platform : Platform Id Raw)
variable {table : List (Row Id Data)} (distinct : (table.map Row.id).Nodup)
variable (map : Row Id Data → Item) (limit : Limit)

/-- A request with this cursor reads on at these rows. -/
def StandsAt (table : List (Row Id Data)) (raw : Option Raw) (rest : List (Row Id Data)) : Prop :=
  (∃ early, ordered table = early ++ rest) ∧
    ∃ cursor, decodeCursor platform raw = .ok cursor ∧ (ordered table).filter (isBelow platform cursor) = rest

theorem listPage_eq {raw : Option Raw} {rest : List (Row Id Data)} (stands : StandsAt platform table raw rest) :
    listPage platform table map limit raw = paginate platform limit.1 map (rest.take (limit.1 + 1)) := by
  obtain ⟨-, cursor, decoded, below⟩ := stands
  have selected : select platform table cursor (limit.1 + 1) = rest.take (limit.1 + 1) := by rw [select, below]
  rw [listPage, decoded, ← selected]
  rfl

include distinct in
/-- From any place in the order, the rest of the rows comes once and in order. -/
theorem walk_from (fuel : Nat) {raw : Option Raw} {rest : List (Row Id Data)} (enough : rest.length < fuel)
    (stands : StandsAt platform table raw rest) :
    ∃ pages, walk platform table map limit fuel raw = some pages ∧ pages.flatten = rest.map map ∧
      pages.length = pageCount limit.1 rest.length := by
  induction fuel generalizing raw rest with
  | zero => exact absurd enough (Nat.not_lt_zero _)
  | succ fuel ih =>
    rw [walk, listPage_eq platform map limit stands]
    by_cases fits : rest.length ≤ limit.1
    · rw [List.take_of_length_le (by omega), paginate_last platform map fits]
      exact ⟨[rest.map map], rfl, by simp, (pageCount_last limit.2 fits).symm⟩
    · -- The page ends with a row, and the next request reads on behind that row.
      obtain ⟨early, last, next, later, rfl, size⟩ := exists_page limit.2 (Nat.lt_of_not_le fits)
      have window : (early ++ [last] ++ next :: later).take (limit.1 + 1) = early ++ [last] ++ [next] := by
        rw [← size, List.take_length_add_append]
        rfl
      rw [window, paginate_more platform map size (List.cons_ne_nil next [])]
      obtain ⟨before, split⟩ := stands.1
      have split : ordered table = before ++ early ++ [last] ++ next :: later := by
        rw [split, List.append_assoc, List.append_assoc, List.append_assoc]
      have onward : StandsAt platform table (some (rawOf platform last)) (next :: later) :=
        ⟨⟨_, split⟩, _, decodeCursor_rawOf platform last, filter_below platform distinct split⟩
      obtain ⟨pages, walked, flat, count⟩ := ih (by simp at enough ⊢; omega) onward
      refine ⟨(early ++ [last]).map map :: pages, by simp only [walked, Option.map_some], by simp [flat], ?_⟩
      rw [List.length_cons, count, List.length_append, size, pageCount_more limit.2 (by simp), Nat.add_comm]

/-- Following the cursors from the start visits every row once, newest first, in as many pages as
the rows need. -/
theorem walk_complete (distinct : (table.map Row.id).Nodup) {fuel : Nat} (enough : table.length < fuel) :
    (ordered table).Perm table ∧ ((ordered table).Pairwise fun one two => two.key < one.key) ∧
    ∃ pages, walk platform table map limit fuel none = some pages ∧ pages.flatten = (ordered table).map map ∧
      pages.length = pageCount limit.1 table.length := by
  have same : (ordered table).Perm table := List.perm_insertionSort _ table
  have whole : (ordered table).filter (isBelow platform none) = ordered table :=
    List.filter_eq_self.mpr fun _ _ => rfl
  have start : StandsAt platform table none (ordered table) := ⟨⟨[], rfl⟩, none, rfl, whole⟩
  have walked := walk_from platform distinct map limit fuel (same.length_eq.symm ▸ enough) start
  rw [same.length_eq] at walked
  exact ⟨same, ordered_strict distinct, walked⟩

end Walk

/-! ## A table -/

def unaryTime (text : String) : Option Int :=
  match text.toList with
  | 'p' :: rest => if rest.all (· = 'x') then some (.ofNat rest.length) else none
  | 'm' :: rest => if rest.all (· = 'x') then some (.negSucc rest.length) else none
  | _ => none

/-- Timestamps and ids written in unary; a packed value stands in an array of its own. -/
def unaryPlatform : Platform Nat Json where
  timeText
    | .ofNat count => String.ofList ('p' :: List.replicate count 'x')
    | .negSucc count => String.ofList ('m' :: List.replicate count 'x')
  timeOf := unaryTime
  timeOf_timeText time := by cases time <;> simp [unaryTime]
  timeText_ne time := by
    cases time <;> exact fun empty => by simpa using congrArg String.toList empty
  isDate text := (unaryTime text).isSome
  isDate_timeText time := by cases time <;> simp [unaryTime]
  idText id := String.ofList (List.replicate id 'x')
  idOf text := if text.toList.all (· = 'x') then some text.toList.length else none
  idOf_idText id := by simp
  isUuid text := text.toList.all (· = 'x')
  isUuid_idText id := by simp
  pack value := .arr [value]
  unpack
    | .arr [value] => some value
    | _ => none
  unpack_pack _ := rfl
  isEmpty raw := raw = .str ""
  isEmpty_pack _ := by simp

/-- Three rows, two of them of one microsecond. -/
def threeRows : List (Row Nat String) := [⟨7, 1, "a"⟩, ⟨9, 3, "b"⟩, ⟨7, 2, "c"⟩]

theorem walk_complete_threeRows :
    ∃ pages, walk unaryPlatform threeRows Row.data ⟨2, by decide⟩ 4 none = some pages ∧
      pages.flatten = ["b", "c", "a"] ∧ pages.length = 2 := by
  obtain ⟨-, -, pages, walked, flat, count⟩ :=
    walk_complete unaryPlatform Row.data ⟨2, by decide⟩ (by decide : (threeRows.map Row.id).Nodup)
      (by decide : threeRows.length < 4)
  exact ⟨pages, walked, flat.trans (by decide), count.trans (by decide)⟩

end RpaEnterprise.Api.Pagination
