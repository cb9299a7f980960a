import RpaEnterprise.Interpreter.ExtractMerge

/-!
# Which array the records are read from

`findRecordArray` follows, in every object, one child: the first recognised
container that is an array or an object, else the first array, else the first
object.  Where that child is an object that leads to no array, the object is
wrapped, also if another container holds an array.
-/

namespace RpaEnterprise.Interpreter

open Lib

/-- Where the records come from: an array of the output, an object taken as the
only record, or an empty object. -/
inductive Found where
  | occurring (items : List Json)
  | wrapped (fields : List (String × Json))
  | nothing

def Found.items : Found → List Json
  | .occurring items => items
  | .wrapped fields => [.obj fields]
  | .nothing => []

def isArray : Json → Bool
  | .arr _ => true
  | _ => false

/-- `findRecordArray`, with where its result comes from. -/
def discover : Nat → Json → Option Found
  | _, .arr items => some (.occurring items)
  | 0, _ => none
  | levels + 1, .obj fields =>
    let values := fields.map Prod.snd
    let inRecord (child : Json) : Option Found :=
      match child with
      | .obj inner => discover levels (.obj inner)
      | _ => none
    let inContainer (key : String) : Option Found :=
      match Json.lookup key fields with
      | some (.arr items) => some (.occurring items)
      | some child => inRecord child
      | none => none
    arrayContainerKeys.findSome? inContainer <|>
      values.findSome? (fun child => child.items?.map .occurring) <|>
        values.findSome? inRecord <|> some (if fields.isEmpty then .nothing else .wrapped fields)
  | _ + 1, _ => none

/-- The array returned is that of the discovery. -/
theorem discover_items (levels : Nat) (value : Json) :
    (discover levels value).map Found.items = findRecordArray levels value := by
  induction levels generalizing value with
  | zero => cases value <;> rfl
  | succ levels ih =>
    cases value with
    | obj fields =>
      rw [discover, findRecordArray]
      simp only [Option.orElse_eq_orElse, Option.orElse_eq_or, Option.map_or, List.map_findSome?]
      congr 1
      · refine congrArg (arrayContainerKeys.findSome? ·) (funext fun key => ?_)
        rw [Function.comp_apply]
        cases Json.lookup key fields with
        | none => rfl
        | some child => cases child <;> first | rfl | exact ih _
      · congr 1
        · refine congrArg ((fields.map Prod.snd).findSome? ·) (funext fun child => ?_)
          cases child <;> rfl
        · congr 1
          · refine congrArg ((fields.map Prod.snd).findSome? ·) (funext fun child => ?_)
            cases child <;> first | rfl | exact ih _
          · cases fields <;> rfl
    | _ => rfl

/-! ## The child that is followed -/

/-- The children in the order in which they are looked at. -/
def candidates (fields : List (String × Json)) : List Json :=
  arrayContainerKeys.filterMap (Json.lookup · fields) ++
    ((fields.map Prod.snd).filter isArray ++ fields.map Prod.snd)

/-- What a search of so many levels looks into. -/
def Searched : Nat → Json → Bool
  | 0 => isArray
  | _ + 1 => Json.isObject

/-- Following the first child that is looked into, one arrives at an array. -/
inductive LeadsToArray : Nat → Json → Prop
  | array {levels : Nat} (items : List Json) : LeadsToArray levels (.arr items)
  | object {levels : Nat} {fields : List (String × Json)} {child : Json}
      (first : (candidates fields).find? (Searched levels) = some child)
      (leads : LeadsToArray levels child) : LeadsToArray (levels + 1) (.obj fields)

theorem isSome_discover (levels : Nat) (value : Json) :
    (discover levels value).isSome = Searched levels value := by
  cases levels with
  | zero => cases value <;> rfl
  | succ levels =>
    cases value with
    | obj fields =>
      rw [discover]
      simp [Searched, Json.isObject]
    | _ => rfl

theorem findSome?_eq_find?_bind {One Two : Type} {f : One → Option Two} {p : One → Bool}
    (decides : ∀ one, (f one).isSome = p one) (entries : List One) :
    entries.findSome? f = (entries.find? p).bind f := by
  induction entries with
  | nil => rfl
  | cons entry rest ih =>
    rw [List.findSome?_cons, List.find?_cons, ← decides]
    cases result : f entry with
    | none => exact ih
    | some two => exact result.symm

theorem findSome?_arrays (levels : Nat) (values : List Json) :
    (values.filter isArray).findSome? (discover levels) =
      values.findSome? fun child => child.items?.map .occurring := by
  induction values with
  | nil => rfl
  | cons value rest ih =>
    cases value with
    | arr items => cases levels <;> rfl
    | _ => exact ih

/-- Where no value is an array, the search looks into the objects only. -/
theorem findSome?_records {levels : Nat} {values : List Json}
    (none : (values.filter isArray).findSome? (discover levels) = none) :
    values.findSome? (discover levels) =
      values.findSome? fun child => match child with
        | .obj inner => discover levels (.obj inner)
        | _ => Option.none := by
  induction values with
  | nil => rfl
  | cons value rest ih =>
    cases value with
    | arr items => cases levels <;> cases none
    | obj inner =>
      rw [List.findSome?_cons, List.findSome?_cons, ih none]
    | _ => cases levels <;> exact ih none

/-- The first candidate that is looked into decides. -/
theorem discover_obj (levels : Nat) (fields : List (String × Json)) :
    discover (levels + 1) (.obj fields) =
      (((candidates fields).find? (Searched levels)).bind (discover levels) <|>
        some (if fields.isEmpty then .nothing else .wrapped fields)) := by
  have looked : (arrayContainerKeys.filterMap (Json.lookup · fields)).findSome? (discover levels) =
      arrayContainerKeys.findSome? fun key => (Json.lookup key fields).bind (discover levels) := by
    rw [← List.head?_filterMap, List.filterMap_filterMap, List.head?_filterMap]
  rw [← findSome?_eq_find?_bind (isSome_discover levels), discover, candidates, List.findSome?_append,
    List.findSome?_append, looked]
  have containers : (fun key => match Json.lookup key fields with
      | some (.arr items) => some (Found.occurring items)
      | some child =>
        (fun child => match child with
          | .obj inner => discover levels (.obj inner)
          | _ => none) child
      | none => none) = fun key => (Json.lookup key fields).bind (discover levels) := by
    funext key
    cases Json.lookup key fields with
    | none => rfl
    | some child => cases child <;> cases levels <;> rfl
  dsimp only
  rw [containers]
  cases arrayContainerKeys.findSome? fun key => (Json.lookup key fields).bind (discover levels) with
  | some found => rfl
  | none =>
    have arrays := findSome?_arrays levels (fields.map Prod.snd)
    cases first : (fields.map Prod.snd).findSome? fun child => child.items?.map Found.occurring with
    | some found =>
      rw [arrays, first]
      rfl
    | none =>
      rw [arrays, first, findSome?_records (arrays.trans first)]
      rfl

/-! ## The arrays that occur in the output -/

inductive Occurs (part : Json) : Json → Prop
  | self : Occurs part part
  | item {items : List Json} {item : Json} (member : item ∈ items) (within : Occurs part item) :
      Occurs part (.arr items)
  | field {fields : List (String × Json)} {child : Json} (member : child ∈ fields.map Prod.snd)
      (within : Occurs part child) : Occurs part (.obj fields)

theorem mem_of_candidate {fields : List (String × Json)} {child : Json} (candidate : child ∈ candidates fields) :
    child ∈ fields.map Prod.snd := by
  rcases List.mem_append.mp candidate with container | value
  · obtain ⟨key, -, found⟩ := List.mem_filterMap.mp container
    exact List.mem_map_of_mem (Json.mem_of_lookup found)
  · rcases List.mem_append.mp value with array | other
    · exact (List.mem_filter.mp array).1
    · exact other

/-- Every record that is found occurs in the output. -/
theorem occurs_of_discover {levels : Nat} {value : Json} {found : Found} (result : discover levels value = some found) :
    ∀ record ∈ found.items, Occurs record value := by
  induction levels generalizing value found with
  | zero =>
    cases value with
    | arr items =>
      cases result
      exact fun record member => .item member .self
    | _ => cases result
  | succ levels ih =>
    cases value with
    | arr items =>
      cases result
      exact fun record member => .item member .self
    | obj fields =>
      rw [discover_obj] at result
      cases first : (candidates fields).find? (Searched levels) with
      | none =>
        rw [first] at result
        cases result
        split
        · exact fun record member => nomatch member
        · intro record member
          rw [List.mem_singleton.mp member]
          exact .self
      | some child =>
        have looked : (discover levels child).isSome = true := by
          rw [isSome_discover]
          exact List.find?_some first
        obtain ⟨other, below⟩ := Option.isSome_iff_exists.mp looked
        rw [first, Option.bind_some, below] at result
        cases result
        exact fun record member =>
          .field (mem_of_candidate (List.mem_of_find?_eq_some first)) (ih below record member)
    | _ => cases result

theorem leadsToArray_of_discover {levels : Nat} {value : Json} {items : List Json}
    (found : discover levels value = some (.occurring items)) : LeadsToArray levels value := by
  induction levels generalizing value with
  | zero =>
    cases value with
    | arr others => exact .array others
    | _ => cases found
  | succ levels ih =>
    cases value with
    | arr others => exact .array others
    | obj fields =>
      rw [discover_obj] at found
      cases first : (candidates fields).find? (Searched levels) with
      | none =>
        rw [first] at found
        by_cases empty : fields.isEmpty = true <;> simp [empty] at found
      | some child =>
        have looked : (discover levels child).isSome = true := by
          rw [isSome_discover]
          exact List.find?_some first
        obtain ⟨other, result⟩ := Option.isSome_iff_exists.mp looked
        rw [first, Option.bind_some, result] at found
        cases found
        exact .object first (ih result)
    | _ => cases found

theorem LeadsToArray.discovered {levels : Nat} {value : Json} (leads : LeadsToArray levels value) :
    ∃ items, discover levels value = some (.occurring items) ∧ Occurs (.arr items) value := by
  induction leads with
  | @array levels items => exact ⟨items, by cases levels <;> rfl, .self⟩
  | @object levels fields child first leads ih =>
    obtain ⟨items, found, occurs⟩ := ih
    refine ⟨items, ?_, .field (mem_of_candidate (List.mem_of_find?_eq_some first)) occurs⟩
    rw [discover_obj, first, Option.bind_some, found]
    rfl

/-- Some recognised container holds an array, at the top or below a recognised container. -/
inductive ContainerHoldsArray : Json → Prop
  | here {fields : List (String × Json)} {key : String} {items : List Json}
      (recognised : key ∈ arrayContainerKeys) (holds : Json.lookup key fields = some (.arr items)) :
      ContainerHoldsArray (.obj fields)
  | nested {fields inner : List (String × Json)} {key : String}
      (recognised : key ∈ arrayContainerKeys) (holds : Json.lookup key fields = some (.obj inner))
      (within : ContainerHoldsArray (.obj inner)) : ContainerHoldsArray (.obj fields)

/-- Of an output object, whether or not a recognised container of it holds an array,
`findRecordArray` returns an array that occurs in it, and wraps nothing, exactly if
the children that it follows lead to an array. -/
theorem findRecordArray_occurring_iff (fields : List (String × Json)) :
    (∃ items, discover 4 (.obj fields) = some (.occurring items) ∧
      findRecordArray 4 (.obj fields) = some items ∧ Occurs (.arr items) (.obj fields)) ↔
      LeadsToArray 4 (.obj fields) := by
  constructor
  · rintro ⟨items, found, -⟩
    exact leadsToArray_of_discover found
  · intro leads
    obtain ⟨items, found, occurs⟩ := leads.discovered
    refine ⟨items, found, ?_, occurs⟩
    rw [← discover_items, found]
    rfl

/-- A page with a summary in `data` and its rows in `list`, and one with an empty
`records` and its rows in `rows`. -/
def summarised : List (String × Json) :=
  [("data", .obj [("total", .num 5)]), ("list", .arr [.obj [("id", .num 1)]])]

def emptied : List (String × Json) := [("records", .obj []), ("rows", .arr [.num 1])]

/-- The summary is wrapped and returned as the only record, and the empty object
gives no record, while the rows are in a recognised container. -/
theorem earlier_container_wrapped :
    (ContainerHoldsArray (.obj summarised) ∧ ContainerHoldsArray (.obj emptied)) ∧
      discover 4 (.obj summarised) = some (.wrapped [("total", .num 5)]) ∧
      findRecordArray 4 (.obj summarised) = some [.obj [("total", .num 5)]] ∧
      discover 4 (.obj emptied) = some .nothing ∧ findRecordArray 4 (.obj emptied) = some [] := by
  have list : "list" ∈ arrayContainerKeys := by decide
  have rows : "rows" ∈ arrayContainerKeys := by decide
  exact ⟨⟨.here list rfl, .here rows rfl⟩, rfl, rfl, rfl, rfl⟩

end RpaEnterprise.Interpreter
