import Mathlib.Data.List.Nodup

/-!
# JSON documents

Values as `JSON.parse` returns them: an object is its list of fields in
insertion order.  Reading a field of anything but an object gives nothing, and
`{ ...record, key: value }` keeps the place of a field that was there.
-/

namespace RpaEnterprise.Lib

theorem lookup_without {Value : Type*} (key other : String) (entries : List (String × Value)) :
    (entries.filter (·.1 ≠ key)).lookup other = if other = key then none else entries.lookup other := by
  induction entries with
  | nil => simp
  | cons entry rest ih =>
    obtain ⟨name, value⟩ := entry
    by_cases dropped : name = key
    · rw [List.filter_cons_of_neg (by simp [dropped]), ih, dropped]
      by_cases same : other = key
      · simp [same]
      · rw [List.lookup_cons, beq_false_of_ne same]
    · rw [List.filter_cons_of_pos (by simp [dropped]), List.lookup_cons, List.lookup_cons, ih]
      by_cases same : other = name
      · simp [same, dropped]
      · rw [beq_false_of_ne same]

inductive Json where
  | null
  | bool (value : Bool)
  | num (value : Rat)
  | str (text : String)
  | arr (items : List Json)
  | obj (fields : List (String × Json))

namespace Json

/-- `record.key`, with `none` for `undefined`. -/
def lookup (key : String) : List (String × Json) → Option Json
  | [] => none
  | (name, value) :: rest => if name = key then some value else lookup key rest

/-- `{ ...record, key: value }`. -/
def assign (key : String) (value : Json) : List (String × Json) → List (String × Json)
  | [] => [(key, value)]
  | (name, old) :: rest =>
    if name = key then (name, value) :: rest else (name, old) :: assign key value rest

/-- `out[key] = value` on an object that inherits from `Object.prototype`: the
key `__proto__` sets the prototype and adds no member. -/
def setMember (out : List (String × Json)) (key : String) (value : Json) : List (String × Json) :=
  if key = "__proto__" then out else assign key value out

/-- `isRecord(value) ? value : undefined`. -/
def record? : Json → Option (List (String × Json))
  | .obj fields => some fields
  | _ => none

/-- The fields of a record, and none of anything else. -/
def fields (value : Json) : List (String × Json) := value.record?.getD []

def field (value : Json) (key : String) : Option Json := lookup key value.fields

def text? : Json → Option String
  | .str text => some text
  | _ => none

def items? : Json → Option (List Json)
  | .arr items => some items
  | _ => none

/-- `typeof value === "object" && value !== null`. -/
def isObject : Json → Bool
  | .arr _ | .obj _ => true
  | _ => false

/-- Whether `if (value)` takes its branch. -/
def truthy : Json → Bool
  | .null => false
  | .bool value => value
  | .num value => value != 0
  | .str text => text != ""
  | .arr _ | .obj _ => true

/-! ## `JSON.stringify` -/

def escape (char : Char) : List Char :=
  if char = '"' then ['\\', '"']
  else if char = '\\' then ['\\', '\\']
  else if char = '\n' then ['\\', 'n']
  else if char = '\r' then ['\\', 'r']
  else if char = '\t' then ['\\', 't']
  else if char.toNat = 8 then ['\\', 'b']
  else if char.toNat = 12 then ['\\', 'f']
  else if char.toNat < 32 then
    ['\\', 'u', '0', '0', Nat.digitChar (char.toNat / 16), Nat.digitChar (char.toNat % 16)]
  else [char]

def quote (text : String) : String := "\"" ++ String.ofList (text.toList.flatMap escape) ++ "\""

/-- The decimals of `rest / den`, as many as the fuel gives. -/
def decimals (den : Nat) : Nat → Nat → List Char
  | 0, _ => []
  | fuel + 1, rest =>
    if rest = 0 then []
    else Nat.digitChar (rest * 10 / den) :: decimals den fuel (rest * 10 % den)

/-- A number with as many decimals as a double can have digits. -/
def numText (value : Rat) : String :=
  let size := value.num.natAbs
  let whole := (if value < 0 then "-" else "") ++ toString (size / value.den)
  if value.den = 1 then whole
  else whole ++ "." ++ String.ofList (decimals value.den 20 (size % value.den))

mutual

def stringify : Json → String
  | .null => "null"
  | .bool value => if value then "true" else "false"
  | .num value => numText value
  | .str text => quote text
  | .arr items => "[" ++ stringifyItems items ++ "]"
  | .obj fields => "\x7b" ++ stringifyFields fields ++ "\x7d"

def stringifyItems : List Json → String
  | [] => ""
  | [item] => stringify item
  | item :: rest => stringify item ++ "," ++ stringifyItems rest

def stringifyFields : List (String × Json) → String
  | [] => ""
  | [(name, value)] => quote name ++ ":" ++ stringify value
  | (name, value) :: rest =>
    quote name ++ ":" ++ stringify value ++ "," ++ stringifyFields rest

end

/-! ## Keys -/

mutual

/-- Every object has every key once. -/
def Distinct : Json → Prop
  | .arr items => DistinctItems items
  | .obj fields => (fields.map Prod.fst).Nodup ∧ DistinctFields fields
  | _ => True

def DistinctItems : List Json → Prop
  | [] => True
  | item :: rest => item.Distinct ∧ DistinctItems rest

def DistinctFields : List (String × Json) → Prop
  | [] => True
  | (_, value) :: rest => value.Distinct ∧ DistinctFields rest

end

theorem lookup_assign (key other : String) (value : Json) (fields : List (String × Json)) :
    lookup other (assign key value fields) =
      if other = key then some value else lookup other fields := by
  induction fields with
  | nil =>
    by_cases same : other = key
    · simp [assign, lookup, same]
    · have apart : ¬ key = other := fun heq => same heq.symm
      simp [assign, lookup, same, apart]
  | cons entry rest ih =>
    rcases entry with ⟨name, old⟩
    by_cases here : name = key
    · subst here
      by_cases same : other = name
      · simp [assign, lookup, same]
      · have apart : ¬ name = other := fun heq => same heq.symm
        simp [assign, lookup, same, apart]
    · by_cases found : name = other
      · subst found
        simp [assign, lookup, here]
      · simp [assign, lookup, here, found, ih]

theorem lookup_eq (key : String) (fields : List (String × Json)) : lookup key fields = fields.lookup key := by
  induction fields with
  | nil => rfl
  | cons entry rest ih =>
    obtain ⟨name, value⟩ := entry
    rw [lookup, List.lookup_cons, ih]
    by_cases same : name = key
    · simp [same]
    · rw [if_neg same, beq_false_of_ne (Ne.symm same)]

theorem mem_of_lookup {key : String} {value : Json} {fields : List (String × Json)}
    (found : lookup key fields = some value) : (key, value) ∈ fields := by
  induction fields with
  | nil => cases found
  | cons entry rest ih =>
    obtain ⟨name, held⟩ := entry
    rw [lookup] at found
    split at found
    · rename_i same
      rw [same, Option.some.inj found]
      exact List.mem_cons_self
    · exact List.mem_cons_of_mem _ (ih found)

theorem lookup_of_notMem {key : String} {fields : List (String × Json)} (absent : key ∉ fields.map Prod.fst) :
    lookup key fields = none := by
  induction fields with
  | nil => rfl
  | cons field rest ih =>
    rw [List.map_cons, List.mem_cons, not_or] at absent
    rw [lookup, if_neg fun same => absent.1 same.symm]
    exact ih absent.2

theorem lookup_foldl_assign (key : String) {others : List (String × Json)} (distinct : (others.map Prod.fst).Nodup)
    (fields : List (String × Json)) :
    lookup key (others.foldl (fun out field => assign field.1 field.2 out) fields) =
      (lookup key others).or (lookup key fields) := by
  induction others generalizing fields with
  | nil => rfl
  | cons field rest ih =>
    rw [List.map_cons, List.nodup_cons] at distinct
    rw [List.foldl_cons, ih distinct.2, lookup_assign, lookup]
    by_cases same : key = field.1
    · subst same
      rw [lookup_of_notMem distinct.1, if_pos rfl, if_pos rfl]
      rfl
    · rw [if_neg same, if_neg fun equal => same equal.symm]

theorem keys_assign (key : String) (value : Json) (fields : List (String × Json)) :
    (assign key value fields).map Prod.fst =
      if key ∈ fields.map Prod.fst then fields.map Prod.fst else fields.map Prod.fst ++ [key] := by
  induction fields with
  | nil => rfl
  | cons field rest ih =>
    rw [assign]
    by_cases same : field.1 = key
    · simp [same]
    · have apart : ¬ key = field.1 := fun equal => same equal.symm
      rw [if_neg same, List.map_cons, List.map_cons, ih]
      by_cases member : key ∈ rest.map Prod.fst
      · rw [if_pos member, if_pos (List.mem_cons_of_mem _ member)]
      · have absent : key ∉ field.1 :: rest.map Prod.fst := by
          rw [List.mem_cons, not_or]
          exact ⟨apart, member⟩
        rw [if_neg member, if_neg absent, List.cons_append]

theorem nodup_foldl_assign (others : List (String × Json)) {fields : List (String × Json)}
    (distinct : (fields.map Prod.fst).Nodup) :
    ((others.foldl (fun out field => assign field.1 field.2 out) fields).map Prod.fst).Nodup := by
  induction others generalizing fields with
  | nil => exact distinct
  | cons field rest ih =>
    refine ih ?_
    rw [keys_assign]
    split
    · exact distinct
    · rename_i absent
      exact List.nodup_append.mpr ⟨distinct, List.pairwise_singleton _ _, fun other member added mem same =>
        absent (List.mem_singleton.mp mem ▸ same ▸ member)⟩

theorem assign_of_not_mem {key : String} {value : Json} {out : List (String × Json)}
    (fresh : key ∉ out.map Prod.fst) : assign key value out = out ++ [(key, value)] := by
  induction out with
  | nil => rfl
  | cons member rest ih =>
    obtain ⟨name, old⟩ := member
    simp only [List.map_cons, List.mem_cons, not_or] at fresh
    rw [assign, if_neg (Ne.symm fresh.1), ih fresh.2, List.cons_append]

/-! ## Equality -/

-- Documents nest through lists, so their equality is decided by hand.
mutual

/-- The documents are the same, fields in the same order. -/
def same : Json → Json → Bool
  | .null, .null => true
  | .bool one, .bool two => one = two
  | .num one, .num two => one = two
  | .str one, .str two => one = two
  | .arr one, .arr two => sameItems one two
  | .obj one, .obj two => sameFields one two
  | _, _ => false

def sameItems : List Json → List Json → Bool
  | [], [] => true
  | one :: ones, two :: twos => same one two && sameItems ones twos
  | _, _ => false

def sameFields : List (String × Json) → List (String × Json) → Bool
  | [], [] => true
  | (name, one) :: ones, (other, two) :: twos => name = other && same one two && sameFields ones twos
  | _, _ => false

end

mutual

theorem same_iff : ∀ one two : Json, same one two = true ↔ one = two
  | .arr one, two => by cases two <;> simp [same, sameItems_iff one]
  | .obj one, two => by cases two <;> simp [same, sameFields_iff one]
  | .null, two => by cases two <;> simp [same]
  | .bool one, two => by cases two <;> simp [same]
  | .num one, two => by cases two <;> simp [same]
  | .str one, two => by cases two <;> simp [same]

theorem sameItems_iff : ∀ ones twos : List Json, sameItems ones twos = true ↔ ones = twos
  | [], twos => by cases twos <;> simp [sameItems]
  | one :: ones, twos => by cases twos <;> simp [sameItems, same_iff one, sameItems_iff ones]

theorem sameFields_iff : ∀ ones twos : List (String × Json), sameFields ones twos = true ↔ ones = twos
  | [], twos => by cases twos <;> simp [sameFields]
  | (name, one) :: ones, twos => by
    rcases twos with _ | ⟨⟨other, two⟩, twos⟩ <;>
      simp [sameFields, same_iff one, sameFields_iff ones]

end

instance : DecidableEq Json := fun one two => decidable_of_iff (same one two = true) (same_iff one two)

end Json

end RpaEnterprise.Lib
