import RpaEnterprise.Interpreter.RecordDiscovery
import RpaEnterprise.Lib.FirstOccurrence

/-!
# What the keys of extracted records confuse

A record is keyed by the name and the text of its first natural key, or by the
stable text of all of it.  The text of a natural key forgets its type, name and
text are joined by a colon that either may contain, and the stable text leaves
out members named `__proto__`.  The merge loses no record exactly if no two of
the records are confused in one of these ways.
-/

namespace RpaEnterprise.Interpreter.ExtractDedupe

open Lib

/-- An extract output; the keys of its objects are distinct. -/
structure Output where
  value : Json
  distinct : value.Distinct

variable (platform : Platform) (naturalKeys : List String)

/-- All records, page after page. -/
def inputs (outputs : List Output) : List Json :=
  outputs.flatMap fun output => recordsFromExtractOutput output.value

/-! ## The loop -/

/-- The accumulators after the records. -/
structure Merged (records : List Json) (merge : Merge) : Prop where
  kept : merge.records = firsts (dedupeKey platform naturalKeys) records
  seen : ∀ key, key ∈ merge.seen ↔ key ∈ merge.records.map (dedupeKey platform naturalKeys)
  inputCount : merge.inputCount = records.length
  duplicates : merge.inputCount = merge.records.length + merge.duplicateCount

variable {platform naturalKeys}

theorem Merged.visit {records : List Json} {merge : Merge} (merged : Merged platform naturalKeys records merge)
    (record : Json) :
    Merged platform naturalKeys (records ++ [record]) (visit platform naturalKeys merge record) := by
  have counted := merged.duplicates
  unfold ExtractDedupe.visit
  dsimp only
  split
  · rename_i seen
    refine ⟨?_, merged.seen, ?_, ?_⟩
    · rw [firsts_concat, keep, ← merged.kept, if_pos ((merged.seen _).mp seen)]
    · simp [merged.inputCount]
    · dsimp only
      omega
  · rename_i new
    refine ⟨?_, ?_, ?_, ?_⟩
    · rw [firsts_concat, keep, ← merged.kept, if_neg fun among => new ((merged.seen _).mpr among)]
    · intro key
      simp [merged.seen, or_comm]
    · simp [merged.inputCount]
    · simp only [List.length_append, List.length_singleton]
      omega

theorem Merged.foldl {records : List Json} {merge : Merge} (merged : Merged platform naturalKeys records merge)
    (later : List Json) :
    Merged platform naturalKeys (records ++ later) (later.foldl (ExtractDedupe.visit platform naturalKeys) merge) := by
  induction later generalizing records merge with
  | nil => rwa [List.append_nil]
  | cons record rest ih =>
    have next := ih (merged.visit record)
    rwa [List.append_assoc] at next

theorem Merged.pages {records : List Json} {merge : Merge} (merged : Merged platform naturalKeys records merge)
    (outputs : List Output) :
    Merged platform naturalKeys (records ++ inputs outputs)
      ((outputs.map Output.value).foldl (visitPage platform naturalKeys) merge) := by
  induction outputs generalizing records merge with
  | nil => rwa [inputs, List.flatMap_nil, List.append_nil]
  | cons output rest ih =>
    have next := ih (merged.foldl (recordsFromExtractOutput output.value))
    rwa [List.append_assoc] at next

theorem merged_outputs (outputs : List Output) :
    Merged platform naturalKeys (inputs outputs)
      ((outputs.map Output.value).foldl (visitPage platform naturalKeys) ⟨[], [], 0, 0⟩) := by
  have start : Merged platform naturalKeys [] ⟨[], [], 0, 0⟩ := ⟨rfl, fun _ => .rfl, rfl, rfl⟩
  exact start.pages outputs

/-! ## The stable text -/

mutual

/-- The document without its members named `__proto__`. -/
def pruned : Json → Json
  | .arr items => .arr (prunedItems items)
  | .obj fields => .obj (prunedFields fields)
  | .null => .null
  | .bool value => .bool value
  | .num value => .num value
  | .str text => .str text

def prunedItems : List Json → List Json
  | [] => []
  | item :: rest => pruned item :: prunedItems rest

def prunedFields : List (String × Json) → List (String × Json)
  | [] => []
  | (key, value) :: rest =>
    if key = "__proto__" then prunedFields rest else (key, pruned value) :: prunedFields rest

end

theorem normalizeItems_eq (items : List Json) :
    normalizeItems platform items = items.map (normalizeForStableStringify platform) := by
  induction items with
  | nil => rfl
  | cons item rest ih => simp [normalizeItems, ih]

theorem normalizeFields_eq (fields : List (String × Json)) :
    normalizeFields platform fields =
      fields.map fun field => (field.1, normalizeForStableStringify platform field.2) := by
  induction fields with
  | nil => rfl
  | cons field rest ih => simp [normalizeFields, ih]

theorem prunedItems_eq (items : List Json) : prunedItems items = items.map pruned := by
  induction items with
  | nil => rfl
  | cons item rest ih => simp [prunedItems, ih]

/-- A member that is an own key of a written object. -/
def isOwn (member : String × Json) : Bool := member.1 ≠ "__proto__"

theorem prunedFields_eq (fields : List (String × Json)) :
    prunedFields fields = (fields.filter isOwn).map fun field => (field.1, pruned field.2) := by
  induction fields with
  | nil => rfl
  | cons field rest ih =>
    rw [prunedFields]
    split
    · rename_i proto
      rw [List.filter_cons_of_neg (by simp [isOwn, proto]), ih]
    · rename_i own
      rw [List.filter_cons_of_pos (by simp [isOwn, own]), List.map_cons, ih]

/-- Written one after the other, members with different keys stay in their order,
without one named `__proto__`. -/
theorem foldl_setMember {members out : List (String × Json)} (distinct : ((out ++ members).map Prod.fst).Nodup) :
    members.foldl (fun out member => Json.setMember out member.1 member.2) out = out ++ members.filter isOwn := by
  induction members generalizing out with
  | nil => simp
  | cons member rest ih =>
    rw [List.foldl_cons]
    by_cases proto : member.1 = "__proto__"
    · have next : Json.setMember out member.1 member.2 = out := if_pos proto
      have apart : ((out ++ rest).map Prod.fst).Nodup :=
        distinct.sublist (((List.sublist_cons_self member rest).append_left out).map _)
      rw [next, ih apart, List.filter_cons_of_neg (by simp [isOwn, proto])]
    · have fresh : member.1 ∉ out.map Prod.fst := by
        rw [List.map_append, List.nodup_append] at distinct
        exact fun among => distinct.2.2 _ among _ (by simp) rfl
      have next : Json.setMember out member.1 member.2 = out ++ [member] := by
        rw [Json.setMember, if_neg proto, Json.assign_of_not_mem fresh]
      have apart : ((out ++ [member] ++ rest).map Prod.fst).Nodup := by simpa using distinct
      rw [next, ih apart, List.filter_cons_of_pos (by simp [isOwn, proto]), List.append_assoc,
        List.singleton_append]

theorem normalize_eq (value : Json) (distinct : value.Distinct) :
    normalizeForStableStringify platform value = (pruned value).arranged platform.codeUnits := by
  match value with
  | .null | .bool _ | .num _ | .str _ => simp [normalizeForStableStringify, pruned, Json.arranged]
  | .arr items =>
    rw [Json.Distinct] at distinct
    rw [normalizeForStableStringify, pruned, Json.arranged, normalizeItems_eq, prunedItems_eq,
      Json.arrangedItems_eq, List.map_map]
    congr 1
    exact List.map_congr_left fun item member =>
      normalize_eq item (Json.distinctItems_mem distinct item member)
  | .obj fields =>
    rw [Json.Distinct] at distinct
    have keys : (normalizeFields platform fields).map Prod.fst = fields.map Prod.fst := by
      rw [normalizeFields_eq, List.map_map]
      rfl
    have sorted := List.perm_insertionSort platform.codeUnits.Fields (normalizeFields platform fields)
    have nodup := (sorted.map Prod.fst).nodup_iff.mpr (keys ▸ distinct.1)
    rw [normalizeForStableStringify, foldl_setMember (by simpa using nodup), List.nil_append,
      Json.filter_insertionSort platform.untied (keys ▸ distinct.1), pruned, Json.arranged,
      prunedFields_eq, Json.arrangedFields_eq, normalizeFields_eq, List.filter_map, List.map_map]
    congr 2
    refine List.map_congr_left fun field member => ?_
    have own := (List.mem_filter.mp member).1
    exact congrArg (field.1, ·) (normalize_eq field.2 (Json.distinctFields_mem distinct.2 field own))
termination_by sizeOf value
decreasing_by
  · exact Json.sizeOf_item_lt member
  · exact Json.sizeOf_field_lt own

theorem distinct_pruned (value : Json) (distinct : value.Distinct) : (pruned value).Distinct := by
  match value with
  | .null | .bool _ | .num _ | .str _ => simp [pruned, Json.Distinct]
  | .arr items =>
    rw [Json.Distinct] at distinct
    rw [pruned, Json.Distinct, prunedItems_eq]
    refine Json.distinctItems_of_mem fun item member => ?_
    obtain ⟨source, among, rfl⟩ := List.mem_map.mp member
    exact distinct_pruned source (Json.distinctItems_mem distinct source among)
  | .obj fields =>
    rw [Json.Distinct] at distinct
    rw [pruned, Json.Distinct, prunedFields_eq]
    constructor
    · rw [List.map_map]
      exact distinct.1.sublist (List.filter_sublist.map _)
    · refine Json.distinctFields_of_mem fun field member => ?_
      obtain ⟨source, among, rfl⟩ := List.mem_map.mp member
      have own := (List.mem_filter.mp among).1
      exact distinct_pruned source.2 (Json.distinctFields_mem distinct.2 source own)
termination_by sizeOf value
decreasing_by
  · exact Json.sizeOf_item_lt among
  · exact Json.sizeOf_field_lt own

theorem sameItems_pruned {items others : List Json}
    (keeps : ∀ item ∈ items, ∀ other, item.Same other → (pruned item).Same (pruned other))
    (same : Json.SameItems items others) : Json.SameItems (prunedItems items) (prunedItems others) := by
  induction items generalizing others with
  | nil =>
    cases others with
    | nil => exact same
    | cons other others => rw [Json.SameItems] at same <;> simp_all
  | cons item rest ih =>
    cases others with
    | nil => rw [Json.SameItems] at same <;> simp_all
    | cons other others =>
      rw [Json.SameItems] at same
      rw [prunedItems, prunedItems, Json.SameItems]
      exact ⟨keeps item List.mem_cons_self other same.1,
        ih (fun item member => keeps item (List.mem_cons_of_mem _ member)) same.2⟩

theorem sameFields_pruned {fields others : List (String × Json)}
    (keeps : ∀ field ∈ fields, ∀ other, field.2.Same other → (pruned field.2).Same (pruned other))
    (same : Json.SameFields fields others) : Json.SameFields (prunedFields fields) (prunedFields others) := by
  induction fields generalizing others with
  | nil =>
    rw [Json.SameFields] at same
    rw [same, prunedFields, Json.SameFields]
  | cons field rest ih =>
    obtain ⟨name, value⟩ := field
    rw [Json.SameFields] at same
    obtain ⟨first, other, last, rfl, here, later⟩ := same
    have next := ih (fun field member => keeps field (List.mem_cons_of_mem _ member)) later
    have append : ∀ last, prunedFields (first ++ last) = prunedFields first ++ prunedFields last := by
      intro last
      rw [prunedFields_eq, prunedFields_eq, prunedFields_eq, List.filter_append, List.map_append]
    rw [append] at next ⊢
    rw [prunedFields, prunedFields]
    by_cases proto : name = "__proto__"
    · rwa [if_pos proto, if_pos proto]
    · rw [if_neg proto, if_neg proto, Json.SameFields]
      exact ⟨_, _, _, rfl, keeps (name, value) List.mem_cons_self other here, next⟩

theorem same_pruned (one two : Json) (same : one.Same two) : (pruned one).Same (pruned two) := by
  match one, two with
  | .null, .null | .bool _, .bool _ | .num _, .num _ | .str _, .str _ => exact same
  | .arr items, .arr others =>
    rw [Json.Same] at same
    rw [pruned, pruned, Json.Same]
    exact sameItems_pruned (fun item member other => same_pruned item other) same
  | .obj fields, .obj others =>
    rw [Json.Same] at same
    rw [pruned, pruned, Json.Same]
    exact sameFields_pruned (fun field member other => same_pruned field.2 other) same
termination_by sizeOf one
decreasing_by
  · exact Json.sizeOf_item_lt member
  · exact Json.sizeOf_field_lt member

/-- The stable text forgets the order of keys and the members named `__proto__`. -/
theorem stableStringify_eq_iff {one two : Json} (distinct : one.Distinct) (distinct' : two.Distinct) :
    stableStringify platform one = stableStringify platform two ↔ (pruned one).Same (pruned two) := by
  have ties : ∀ one two, (ownKeys.refine platform.codeUnits).Tied one two → one = two :=
    fun one two tied => platform.untied one two (Collation.refine_tied _ _ |>.mp tied).2
  rw [Json.same_iff_arranged ties (distinct_pruned one distinct), ← Json.arranged_refine, ← Json.arranged_refine,
    ← normalize_eq one distinct, ← normalize_eq two distinct']
  unfold stableStringify
  constructor
  · intro same
    exact Json.arranged_of_canonical ownKeys platform.numerals (String.ofList_injective same)
  · intro same
    rw [Json.canonical, Json.canonical, same]

/-! ## The field that identifies a record -/

theorem lookup_of_sameFields {fields others : List (String × Json)} (same : Json.SameFields fields others)
    (distinct : (others.map Prod.fst).Nodup) (key : String) :
    (Json.lookup key fields = none ∧ Json.lookup key others = none) ∨
      ∃ value other, Json.lookup key fields = some value ∧ Json.lookup key others = some other ∧
        value.Same other := by
  induction fields generalizing others with
  | nil =>
    rw [Json.SameFields] at same
    subst same
    exact .inl ⟨rfl, rfl⟩
  | cons field rest ih =>
    obtain ⟨name, value⟩ := field
    rw [Json.SameFields] at same
    obtain ⟨first, other, last, rfl, here, later⟩ := same
    have apart : ((first ++ last).map Prod.fst).Nodup :=
      distinct.sublist (((List.sublist_cons_self _ last).append_left first).map _)
    rw [Json.lookup]
    have skip : ∀ before : List (String × Json), Json.lookup key (before ++ (name, other) :: last) =
        if name = key ∧ key ∉ before.map Prod.fst then some other else Json.lookup key (before ++ last) := by
      intro before
      induction before with
      | nil => simp [Json.lookup]
      | cons entry before ih =>
        by_cases found : entry.1 = key
        · simp [Json.lookup, found]
        · have absent : ¬ key = entry.1 := fun equal => found equal.symm
          simp only [List.cons_append, Json.lookup, if_neg found, ih, List.map_cons, List.mem_cons, absent,
            false_or]
    rw [skip]
    by_cases equal : name = key
    · have fresh : key ∉ first.map Prod.fst := by
        rw [List.map_append, List.nodup_append] at distinct
        exact fun among => distinct.2.2 _ among name (by simp) equal.symm
      rw [if_pos equal, if_pos ⟨equal, fresh⟩]
      exact .inr ⟨value, other, rfl, rfl, here⟩
    · rw [if_neg equal, if_neg fun both => equal both.1]
      exact ih later apart

/-- Values that are the same are equal where they may identify a record. -/
theorem natural_of_same {one two : Json} (same : one.Same two) :
    one = two ∨ isNaturalKeyValue one = false ∧ isNaturalKeyValue two = false := by
  match one, two with
  | .null, .null => exact .inl rfl
  | .bool one, .bool two =>
    rw [Json.Same] at same
    exact .inl (congrArg Json.bool same)
  | .num one, .num two =>
    rw [Json.Same] at same
    exact .inl (congrArg Json.num same)
  | .str one, .str two =>
    rw [Json.Same] at same
    exact .inl (congrArg Json.str same)
  | .arr _, .arr _ => exact .inr ⟨rfl, rfl⟩
  | .obj _, .obj _ => exact .inr ⟨rfl, rfl⟩

theorem identify_of_same {one two : Json} (distinct : two.Distinct) (same : one.Same two) :
    identify naturalKeys one = identify naturalKeys two := by
  match one, two with
  | .obj fields, .obj others =>
    rw [Json.Same] at same
    rw [Json.Distinct] at distinct
    unfold identify
    refine congrArg (naturalKeys.findSome? ·) (funext fun key => ?_)
    have field : ∀ fields, (Json.obj fields).field key = Json.lookup key fields := fun _ => rfl
    rw [field, field]
    rcases lookup_of_sameFields same distinct.1 key with ⟨left, right⟩ | ⟨value, other, left, right, here⟩
    · rw [left, right]
    · rw [left, right]
      rcases natural_of_same here with rfl | ⟨no, no'⟩
      · rfl
      · simp [no, no']
  | .null, .null | .bool _, .bool _ | .num _, .num _ | .str _, .str _ | .arr _, .arr _ => rfl

/-! ## Records that are dropped -/

variable (naturalKeys) in
/-- Equal up to the order of keys, or identified by the same field with the same
value of the same type. -/
def Equivalent (one two : Json) : Prop :=
  one.Same two ∨ ∃ field, identify naturalKeys one = some field ∧ identify naturalKeys two = some field

variable (platform naturalKeys) in
/-- Different records of one key: different identifying fields with one text, a
natural text that is the text of a document, or documents that differ in members
named `__proto__` only. -/
def Confused (one two : Json) : Prop :=
  match identify naturalKeys one, identify naturalKeys two with
  | some field, some other => naturalText platform field = naturalText platform other ∧ field ≠ other
  | some field, none => naturalText platform field = "json:" ++ stableStringify platform two
  | none, some other => "json:" ++ stableStringify platform one = naturalText platform other
  | none, none => (pruned one).Same (pruned two) ∧ ¬ one.Same two

variable (platform naturalKeys) in
/-- What a record is taken for: the field that identifies it, or the document. -/
def meaning (record : Json) : (String × Json) ⊕ Json :=
  match identify naturalKeys record with
  | some field => .inl field
  | none => .inr (record.arranged platform.codeUnits)

theorem meaning_eq_iff {one two : Json} (distinct : one.Distinct) (distinct' : two.Distinct) :
    meaning platform naturalKeys one = meaning platform naturalKeys two ↔ Equivalent naturalKeys one two := by
  have agree := @identify_of_same naturalKeys one two distinct'
  unfold meaning Equivalent
  cases left : identify naturalKeys one with
  | none =>
    cases right : identify naturalKeys two with
    | none => simp [Json.same_iff_arranged platform.untied distinct]
    | some other =>
      have apart : ¬ one.Same two := fun same => nomatch (left.symm.trans (agree same)).trans right
      simp [apart]
  | some field =>
    cases right : identify naturalKeys two with
    | none =>
      have apart : ¬ one.Same two := fun same => nomatch (left.symm.trans (agree same)).trans right
      simp [apart]
    | some other =>
      have equal : one.Same two → field = other :=
        fun same => Option.some.inj ((left.symm.trans (agree same)).trans right)
      simp only [Sum.inl.injEq, Option.some.injEq, exists_eq_left']
      constructor
      · exact fun same => .inr same.symm
      · exact fun equivalent => equivalent.elim equal Eq.symm

theorem meaning_ne_of_confused {one two : Json} (distinct : one.Distinct)
    (confused : Confused platform naturalKeys one two) :
    meaning platform naturalKeys one ≠ meaning platform naturalKeys two := by
  revert confused
  unfold Confused meaning
  cases identify naturalKeys one with
  | none =>
    cases identify naturalKeys two with
    | none => simp [← Json.same_iff_arranged platform.untied distinct]
    | some other => simp
  | some field =>
    cases identify naturalKeys two with
    | none => simp
    | some other => simp

/-- Records of one key are equivalent or confused. -/
theorem dedupeKey_eq_iff {one two : Json} (distinct : one.Distinct) (distinct' : two.Distinct) :
    dedupeKey platform naturalKeys one = dedupeKey platform naturalKeys two ↔
      Equivalent naturalKeys one two ∨ Confused platform naturalKeys one two := by
  have json : ∀ one two : String, "json:" ++ one = "json:" ++ two ↔ one = two :=
    fun one two => ⟨fun same => by simpa using same, congrArg _⟩
  rw [← @meaning_eq_iff platform naturalKeys one two distinct distinct']
  unfold dedupeKey Confused meaning
  cases identify naturalKeys one with
  | none =>
    cases identify naturalKeys two with
    | none =>
      simp only [json, stableStringify_eq_iff distinct distinct', Sum.inr.injEq,
        ← Json.same_iff_arranged platform.untied distinct]
      by_cases same : one.Same two
      · simp [same, same_pruned one two same]
      · simp [same]
    | some other => simp
  | some field =>
    cases identify naturalKeys two with
    | none => simp
    | some other =>
      simp only [Sum.inl.injEq]
      by_cases same : field = other
      · simp [same]
      · simp [same]

/-! ## The merge -/

theorem distinct_of_occurs {part value : Json} (occurs : Occurs part value) (distinct : value.Distinct) :
    part.Distinct := by
  induction occurs with
  | self => exact distinct
  | item member within ih =>
    rw [Json.Distinct] at distinct
    exact ih (Json.distinctItems_mem distinct _ member)
  | field member within ih =>
    rw [Json.Distinct] at distinct
    obtain ⟨field, among, rfl⟩ := List.mem_map.mp member
    exact ih (Json.distinctFields_mem distinct.2 field among)

theorem distinct_inputs {outputs : List Output} {record : Json} (member : record ∈ inputs outputs) :
    record.Distinct := by
  obtain ⟨output, -, among⟩ := List.mem_flatMap.mp member
  rw [recordsFromExtractOutput, ← discover_items] at among
  cases result : discover 4 output.value with
  | none =>
    rw [result] at among
    cases among
  | some found =>
    rw [result] at among
    exact distinct_of_occurs (occurs_of_discover result record among) output.distinct

/-- Every record is counted, those kept stand in the order of the input, and what is
kept of the records up to any of them ends with that record or holds an equivalent
one. -/
structure LosesNoData (naturalKeys : List String) (records : List Json) (result : MergedExtractResult) :
    Prop where
  counted : result.inputCount = records.length
  duplicates : result.inputCount = result.records.length + result.duplicateCount
  ordered : result.records.Sublist records
  dropped : ∀ before record after, records = before ++ record :: after →
    ∃ earlier later, result.records = earlier ++ later ∧ earlier.Sublist before ∧
      later.Sublist (record :: after) ∧
      (later.head? = some record ∨ ∃ other ∈ earlier, Equivalent naturalKeys other record)

theorem dropped_iff {records kept : List Json} (distinct : ∀ record ∈ records, record.Distinct) :
    (∀ before record after, records = before ++ record :: after →
      ∃ earlier later, kept = earlier ++ later ∧ earlier.Sublist before ∧
        later.Sublist (record :: after) ∧
        (later.head? = some record ∨ ∃ other ∈ earlier, Equivalent naturalKeys other record)) ↔
      Lib.Faithful (meaning platform naturalKeys) records kept := by
  unfold Lib.Faithful
  refine forall_congr' fun before => forall_congr' fun record => forall_congr' fun after => ?_
  refine imp_congr_right fun split => ?_
  subst split
  refine exists_congr fun earlier => exists_congr fun later => and_congr_right fun _ =>
    and_congr_right fun listed => and_congr_right fun _ => or_congr_right <|
      exists_congr fun other => and_congr_right fun member => ?_
  exact (meaning_eq_iff (distinct other (List.mem_append_left _ (listed.subset member)))
    (distinct record (List.mem_append_right _ List.mem_cons_self))).symm

/-- The merge of any outputs counts every record and keeps them in their order;
it drops a record for an equivalent one only, exactly if no two of the records
are confused. -/
theorem mergeExtractOutputs_losesNoData_iff (platform : Platform) (outputs : List Output)
    (options : Option (List String)) :
    LosesNoData (options.getD defaultNaturalKeys) (inputs outputs)
        (mergeExtractOutputs platform (outputs.map Output.value) options) ↔
      ∀ one ∈ inputs outputs, ∀ two ∈ inputs outputs,
        ¬ Confused platform (options.getD defaultNaturalKeys) one two := by
  generalize keys : options.getD defaultNaturalKeys = naturalKeys
  have distinct : ∀ record ∈ inputs outputs, record.Distinct := fun record => distinct_inputs
  have determines : ∀ one ∈ inputs outputs, ∀ two ∈ inputs outputs,
      meaning platform naturalKeys one = meaning platform naturalKeys two →
        dedupeKey platform naturalKeys one = dedupeKey platform naturalKeys two := by
    intro one member two member' same
    have equivalent := (meaning_eq_iff (distinct one member) (distinct two member')).mp same
    exact (dedupeKey_eq_iff (distinct one member) (distinct two member')).mpr (.inl equivalent)
  have faithful := faithful_iff determines
  have merged := @merged_outputs platform naturalKeys outputs
  subst keys
  rw [← merged.kept] at faithful
  constructor
  · intro holds one member two member' confused
    have same := (dedupeKey_eq_iff (distinct one member) (distinct two member')).mpr (.inr confused)
    exact meaning_ne_of_confused (distinct one member) confused
      (faithful.mp ((dropped_iff distinct).mp holds.dropped) one member two member' same)
  · intro apart
    refine ⟨merged.inputCount, merged.duplicates, ?_, ?_⟩
    · exact (congrArg (List.Sublist · _) merged.kept).mpr (firsts_sublist _)
    · refine (dropped_iff distinct).mpr (faithful.mpr fun one member two member' same => ?_)
      have cases_ := (dedupeKey_eq_iff (distinct one member) (distinct two member')).mp same
      exact (meaning_eq_iff (distinct one member) (distinct two member')).mpr
        (cases_.resolve_right (apart one member two member'))

/-- Two rows whose identifiers are the value `true` and its text. -/
def typed : Output where
  value := .arr [.obj [("id", .bool true)], .obj [("id", .str "true")]]
  distinct := by simp [Json.Distinct, Json.DistinctItems, Json.DistinctFields]

/-- Two rows that differ in a member named `__proto__`. -/
def inherited : Output where
  value := .arr [.obj [("a", .null), ("__proto__", .str "x")], .obj [("a", .null)]]
  distinct := by simp [Json.Distinct, Json.DistinctItems, Json.DistinctFields]

/-- The second row is dropped, though its identifier is of another type; and so is
a row without the `__proto__` of the first. -/
theorem rows_dropped_for_other_rows :
    ((mergeExtractOutputs plainPlatform [typed.value] none).records = [.obj [("id", .bool true)]] ∧
      ¬ Equivalent defaultNaturalKeys (.obj [("id", .bool true)]) (.obj [("id", .str "true")])) ∧
    ((mergeExtractOutputs plainPlatform [inherited.value] none).records =
        [.obj [("a", .null), ("__proto__", .str "x")]] ∧
      ¬ Equivalent defaultNaturalKeys (.obj [("a", .null), ("__proto__", .str "x")]) (.obj [("a", .null)])) := by
  refine ⟨⟨by decide +kernel, ?_⟩, by decide +kernel, ?_⟩
  · rintro (same | ⟨field, left, right⟩)
    · exact absurd ((Json.same_iff_arranged plainPlatform.untied (by simp [Json.Distinct, Json.DistinctFields])).mp
        same) (by decide +kernel)
    · exact absurd (left.trans right.symm) (by decide +kernel)
  · rintro (same | ⟨field, left, right⟩)
    · exact absurd ((Json.same_iff_arranged plainPlatform.untied (by simp [Json.Distinct, Json.DistinctFields])).mp
        same) (by decide +kernel)
    · have unidentified : identify defaultNaturalKeys (.obj [("a", .null)]) = none := by decide +kernel
      cases unidentified.symm.trans right

end RpaEnterprise.Interpreter.ExtractDedupe
