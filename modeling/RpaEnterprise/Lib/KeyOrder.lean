import RpaEnterprise.Lib.CanonicalJson
import Mathlib.Data.List.Infix
import Mathlib.Data.List.Sublists
import Mathlib.Tactic.Common

/-!
# Orders of keys

An object lists its array indices first, in ascending order, and its other keys
in the order they were added.  Sorting that list stably by an order of keys is
sorting by both orders, the later one first; so the canonical text of a document
does not depend on the order in which its keys were added exactly if no record
has two keys that both orders leave tied.
-/

namespace RpaEnterprise.Lib

/-! ## Two sorts after each other -/

section Sorting

variable {Entry : Type*} {first second : Entry → Entry → Prop}

/-- By the second order, and among what it leaves tied by the first. -/
def Refined (second first : Entry → Entry → Prop) (one two : Entry) : Prop :=
  second one two ∧ (second two one → first one two)

instance [DecidableRel first] [DecidableRel second] : DecidableRel (Refined second first) :=
  fun one two => inferInstanceAs (Decidable (second one two ∧ (second two one → first one two)))

theorem Refined.total [Std.Total first] [Std.Total second] (one two : Entry) :
    Refined second first one two ∨ Refined second first two one := by
  have secondTotal := Std.Total.total (r := second) one two
  have firstTotal := Std.Total.total (r := first) one two
  unfold Refined
  tauto

theorem Refined.trans [IsTrans Entry first] [IsTrans Entry second] {one two three : Entry}
    (before : Refined second first one two) (after : Refined second first two three) :
    Refined second first one three := by
  refine ⟨IsTrans.trans _ _ _ before.1 after.1, fun back => ?_⟩
  have firstTie := before.2 (IsTrans.trans _ _ _ after.1 back)
  have secondTie := after.2 (IsTrans.trans _ _ _ back before.1)
  exact IsTrans.trans _ _ _ firstTie secondTie

variable [DecidableRel first] [DecidableRel second]

/-- An entry that comes first among those it is tied with is inserted alike by both orders. -/
theorem orderedInsert_refined {entry : Entry} {entries : List Entry}
    (leads : ∀ other ∈ entries, second entry other → second other entry → first entry other) :
    entries.orderedInsert second entry = entries.orderedInsert (Refined second first) entry := by
  induction entries with
  | nil => rfl
  | cons other rest ih =>
    have same : second entry other ↔ Refined second first entry other :=
      ⟨fun before => ⟨before, leads other List.mem_cons_self before⟩, And.left⟩
    have later := ih fun other member => leads other (List.mem_cons_of_mem _ member)
    simp only [List.orderedInsert_cons, same, later]

/-- Where the tied entries already stand in the first order, it changes nothing. -/
theorem insertionSort_refined {entries : List Entry}
    (ordered : entries.Pairwise fun one two => second one two → second two one → first one two) :
    entries.insertionSort second = entries.insertionSort (Refined second first) := by
  induction entries with
  | nil => rfl
  | cons entry rest ih =>
    obtain ⟨leads, later⟩ := List.pairwise_cons.mp ordered
    rw [List.insertionSort_cons, List.insertionSort_cons, ← ih later]
    exact orderedInsert_refined fun other member =>
      leads other (List.mem_insertionSort second |>.mp member)

/-- The order of two insertions matters for tied entries only. -/
theorem orderedInsert_comm {order : Entry → Entry → Prop} [DecidableRel order] [Std.Total order]
    [IsTrans Entry order] {one two : Entry} (strict : ¬ order two one) (entries : List Entry) :
    (entries.orderedInsert order two).orderedInsert order one =
      (entries.orderedInsert order one).orderedInsert order two := by
  have before : order one two := (Std.Total.total one two).resolve_right strict
  induction entries with
  | nil => simp [before, strict]
  | cons entry rest ih =>
    by_cases first : order one entry
    · by_cases second : order two entry
      · simp [first, second, before, strict]
      · simp [first, second, strict]
    · have second : ¬ order two entry := fun second => first (IsTrans.trans _ _ _ before second)
      simp [first, second, ih]

instance [Std.Total first] [Std.Total second] : Std.Total (Refined second first) := ⟨Refined.total⟩

instance [IsTrans Entry first] [IsTrans Entry second] : IsTrans Entry (Refined second first) :=
  ⟨fun _ _ _ => Refined.trans⟩

variable [Std.Total first] [Std.Total second] [IsTrans Entry first] [IsTrans Entry second]

theorem insertionSort_orderedInsert {entry : Entry} {entries : List Entry}
    (sorted : entries.Pairwise first) :
    (entries.orderedInsert first entry).insertionSort second =
      (entries.insertionSort second).orderedInsert (Refined second first) entry := by
  induction entries with
  | nil => rfl
  | cons other rest ih =>
    obtain ⟨leads, later⟩ := List.pairwise_cons.mp sorted
    by_cases before : first entry other
    · have all : ∀ next ∈ (other :: rest).insertionSort second, first entry next := by
        intro next member
        rcases List.mem_cons.mp (List.mem_insertionSort second |>.mp member) with rfl | among
        · exact before
        · exact IsTrans.trans _ _ _ before (leads next among)
      rw [List.orderedInsert_cons, if_pos before, List.insertionSort_cons,
        orderedInsert_refined fun next member _ _ => all next member]
    · have after : first other entry := (Std.Total.total entry other).resolve_left before
      have all : ∀ next ∈ rest.insertionSort second, first other next :=
        fun next member => leads next (List.mem_insertionSort second |>.mp member)
      have inserted : ∀ next ∈ (rest.insertionSort second).orderedInsert (Refined second first) entry,
          first other next := by
        intro next member
        rcases List.mem_orderedInsert (Refined second first) |>.mp member with rfl | among
        · exact after
        · exact all next among
      rw [List.orderedInsert_cons, if_neg before, List.insertionSort_cons, ih later,
        orderedInsert_refined fun next member _ _ => inserted next member, List.insertionSort_cons,
        orderedInsert_refined fun next member _ _ => all next member]
      -- The two entries are not tied, for the first order puts one of them before the other.
      by_cases strict : Refined second first entry other
      · have back : ¬ Refined second first other entry := fun back => before (strict.2 back.1)
        exact (orderedInsert_comm back _).symm
      · exact orderedInsert_comm strict _

/-- Sorting stably by a second order is sorting by both. -/
theorem insertionSort_insertionSort (entries : List Entry) :
    (entries.insertionSort first).insertionSort second =
      entries.insertionSort (Refined second first) := by
  induction entries with
  | nil => rfl
  | cons entry rest ih =>
    rw [List.insertionSort_cons, insertionSort_orderedInsert (List.pairwise_insertionSort first rest),
      ih, List.insertionSort_cons]

end Sorting

/-- Two entries of a list without repetitions stand in one order only. -/
theorem not_sublist_both {Entry : Type*} {one two : Entry} {entries : List Entry} (nodup : entries.Nodup)
    (before : [one, two].Sublist entries) (after : [two, one].Sublist entries) : False := by
  induction entries with
  | nil => cases before
  | cons entry rest ih =>
    obtain ⟨fresh, later⟩ := List.nodup_cons.mp nodup
    cases before with
    | cons _ before =>
      cases after with
      | cons _ after => exact ih later before after
      | cons_cons _ after => exact fresh (before.subset (by simp))
    | cons_cons _ before =>
      cases after with
      | cons _ after => exact fresh (after.subset (by simp))
      | cons_cons _ after => exact fresh (before.subset (by simp))

/-! ## Own keys -/

/-- `key` as an array index. -/
def arrayIndex (key : String) : Option Nat :=
  let value := Nat.ofDigitChars 10 key.toList 0
  if key.toList = Nat.toDigits 10 value ∧ value < 4294967295 then some value else none

def ownBefore (one two : String) : Bool :=
  match arrayIndex one, arrayIndex two with
  | some low, some high => low ≤ high
  | none, some _ => false
  | _, none => true

/-- The order in which an object lists its keys; keys that are no array indices
stay in the order they were added. -/
def ownKeys : Collation where
  before := ownBefore
  total one two := by
    unfold ownBefore
    cases arrayIndex one <;> cases arrayIndex two <;> simp
    exact Nat.le_total _ _
  trans one two three := by
    unfold ownBefore
    cases arrayIndex one <;> cases arrayIndex two <;> cases arrayIndex three <;> simp
    exact Nat.le_trans

/-- The second order, with the first one among the keys it leaves tied. -/
def Collation.refine (second first : Collation) : Collation where
  before one two := second.before one two && (!second.before two one || first.before one two)
  total one two := by
    have secondTotal := second.total one two
    have firstTotal := first.total one two
    simp only [Bool.and_eq_true, Bool.or_eq_true, Bool.not_eq_true']
    grind
  trans one two three := by
    have secondTrans := second.trans
    have firstTrans := first.trans one two three
    simp only [Bool.and_eq_true, Bool.or_eq_true, Bool.not_eq_true']
    grind

theorem Collation.refine_fields (second first : Collation) (one two : String × Json) :
    (second.refine first).Fields one two ↔ Refined second.Fields first.Fields one two := by
  simp only [Collation.Fields, Collation.refine, Refined, Bool.and_eq_true, Bool.or_eq_true,
    Bool.not_eq_true']
  grind

theorem Collation.refine_tied (second first : Collation) {one two : String} :
    (second.refine first).Tied one two ↔ second.Tied one two ∧ first.Tied one two := by
  simp only [Collation.Tied, Collation.refine, Bool.and_eq_true, Bool.or_eq_true, Bool.not_eq_true']
  grind

namespace Json

theorem sort_refined (first second : Collation) (fields : List (String × Json)) :
    fields.insertionSort (Refined second.Fields first.Fields) =
      fields.insertionSort (second.refine first).Fields := by
  have same := List.map_insertionSort (Refined second.Fields first.Fields)
    (second.refine first).Fields id fields fun one _ two _ => (second.refine_fields first one two).symm
  simpa using same

theorem sort_sort (first second : Collation) (fields : List (String × Json)) :
    (fields.insertionSort first.Fields).insertionSort second.Fields =
      fields.insertionSort (second.refine first).Fields := by
  rw [insertionSort_insertionSort, sort_refined]

/-- Arranging by two orders after each other is arranging by both. -/
theorem arranged_refine (first second : Collation) (value : Json) :
    arranged second (arranged first value) = arranged (second.refine first) value := by
  match value with
  | .null | .bool _ | .num _ | .str _ => rfl
  | .arr items =>
    simp only [arranged, Json.arr.injEq, arrangedItems_eq, List.map_map]
    exact List.map_congr_left fun item member => arranged_refine first second item
  | .obj fields =>
    simp only [arranged, Json.obj.injEq, arrangedFields_eq]
    rw [List.map_insertionSort first.Fields first.Fields]
    · rw [sort_sort, List.map_map]
      congr 1
      refine List.map_congr_left fun field member => ?_
      simp only [Function.comp_apply, arranged_refine first second field.2]
    · exact fun _ _ _ _ => Iff.rfl
termination_by sizeOf value
decreasing_by
  · exact sizeOf_item_lt member
  · exact sizeOf_field_lt member

/-! ## When the order of keys does not matter -/

variable {collation : Collation}

theorem same_refl (value : Json) : Same value value := same_of_arranged ownKeys value value rfl

theorem sameFields_refl (fields : List (String × Json)) : SameFields fields fields :=
  sameFields_of_perm ownKeys (fun _ _ other => same_of_arranged ownKeys _ other) (.refl _)

theorem same_of_perm {fields others : List (String × Json)} (perm : fields.Perm others) :
    Same (.obj fields) (.obj others) := by
  rw [Same]
  refine sameFields_of_perm ownKeys (fun _ _ other => same_of_arranged ownKeys _ other) ?_
  rw [arrangedFields_eq, arrangedFields_eq]
  exact perm.map _

theorem sameFields_replace {before after : List (String × Json)} {name : String} {value other : Json}
    (same : Same value other) :
    SameFields (before ++ (name, value) :: after) (before ++ (name, other) :: after) := by
  induction before with
  | nil =>
    rw [List.nil_append, SameFields]
    exact ⟨[], other, after, rfl, same, sameFields_refl after⟩
  | cons field before ih =>
    obtain ⟨key, held⟩ := field
    rw [List.cons_append, SameFields]
    exact ⟨[], held, before ++ (name, other) :: after, rfl, same_refl held, ih⟩

theorem sameItems_replace {before after : List Json} {value other : Json} (same : Same value other) :
    SameItems (before ++ value :: after) (before ++ other :: after) := by
  have rest : SameItems after after :=
    sameItems_of_map ownKeys (fun _ _ other => same_of_arranged ownKeys _ other) rfl
  induction before with
  | nil =>
    rw [List.nil_append, List.nil_append, SameItems]
    exact ⟨same, rest⟩
  | cons item before ih =>
    rw [List.cons_append, List.cons_append, SameItems]
    exact ⟨same_refl item, ih⟩

theorem distinctItems_mem {items : List Json} (distinct : DistinctItems items) :
    ∀ item ∈ items, Distinct item := by
  induction items with
  | nil => simp
  | cons item rest ih =>
    rw [DistinctItems] at distinct
    rintro other (_ | ⟨_, member⟩)
    · exact distinct.1
    · exact ih distinct.2 other member

variable {fields : List (String × Json)}

theorem distinctFields_mem (distinct : DistinctFields fields) :
    ∀ field ∈ fields, Distinct field.2 := by
  induction fields with
  | nil => simp
  | cons field rest ih =>
    obtain ⟨name, value⟩ := field
    rw [DistinctFields] at distinct
    rintro other (_ | ⟨_, member⟩)
    · exact distinct.1
    · exact ih distinct.2 other member

theorem distinctItems_of_mem {items : List Json} (distinct : ∀ item ∈ items, Distinct item) :
    DistinctItems items := by
  induction items with
  | nil => simp [DistinctItems]
  | cons item rest ih =>
    rw [DistinctItems]
    exact ⟨distinct item List.mem_cons_self, ih fun other member =>
      distinct other (List.mem_cons_of_mem _ member)⟩

theorem distinctFields_of_mem (distinct : ∀ field ∈ fields, Distinct field.2) : DistinctFields fields := by
  induction fields with
  | nil => simp [DistinctFields]
  | cons field rest ih =>
    rw [DistinctFields]
    exact ⟨distinct field List.mem_cons_self, ih fun other member =>
      distinct other (List.mem_cons_of_mem _ member)⟩

theorem sameItems_source {items others : List Json} (same : SameItems items others) :
    ∀ other ∈ others, ∃ item ∈ items, Same item other := by
  induction items generalizing others with
  | nil =>
    cases others with
    | nil => simp
    | cons other others => simp [SameItems] at same
  | cons item rest ih =>
    cases others with
    | nil => simp
    | cons other others =>
      rw [SameItems] at same
      intro next member
      rcases List.mem_cons.mp member with rfl | later
      · exact ⟨item, List.mem_cons_self, same.1⟩
      · obtain ⟨source, among, related⟩ := ih same.2 next later
        exact ⟨source, List.mem_cons_of_mem _ among, related⟩

theorem sameFields_source {fields others : List (String × Json)} (same : SameFields fields others) :
    (fields.map Prod.fst).Perm (others.map Prod.fst) ∧
      ∀ other ∈ others, ∃ field ∈ fields, Same field.2 other.2 := by
  induction fields generalizing others with
  | nil =>
    rw [SameFields] at same
    subst same
    exact ⟨.refl _, by simp⟩
  | cons field rest ih =>
    obtain ⟨name, value⟩ := field
    rw [SameFields] at same
    obtain ⟨before, other, after, rfl, here, later⟩ := same
    obtain ⟨names, sources⟩ := ih later
    refine ⟨?_, fun next member => ?_⟩
    · simp only [List.map_cons, List.map_append] at names ⊢
      exact (names.cons name).trans List.perm_middle.symm
    · rcases List.mem_cons.mp (List.perm_middle.mem_iff.mp member) with rfl | among
      · exact ⟨_, List.mem_cons_self, here⟩
      · obtain ⟨source, listed, related⟩ := sources next among
        exact ⟨source, List.mem_cons_of_mem _ listed, related⟩

/-- Another order of the keys repeats no key. -/
theorem distinct_of_same (value other : Json) (distinct : value.Distinct) (same : Same value other) :
    other.Distinct := by
  match value, other with
  | .null, .null | .bool _, .bool _ | .num _, .num _ | .str _, .str _ => simp [Distinct]
  | .arr items, .arr others =>
    rw [Distinct] at distinct ⊢
    rw [Same] at same
    refine distinctItems_of_mem fun next among => ?_
    obtain ⟨item, member, related⟩ := sameItems_source same next among
    exact distinct_of_same item next (distinctItems_mem distinct item member) related
  | .obj fields, .obj others =>
    rw [Distinct] at distinct ⊢
    rw [Same] at same
    obtain ⟨names, sources⟩ := sameFields_source same
    refine ⟨names.nodup_iff.mp distinct.1, distinctFields_of_mem fun next among => ?_⟩
    obtain ⟨field, member, related⟩ := sources next among
    exact distinct_of_same field.2 next.2 (distinctFields_mem distinct.2 field member) related
termination_by sizeOf value
decreasing_by
  · exact sizeOf_item_lt member
  · exact sizeOf_field_lt member

theorem untiedItems_of_mem {items : List Json} (untied : ∀ item ∈ items, Untied collation item) :
    UntiedItems collation items := by
  induction items with
  | nil => simp [UntiedItems]
  | cons item rest ih =>
    rw [UntiedItems]
    exact ⟨untied item List.mem_cons_self, ih fun other member =>
      untied other (List.mem_cons_of_mem _ member)⟩

theorem untiedFields_of_mem
    (untied : ∀ field ∈ fields, Untied collation field.2) : UntiedFields collation fields := by
  induction fields with
  | nil => simp [UntiedFields]
  | cons field rest ih =>
    rw [UntiedFields]
    exact ⟨untied field List.mem_cons_self, ih fun other member =>
      untied other (List.mem_cons_of_mem _ member)⟩

/-- The arrangement of a document does not depend on the order of its keys. -/
def Settled (collation : Collation) (value : Json) : Prop :=
  ∀ other, Same value other → arranged collation value = arranged collation other

theorem Settled.item {before after : List Json} {value : Json}
    (settled : Settled collation (.arr (before ++ value :: after))) : Settled collation value := by
  intro other same
  have equal := settled (.arr (before ++ other :: after)) (by rw [Same]; exact sameItems_replace same)
  simpa [arranged, arrangedItems_eq] using equal

theorem Settled.field {before after : List (String × Json)} {name : String} {value : Json}
    (settled : Settled collation (.obj (before ++ (name, value) :: after)))
    (nodup : ((before ++ (name, value) :: after).map Prod.fst).Nodup) : Settled collation value := by
  intro other same
  have equal := settled (.obj (before ++ (name, other) :: after)) (by
    rw [Same]
    exact sameFields_replace same)
  have fields := arrangedFields_of_arranged collation (by simp) nodup equal
  simpa [arrangedFields_eq] using fields

theorem Settled.untied_names (settled : Settled collation (.obj fields))
    (nodup : (fields.map Prod.fst).Nodup) :
    fields.Pairwise fun one two => ¬ collation.Tied one.1 two.1 := by
  refine List.pairwise_iff_forall_sublist.mpr fun {one two} before tied => ?_
  obtain ⟨rest, perm⟩ := before.exists_perm_append
  have swapped : fields.Perm (two :: one :: rest) := perm.trans (.swap two one rest)
  have equal := settled (.obj (two :: one :: rest)) (same_of_perm swapped)
  simp only [arranged, Json.obj.injEq, arrangedFields_eq] at equal
  have first : [(one.1, arranged collation one.2), (two.1, arranged collation two.2)].Sublist
      ((fields.map fun field => (field.1, arranged collation field.2)).insertionSort collation.Fields) :=
    List.pair_sublist_insertionSort tied.1
      (before.map fun field : String × Json => (field.1, arranged collation field.2))
  have second : [(two.1, arranged collation two.2), (one.1, arranged collation one.2)].Sublist
      (((two :: one :: rest).map fun field => (field.1, arranged collation field.2)).insertionSort
        collation.Fields) :=
    List.pair_sublist_insertionSort tied.2 (by simp)
  rw [← equal] at second
  have names : (((fields.map fun field => (field.1, arranged collation field.2)).insertionSort
      collation.Fields).map Prod.fst).Nodup := by
    have sorted := (List.perm_insertionSort collation.Fields
      (fields.map fun field => (field.1, arranged collation field.2))).map Prod.fst
    rw [sorted.nodup_iff, List.map_map]
    exact nodup
  exact not_sublist_both names (first.map Prod.fst) (second.map Prod.fst)

theorem Settled.untied (value : Json) (distinct : value.Distinct) (settled : Settled collation value) :
    Untied collation value := by
  match value with
  | .null | .bool _ | .num _ | .str _ => simp [Untied]
  | .arr items =>
    rw [Untied]
    rw [Distinct] at distinct
    refine untiedItems_of_mem fun item member => ?_
    obtain ⟨before, after, rfl⟩ := List.append_of_mem member
    exact Settled.untied item (distinctItems_mem distinct item member) settled.item
  | .obj fields =>
    rw [Untied]
    rw [Distinct] at distinct
    refine ⟨settled.untied_names distinct.1, untiedFields_of_mem fun field member => ?_⟩
    obtain ⟨before, after, rfl⟩ := List.append_of_mem member
    exact Settled.untied field.2 (distinctFields_mem distinct.2 field member)
      (settled.field distinct.1)
termination_by sizeOf value
decreasing_by
  · subst_vars
    exact sizeOf_item_lt member
  · subst_vars
    exact sizeOf_field_lt member

/-! ## When a second order of ties does not matter -/

mutual

/-- In every record the keys that the order leaves tied stand in the given order. -/
def TiesOrdered (collation first : Collation) : Json → Prop
  | .arr items => TiesOrderedItems collation first items
  | .obj fields =>
    (fields.Pairwise fun one two => collation.Tied one.1 two.1 → first.before one.1 two.1 = true) ∧
      TiesOrderedFields collation first fields
  | .null | .bool _ | .num _ | .str _ => True

def TiesOrderedItems (collation first : Collation) : List Json → Prop
  | [] => True
  | item :: rest => TiesOrdered collation first item ∧ TiesOrderedItems collation first rest

def TiesOrderedFields (collation first : Collation) : List (String × Json) → Prop
  | [] => True
  | (_, value) :: rest => TiesOrdered collation first value ∧ TiesOrderedFields collation first rest

end

theorem tiesOrderedItems_iff {first : Collation} {items : List Json} :
    TiesOrderedItems collation first items ↔ ∀ item ∈ items, TiesOrdered collation first item := by
  induction items with
  | nil => simp [TiesOrderedItems]
  | cons item rest ih => simp [TiesOrderedItems, ih]

theorem tiesOrderedFields_iff {first : Collation} :
    TiesOrderedFields collation first fields ↔
      ∀ field ∈ fields, TiesOrdered collation first field.2 := by
  induction fields with
  | nil => simp [TiesOrderedFields]
  | cons field rest ih => simp [TiesOrderedFields, ih]

theorem sort_refine_eq_iff {first : Collation} :
    fields.insertionSort (collation.refine first).Fields = fields.insertionSort collation.Fields ↔
      fields.Pairwise fun one two => collation.Tied one.1 two.1 → first.before one.1 two.1 = true := by
  constructor
  · intro equal
    refine List.pairwise_iff_forall_sublist.mpr fun {one two} before tied => ?_
    -- The stable sort keeps the pair, and in the other one it stands by both orders.
    have kept : [one, two].Sublist (fields.insertionSort collation.Fields) :=
      List.pair_sublist_insertionSort tied.1 before
    rw [← equal] at kept
    have sorted := List.pairwise_iff_forall_sublist.mp
      (List.pairwise_insertionSort (collation.refine first).Fields fields) kept
    exact ((collation.refine_fields first one two).mp sorted).2 tied.2
  · intro ordered
    rw [← sort_refined]
    exact (insertionSort_refined (ordered.imp fun leads before after => leads ⟨before, after⟩)).symm

/-- Sorting the ties of a document changes nothing exactly if they are sorted. -/
theorem arranged_refine_eq_iff (collation first : Collation) (value : Json) (distinct : value.Distinct) :
    arranged (collation.refine first) value = arranged collation value ↔
      TiesOrdered collation first value := by
  match value with
  | .null | .bool _ | .num _ | .str _ => simp [arranged, TiesOrdered]
  | .arr items =>
    rw [Distinct] at distinct
    simp only [arranged, TiesOrdered, Json.arr.injEq, arrangedItems_eq, List.map_inj_left,
      tiesOrderedItems_iff]
    exact forall₂_congr fun item member =>
      arranged_refine_eq_iff collation first item (distinctItems_mem distinct item member)
  | .obj fields =>
    rw [Distinct] at distinct
    have inner : arrangedFields (collation.refine first) fields = arrangedFields collation fields ↔
        TiesOrderedFields collation first fields := by
      simp only [arrangedFields_eq, List.map_inj_left, tiesOrderedFields_iff, Prod.mk.injEq, true_and]
      exact forall₂_congr fun field member =>
        arranged_refine_eq_iff collation first field.2 (distinctFields_mem distinct.2 field member)
    have ties : ((arrangedFields collation fields).Pairwise fun one two =>
        collation.Tied one.1 two.1 → first.before one.1 two.1 = true) ↔
        fields.Pairwise fun one two => collation.Tied one.1 two.1 → first.before one.1 two.1 = true := by
      rw [arrangedFields_eq, List.pairwise_map]
    simp only [arranged, TiesOrdered, Json.obj.injEq, ← inner, ← ties, ← sort_refine_eq_iff]
    constructor
    · intro equal
      have perm := (List.perm_insertionSort (collation.refine first).Fields
        (arrangedFields (collation.refine first) fields)).symm
      rw [equal] at perm
      have same := eq_of_perm_of_keys (perm.trans (List.perm_insertionSort collation.Fields _))
        (by simp [arrangedFields_eq]) (by simpa [arrangedFields_eq, Function.comp_def] using distinct.1)
      exact ⟨by rw [← equal, same], same⟩
    · rintro ⟨sorted, same⟩
      rw [same, sorted]
termination_by sizeOf value
decreasing_by
  · exact sizeOf_item_lt member
  · exact sizeOf_field_lt member

/-- Where only equal keys are tied, documents whose keys are distinct have no tied keys. -/
theorem untied_of_distinct (ties : ∀ one two, collation.Tied one two → one = two) (value : Json)
    (distinct : value.Distinct) : Untied collation value := by
  match value with
  | .null | .bool _ | .num _ | .str _ => simp [Untied]
  | .arr items =>
    rw [Untied]
    rw [Distinct] at distinct
    exact untiedItems_of_mem fun item member =>
      untied_of_distinct ties item (distinctItems_mem distinct item member)
  | .obj fields =>
    rw [Untied]
    rw [Distinct] at distinct
    refine ⟨?_, untiedFields_of_mem fun field member =>
      untied_of_distinct ties field.2 (distinctFields_mem distinct.2 field member)⟩
    have apart := List.pairwise_map.mp distinct.1
    exact apart.imp fun differ tied => differ (ties _ _ tied)
termination_by sizeOf value
decreasing_by
  · exact sizeOf_item_lt member
  · exact sizeOf_field_lt member

/-- Where only equal keys are tied, documents are the same up to the order of keys
exactly if they are arranged alike. -/
theorem same_iff_arranged (ties : ∀ one two, collation.Tied one two → one = two) {value other : Json}
    (distinct : value.Distinct) : Same value other ↔ arranged collation value = arranged collation other :=
  ⟨arranged_of_same value other (untied_of_distinct ties value distinct), same_of_arranged collation value other⟩

/-- Fields with different keys may be filtered before they are sorted. -/
theorem filter_insertionSort (ties : ∀ one two, collation.Tied one two → one = two)
    (distinct : (fields.map Prod.fst).Nodup) (p : String × Json → Bool) :
    (fields.insertionSort collation.Fields).filter p = (fields.filter p).insertionSort collation.Fields := by
  have sorted := List.perm_insertionSort collation.Fields fields
  refine List.Perm.eq_of_pairwise ?_ ((List.pairwise_insertionSort _ _).filter _)
    (List.pairwise_insertionSort _ _) ((sorted.filter _).trans (List.perm_insertionSort _ _).symm)
  intro one two member member' before after
  have here := sorted.mem_iff.mp (List.mem_of_mem_filter member)
  have there := List.mem_of_mem_filter ((List.perm_insertionSort collation.Fields _).mem_iff.mp member')
  exact List.inj_on_of_nodup_map distinct here there (ties _ _ ⟨before, after⟩)

end Json

end RpaEnterprise.Lib
