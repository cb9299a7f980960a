import Mathlib.Data.List.Induction
import Mathlib.Data.List.Nodup

/-!
# The first entry of every key

A list is walked once, and an entry is kept if its key was not seen before.  An
entry that is not kept may mean something else than the one that was kept for its
key; that never happens exactly if the key determines the meaning.
-/

namespace RpaEnterprise.Lib

variable {Entry Key Meaning : Type*} [DecidableEq Key] (key : Entry → Key)

/-- The entry is added unless its key is among those of the entries kept. -/
def keep (kept : List Entry) (entry : Entry) : List Entry :=
  if key entry ∈ kept.map key then kept else kept ++ [entry]

/-- The first entry of every key. -/
def firsts (entries : List Entry) : List Entry := entries.foldl (keep key) []

variable {key}

theorem firsts_concat (entries : List Entry) (entry : Entry) :
    firsts key (entries ++ [entry]) = keep key (firsts key entries) entry :=
  List.foldl_concat ..

theorem firsts_sublist (entries : List Entry) : (firsts key entries).Sublist entries := by
  induction entries using List.reverseRecOn with
  | nil => exact .refl _
  | append_singleton entries entry ih =>
    rw [firsts_concat, keep]
    split
    · exact ih.trans (List.sublist_append_left entries [entry])
    · exact ih.append (.refl _)

/-- Later entries are kept behind the earlier ones. -/
theorem firsts_append (entries later : List Entry) :
    ∃ added, firsts key (entries ++ later) = firsts key entries ++ added ∧ added.Sublist later := by
  induction later using List.reverseRecOn with
  | nil => exact ⟨[], by simp, .refl _⟩
  | append_singleton later entry ih =>
    obtain ⟨added, same, listed⟩ := ih
    rw [← List.append_assoc, firsts_concat, keep, same]
    split
    · exact ⟨added, rfl, listed.trans (List.sublist_append_left later [entry])⟩
    · exact ⟨added ++ [entry], List.append_assoc .., listed.append (.refl _)⟩

theorem nodup_keys_firsts (entries : List Entry) : ((firsts key entries).map key).Nodup := by
  induction entries using List.reverseRecOn with
  | nil => exact List.nodup_nil
  | append_singleton entries entry ih =>
    rw [firsts_concat, keep]
    split
    · exact ih
    · rename_i new
      rw [List.map_append]
      exact List.nodup_append.mpr ⟨ih, List.nodup_singleton _, fun other member added mem same =>
        new (List.mem_singleton.mp mem ▸ same ▸ member)⟩

/-- What is kept of the entries up to any of them ends with that entry or holds one of its
meaning. -/
def Faithful (meaning : Entry → Meaning) (entries kept : List Entry) : Prop :=
  ∀ before entry after, entries = before ++ entry :: after →
    ∃ earlier later, kept = earlier ++ later ∧ earlier.Sublist before ∧
      later.Sublist (entry :: after) ∧
      (later.head? = some entry ∨ ∃ other ∈ earlier, meaning other = meaning entry)

omit [DecidableEq Key] in
theorem Faithful.kept {meaning : Entry → Meaning} {entries kept : List Entry}
    (faithful : Faithful meaning entries kept) {entry : Entry} (member : entry ∈ entries) :
    ∃ other ∈ kept, meaning other = meaning entry := by
  obtain ⟨before, after, rfl⟩ := List.append_of_mem member
  obtain ⟨earlier, later, rfl, -, -, here | ⟨other, among, same⟩⟩ := faithful before entry after rfl
  · exact ⟨entry, List.mem_append_right _ (List.mem_of_head? here), rfl⟩
  · exact ⟨other, List.mem_append_left _ among, same⟩

/-- Only entries of one meaning are dropped exactly if entries of one key have one meaning. -/
theorem faithful_iff {meaning : Entry → Meaning} {entries : List Entry}
    (determines : ∀ one ∈ entries, ∀ two ∈ entries, meaning one = meaning two → key one = key two) :
    Faithful meaning entries (firsts key entries) ↔
      ∀ one ∈ entries, ∀ two ∈ entries, key one = key two → meaning one = meaning two := by
  constructor
  · intro faithful one member two member' same
    obtain ⟨kept, among, meant⟩ := faithful.kept member
    obtain ⟨kept', among', meant'⟩ := faithful.kept member'
    have inputs : firsts key entries ⊆ entries := (firsts_sublist entries).subset
    have keys : key kept = key kept' :=
      (determines kept (inputs among) one member meant).trans
        (same.trans (determines kept' (inputs among') two member' meant').symm)
    have equal : kept = kept' := List.inj_on_of_nodup_map (nodup_keys_firsts entries) among among' keys
    rw [← meant, ← meant', equal]
  · rintro means before entry after rfl
    have rest : firsts key (before ++ entry :: after) = firsts key ((before ++ [entry]) ++ after) := by
      rw [List.append_assoc, List.singleton_append]
    obtain ⟨added, all, listed⟩ := @firsts_append _ _ _ key (before ++ [entry]) after
    rw [rest, all, firsts_concat, keep]
    split
    · rename_i seen
      obtain ⟨other, among, same⟩ := List.mem_map.mp seen
      refine ⟨firsts key before, added, rfl, firsts_sublist before, listed.cons _, .inr
        ⟨other, among, means other ?_ entry ?_ same⟩⟩
      · exact List.mem_append_left _ ((firsts_sublist before).subset among)
      · exact List.mem_append_right _ List.mem_cons_self
    · exact ⟨firsts key before, entry :: added, by simp, firsts_sublist before, listed.cons_cons _, .inl rfl⟩

end RpaEnterprise.Lib
