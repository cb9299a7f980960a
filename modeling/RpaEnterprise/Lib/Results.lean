import Mathlib.Data.List.Forall2

/-!
# Results that may be errors

A computation returns a value or an error and stops at the first error.  What a
returned value says of the parts it was put together from: of a sequence, of a
translation of every entry of a list, and of a translation that may leave entries
out.
-/

namespace RpaEnterprise.Lib

variable {Error Value Result Source Target : Type}

theorem bind_eq_ok {first : Except Error Value} {rest : Value → Except Error Result} {result : Result} :
    (first >>= rest) = .ok result ↔ ∃ value, first = .ok value ∧ rest value = .ok result := by
  cases first with
  | error error => simp [bind, Except.bind]
  | ok value => simp [bind, Except.bind]

/-- Every entry in turn, up to the first error. -/
def translateAll (translate : Source → Except Error Target) : List Source → Except Error (List Target)
  | [] => .ok []
  | source :: rest => do
    let target ← translate source
    let targets ← translateAll translate rest
    pure (target :: targets)

theorem translateAll_eq_ok {translate : Source → Except Error Target} {sources : List Source}
    {targets : List Target} :
    translateAll translate sources = .ok targets ↔
      List.Forall₂ (fun source target => translate source = .ok target) sources targets := by
  induction sources generalizing targets with
  | nil => simp [translateAll, eq_comm]
  | cons source rest ih =>
    simp only [translateAll, bind_eq_ok, ih, List.forall₂_cons_left_iff, pure, Except.pure,
      Except.ok.injEq]
    constructor
    · rintro ⟨target, first, others, later, rfl⟩
      exact ⟨target, others, first, later, rfl⟩
    · rintro ⟨target, others, first, later, rfl⟩
      exact ⟨target, first, others, later, rfl⟩

/-- Every entry of the result comes from an entry that was translated. -/
theorem source_of_mem {translate : Source → Except Error Target} {sources : List Source}
    {targets : List Target} (all : translateAll translate sources = .ok targets) {target : Target}
    (member : target ∈ targets) : ∃ source ∈ sources, translate source = .ok target := by
  rw [translateAll_eq_ok] at all
  induction all with
  | nil => cases member
  | @cons source first rest others same later ih =>
    rcases List.mem_cons.mp member with rfl | among
    · exact ⟨source, List.mem_cons_self, same⟩
    · obtain ⟨origin, listed, translated⟩ := ih among
      exact ⟨origin, List.mem_cons_of_mem _ listed, translated⟩

/-- The whole list is translated exactly if every entry is. -/
theorem exists_translateAll_iff {translate : Source → Except Error Target} {sources : List Source} :
    (∃ targets, translateAll translate sources = .ok targets) ↔
      ∀ source ∈ sources, ∃ target, translate source = .ok target := by
  induction sources with
  | nil => simp [translateAll]
  | cons source rest ih =>
    rw [List.forall_mem_cons, ← ih]
    simp only [translateAll, bind_eq_ok, pure, Except.pure, Except.ok.injEq]
    constructor
    · rintro ⟨-, target, first, others, later, rfl⟩
      exact ⟨⟨target, first⟩, others, later⟩
    · rintro ⟨⟨target, first⟩, others, later⟩
      exact ⟨target :: others, target, first, others, later, rfl⟩

/-- A list without the entries that have no translation is related entry by entry
only if every entry has one. -/
theorem forall₂_filterMap_iff {Related : Source → Target → Prop} {translate : Source → Option Target}
    {sources : List Source} :
    List.Forall₂ Related sources (sources.filterMap translate) ↔
      ∀ source ∈ sources, ∃ target, translate source = some target ∧ Related source target := by
  induction sources with
  | nil => simp
  | cons source rest ih =>
    cases found : translate source with
    | none =>
      -- an entry that is left out makes the second list shorter
      have shorter := List.length_filterMap_le translate rest
      simp only [List.filterMap_cons_none found, List.forall_mem_cons, found, reduceCtorEq,
        false_and, exists_false, iff_false]
      intro all
      have same := all.length_eq
      simp only [List.length_cons] at same
      omega
    | some target => simp [List.filterMap_cons_some found, ih, found]

end RpaEnterprise.Lib
