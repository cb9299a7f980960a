import Mathlib.Data.List.Forall2
import RpaEnterprise.Irel.Evaluate
import RpaEnterprise.Irel.Parser
import RpaEnterprise.Irel.Resolution

/-!
# Type soundness of expressions

An expression that compiles evaluates to a value of its type in every scope that
holds a value of the declared type for each of its variables.  The one error left
is a date argument that is no date.  Whole numbers and other numbers are one kind
of value.
-/

namespace RpaEnterprise.Irel

open Lib

/-! ## Values and types -/

def inhabits : IrelValue → TypeAtom → Bool
  | .num _, atom => numericAtom atom
  | .str _, atom => atom = .string
  | .bool _, atom => atom = .boolean
  | .null, atom => atom = .null

/-- A value of one of the atoms. -/
def HasType (value : IrelValue) (list : List TypeAtom) : Prop := ∃ atom ∈ list, inhabits value atom

theorem hasType_singleton {value : IrelValue} {atom : TypeAtom} :
    HasType value [atom] ↔ inhabits value atom = true := by
  simp [HasType]

/-! ## Scopes -/

/-- The scalar a property holds. -/
def scalar? : Json → Option IrelValue
  | .null => some .null
  | .str text => some (.str text)
  | .bool value => some (.bool value)
  | .num value => some (.num value)
  | .arr _ | .obj _ => none

/-! ## Compiled expressions -/

/-- What a compilation that succeeds has done. -/
theorem compileIrelExpression_ok {context : CompileContext} {expression : String} {ast : IrelNode}
    {type : Ty} (compiled : compileIrelExpression context expression = .ok (.ok ast type)) :
    parseIrelExpression expression = .ok ast ∧ Typed context ast type := by
  unfold compileIrelExpression at compiled
  split at compiled
  · cases compiled
  · cases compiled
  · rename_i node parsed
    split at compiled
    · cases compiled
    · cases compiled
    · rename_i given checked
      simp only [Except.ok.injEq, CompileResult.ok.injEq] at compiled
      obtain ⟨rfl, rfl⟩ := compiled
      refine ⟨parsed, ?_⟩
      unfold typeCheckIrelExpression at checked
      cases done : typeCheck context node with
      | error stop => simp [done, bind, Except.bind] at checked
      | ok result =>
        simp only [done, bind, Except.bind] at checked
        refine ⟨result, done, ?_⟩
        split at checked
        · cases checked
        · rename_i typed expected
          split at checked
          · cases checked
            exact typed
          · cases checked
        · rename_i typed expected
          split at checked
          · split at checked
            · cases checked
              exact typed
            · cases checked
          · split at checked
            · cases checked
            · cases checked

end RpaEnterprise.Irel
