import RpaEnterprise.Irel.Compile
import RpaEnterprise.Lib.Results

/-!
# What the checker accepts

One lemma for each part of the checker says what a check that came to an end
went through.  Of calls one relation says which are accepted: those of a listed
function with its arity, whose argument types fit.
-/

namespace RpaEnterprise.Irel

open Lib

/-! ## Checks -/

@[simp] theorem okType_type (type : Ty) : (okType type).type = some type := rfl

@[simp] theorem failType_type : failType.type = none := rfl

@[simp] theorem refuse_type (code : CompileErrorCode) (reason : DiagnosticReason) (detail : String) :
    (refuse code reason detail).type = none := rfl

@[simp] theorem typeMismatch_type (detail : String) : (typeMismatch detail).type = none := rfl

@[simp] theorem unknownNodeField_type (detail : String) : (unknownNodeField detail).type = none := rfl

@[simp] theorem wrongArity_type (name : String) (expected got : Nat) :
    (wrongArity name expected got).type = none := rfl

/-! ## Typed trees -/

variable {context : CompileContext} {type : Ty}

/-- The checker gives a tree a type. -/
def Typed (context : CompileContext) (node : IrelNode) (type : Ty) : Prop :=
  ∃ checked, typeCheck context node = .ok checked ∧ checked.type = some type

/-- Both operands were checked; with both typed the operator was checked too. -/
theorem checkOperands_ok {left right : Except TypeError Checked} {checked : Checked}
    {check : Ty → Ty → Except TypeError Checked} (done : checkOperands left right check = .ok checked) :
    ∃ one two, left = .ok one ∧ right = .ok two ∧
      ((∃ leftType rightType operator, one.type = some leftType ∧ two.type = some rightType ∧
          check leftType rightType = .ok operator ∧
          checked = ⟨operator.type, one.diagnostics ++ two.diagnostics ++ operator.diagnostics⟩) ∨
        (one.type = none ∨ two.type = none) ∧ checked = ⟨none, one.diagnostics ++ two.diagnostics⟩) := by
  simp only [checkOperands, bind_eq_ok] at done
  obtain ⟨one, rfl, two, rfl, done⟩ := done
  refine ⟨one, two, rfl, rfl, ?_⟩
  split at done
  next leftType rightType leftTyped rightTyped =>
    obtain ⟨operator, accepted, same⟩ := bind_eq_ok.mp done
    exact .inl ⟨leftType, rightType, operator, leftTyped, rightTyped, accepted, (Except.ok.inj same).symm⟩
  next someFailed =>
    refine .inr ⟨?_, (Except.ok.inj done).symm⟩
    by_contra! typed
    obtain ⟨leftType, leftTyped⟩ := Option.ne_none_iff_exists'.mp typed.1
    obtain ⟨rightType, rightTyped⟩ := Option.ne_none_iff_exists'.mp typed.2
    exact someFailed leftType rightType leftTyped rightTyped

theorem Typed.operands {left right : IrelNode} {checked : Checked}
    {check : Ty → Ty → Except TypeError Checked}
    (done : checkOperands (typeCheck context left) (typeCheck context right) check = .ok checked)
    (typed : checked.type = some type) :
    ∃ leftType rightType operator, Typed context left leftType ∧ Typed context right rightType ∧
      check leftType rightType = .ok operator ∧ operator.type = some type := by
  obtain ⟨one, two, leftDone, rightDone, ⟨leftType, rightType, operator, leftTyped, rightTyped, accepted, rfl⟩ |
    ⟨-, rfl⟩⟩ := checkOperands_ok done
  · exact ⟨leftType, rightType, operator, ⟨one, leftDone, leftTyped⟩, ⟨two, rightDone, rightTyped⟩, accepted, typed⟩
  · cases typed

theorem typeCheck_unary {expr : IrelNode} {grouped : Bool} {checked : Checked}
    (done : typeCheck context (.unary expr grouped) = .ok checked) :
    ∃ inner, typeCheck context expr = .ok inner ∧ (inner.type = none ∧ checked = inner ∨
      ∃ type operator, inner.type = some type ∧ typeCheckUnary type = .ok operator ∧
        checked = ⟨operator.type, inner.diagnostics ++ operator.diagnostics⟩) := by
  rw [typeCheck, bind_eq_ok] at done
  obtain ⟨inner, innerDone, done⟩ := done
  refine ⟨inner, innerDone, ?_⟩
  split at done
  next failed => exact .inl ⟨failed, (Except.ok.inj done).symm⟩
  next type innerTyped =>
    obtain ⟨operator, accepted, same⟩ := bind_eq_ok.mp done
    exact .inr ⟨type, operator, innerTyped, accepted, (Except.ok.inj same).symm⟩

theorem Typed.unary {expr : IrelNode} {grouped : Bool}
    (typed : Typed context (.unary expr grouped) type) :
    ∃ inner operator, Typed context expr inner ∧ typeCheckUnary inner = .ok operator ∧
      operator.type = some type := by
  obtain ⟨checked, done, typed⟩ := typed
  obtain ⟨inner, innerDone, ⟨failed, rfl⟩ | ⟨innerType, operator, innerTyped, accepted, rfl⟩⟩ := typeCheck_unary done
  · rw [failed] at typed
    cases typed
  · exact ⟨innerType, operator, ⟨inner, innerDone, innerTyped⟩, accepted, typed⟩

variable {types : List (List TypeAtom)}

/-- The first argument was checked and its atoms spread, then the others. -/
theorem typeCheckArgs_cons {arg : IrelNode} {args : List IrelNode}
    {pushed : List Diagnostic} (done : typeCheckArgs context (arg :: args) = .ok (types, pushed)) :
    ∃ checked atoms rest later, typeCheck context arg = .ok checked ∧
      (checked.type = none ∧ atoms = [] ∨ checked.type = some (.atoms atoms)) ∧
      typeCheckArgs context args = .ok (rest, later) ∧ types = atoms :: rest ∧
      pushed = checked.diagnostics ++ later := by
  simp only [typeCheckArgs, bind_eq_ok] at done
  obtain ⟨checked, argDone, atoms, spread, ⟨rest, later⟩, restDone, same⟩ := done
  obtain ⟨rfl, rfl⟩ := Prod.mk.inj (Except.ok.inj same)
  refine ⟨checked, atoms, rest, later, argDone, ?_, restDone, rfl, rfl⟩
  cases typed : checked.type with
  | none => exact .inl ⟨rfl, (Except.ok.inj (typed ▸ spread)).symm⟩
  | some given =>
    rw [typed] at spread
    cases given with
    | atoms list => exact .inr (by rw [Except.ok.inj spread])
    | inherited length => cases spread

/-- Arguments that all have atoms are typed, each with its atoms. -/
theorem typeCheckArgs_typed {args : List IrelNode}
    {pushed : List Diagnostic} (done : typeCheckArgs context args = .ok (types, pushed))
    (full : types.any List.isEmpty = false) :
    List.Forall₂ (fun arg atoms => Typed context arg (.atoms atoms)) args types := by
  induction args generalizing types pushed with
  | nil =>
    simp only [typeCheckArgs, Except.ok.injEq, Prod.mk.injEq] at done
    exact done.1 ▸ .nil
  | cons arg args ih =>
    obtain ⟨checked, atoms, rest, later, argDone, spread, restDone, rfl, -⟩ := typeCheckArgs_cons done
    simp only [List.any_cons, Bool.or_eq_false_iff] at full
    refine .cons ⟨checked, argDone, ?_⟩ (ih restDone full.2)
    rcases spread with ⟨-, rfl⟩ | typed
    · cases full.1
    · exact typed

/-- A typed call has typed arguments, and the function accepts their types. -/
theorem Typed.call {name : String} {args : List IrelNode} {grouped : Bool}
    (typed : Typed context (.call name args grouped) type) :
    ∃ types, List.Forall₂ (fun arg atoms => Typed context arg (.atoms atoms)) args types ∧
      (typeCheckCall name types).type = some type := by
  obtain ⟨checked, done, typed⟩ := typed
  rw [typeCheck, bind_eq_ok] at done
  obtain ⟨⟨types, pushed⟩, argsDone, same⟩ := done
  cases same
  refine ⟨types, typeCheckArgs_typed argsDone ?_, typed⟩
  cases full : types.any List.isEmpty with
  | false => rfl
  | true => simp [typeCheckCall, full] at typed

/-- What an accepted call looks like: the function, its arity, and what it asks
of the argument types. -/
inductive CallAccepted : String → List (List TypeAtom) → Ty → Prop
  | len {atoms : List TypeAtom} (fits : isAssignable atoms [.string] = true) :
      CallAccepted "len" [atoms] (.atoms [.int])
  | isNull {atoms : List TypeAtom} : CallAccepted "is_null" [atoms] (.atoms [.boolean])
  | coalesce {first second : List TypeAtom} (nullable : .null ∈ first)
      (fits : first.filter (· ≠ .null) ≠ [] →
        isAssignable second (first.filter (· ≠ .null)) = true) :
      CallAccepted "coalesce" [first, second]
        (.atoms (if first.filter (· ≠ .null) ≠ [] then first.filter (· ≠ .null) else second))
  | strings {name : String} {first second : List TypeAtom}
      (listed : name ∈ ["date_before", "date_after", "starts_with", "contains"])
      (firstFits : isAssignable first [.string] = true)
      (secondFits : isAssignable second [.string] = true) :
      CallAccepted name [first, second] (.atoms [.boolean])

theorem expectArgs_one {name : String} {actual : List (List TypeAtom)} {expected : List TypeAtom}
    {returnType : TypeAtom} (accepted : (expectArgs name actual [expected] returnType).type = some type) :
    ∃ first, actual = [first] ∧ isAssignable first expected = true ∧ type = .atoms [returnType] := by
  unfold expectArgs at accepted
  split at accepted
  · simp at accepted
  · rename_i length
    match actual, not_not.mp length with
    | [first], _ =>
      cases fits : isAssignable first expected with
      | false => simp [firstMisfit, fits] at accepted
      | true =>
        simp only [firstMisfit, fits, if_true, okType_type, Option.some.injEq] at accepted
        exact ⟨first, rfl, fits, accepted.symm⟩

theorem expectArgs_two {name : String} {actual : List (List TypeAtom)} {one two : List TypeAtom}
    {returnType : TypeAtom} (accepted : (expectArgs name actual [one, two] returnType).type = some type) :
    ∃ first second, actual = [first, second] ∧ isAssignable first one = true ∧
      isAssignable second two = true ∧ type = .atoms [returnType] := by
  unfold expectArgs at accepted
  split at accepted
  · simp at accepted
  · rename_i length
    match actual, not_not.mp length with
    | [first, second], _ =>
      cases firstFits : isAssignable first one with
      | false => simp [firstMisfit, firstFits] at accepted
      | true =>
        cases secondFits : isAssignable second two with
        | false => simp [firstMisfit, firstFits, secondFits] at accepted
        | true =>
          simp only [firstMisfit, firstFits, secondFits, if_true, okType_type,
            Option.some.injEq] at accepted
          exact ⟨first, second, rfl, firstFits, secondFits, accepted.symm⟩

theorem expectStrings_type {name : String}
    (listed : name ∈ ["date_before", "date_after", "starts_with", "contains"])
    (accepted : (expectArgs name types [[.string], [.string]] .boolean).type = some type) :
    CallAccepted name types type := by
  obtain ⟨first, second, rfl, firstFits, secondFits, rfl⟩ := expectArgs_two accepted
  exact .strings listed firstFits secondFits

theorem typeCheckCoalesce_type
    (accepted : (typeCheckCoalesce types).type = some type) : CallAccepted "coalesce" types type := by
  match types with
  | [first, second] =>
    simp only [typeCheckCoalesce] at accepted
    split at accepted
    · simp at accepted
    · rename_i nullable
      split at accepted
      · simp at accepted
      · rename_i fits
        simp only [okType_type, Option.some.injEq] at accepted
        subst accepted
        refine .coalesce (not_not.mp nullable) fun others => ?_
        cases assignable : isAssignable second (first.filter (· ≠ .null)) with
        | true => rfl
        | false => exact absurd ⟨others, by rw [assignable]; rfl⟩ fits
  | [] => simp [typeCheckCoalesce] at accepted
  | [_] => simp [typeCheckCoalesce] at accepted
  | _ :: _ :: _ :: _ => simp [typeCheckCoalesce] at accepted

/-- Only these calls are accepted. -/
theorem typeCheckCall_type {name : String}
    (accepted : (typeCheckCall name types).type = some type) : CallAccepted name types type := by
  unfold typeCheckCall at accepted
  split at accepted
  · simp at accepted
  · split at accepted
    · obtain ⟨first, rfl, fits, rfl⟩ := expectArgs_one accepted
      exact .len fits
    · split at accepted
      · simp at accepted
      · rename_i length
        simp only [okType_type, Option.some.injEq] at accepted
        subst accepted
        match types, not_not.mp length with
        | [_], _ => exact .isNull
    · exact typeCheckCoalesce_type accepted
    · exact expectStrings_type (by simp) accepted
    · exact expectStrings_type (by simp) accepted
    · exact expectStrings_type (by simp) accepted
    · exact expectStrings_type (by simp) accepted
    · simp at accepted

end RpaEnterprise.Irel
