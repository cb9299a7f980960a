import RpaEnterprise.Irel.Soundness

/-!
# Failures without a diagnostic

A check that fails pushes a diagnostic, with one exception: a call refuses an
argument type without atoms and says nothing, taking it for an argument that has
failed.  A variable can have such a type, when its schema lists no type or no
value at all.  Every other failure is reported.
-/

namespace RpaEnterprise.Irel

open Lib

/-- A call in the tree has a variable as argument whose type has no atoms. -/
def EmptyArgument (context : CompileContext) (node : IrelNode) : Prop :=
  ∃ path grouped, IrelNode.var path grouped ∈ node.callArguments ∧
    (resolveVariable path context).type = some (.atoms [])

section Checks

variable {context : CompileContext}

/-! ## Types without atoms -/

theorem CallAccepted.hasAtoms {name : String} {types : List (List TypeAtom)} {list : List TypeAtom}
    (accepted : CallAccepted name types (.atoms list)) (full : types.any List.isEmpty = false) :
    list ≠ [] := by
  generalize same : Ty.atoms list = type at accepted
  cases accepted with
  | len => cases same; simp
  | isNull => cases same; simp
  | strings => cases same; simp
  | coalesce nullable fits =>
    cases same
    simp only [List.any_cons, List.any_nil, Bool.or_false, Bool.or_eq_false_iff,
      List.isEmpty_eq_false_iff] at full
    split
    · assumption
    · exact full.2

theorem typeCheckCall_full {name : String} {types : List (List TypeAtom)} {type : Ty}
    (accepted : (typeCheckCall name types).type = some type) : types.any List.isEmpty = false := by
  cases full : types.any List.isEmpty with
  | false => rfl
  | true => simp [typeCheckCall, full] at accepted

theorem typeCheckUnary_atoms {inner : Ty} {checked : Checked} {type : Ty}
    (done : typeCheckUnary inner = .ok checked) (typed : checked.type = some type) :
    type = .atoms [.boolean] := by
  unfold typeCheckUnary at done
  split at done
  · rw [← Except.ok.inj done, okType_type, Option.some.injEq] at typed
    exact typed.symm
  · obtain ⟨text, -, same⟩ := bind_eq_ok.mp done
    cases same
    cases typed

/-- A refusal of operands gives no type. -/
theorem refuseOperands_type {requires : String} {left right : Ty} {checked : Checked}
    (done : refuseOperands requires left right = .ok checked) :
    checked.type = none ∧ checked.diagnostics ≠ [] := by
  simp only [refuseOperands, bind_eq_ok] at done
  obtain ⟨leftText, -, rightText, -, same⟩ := done
  cases same
  exact ⟨rfl, by simp [typeMismatch, refuse]⟩

/-- An operator accepts with the one type it gives, or refuses with a diagnostic. -/
def Decides (accepted : List TypeAtom) (result : Except TypeError Checked) : Prop :=
  ∀ checked, result = .ok checked →
    checked.type = some (.atoms accepted) ∨ checked.type = none ∧ checked.diagnostics ≠ []

theorem decides_okType (accepted : List TypeAtom) : Decides accepted (.ok (okType (.atoms accepted))) :=
  fun _ same => .inl (Except.ok.inj same ▸ rfl)

theorem decides_refuseOperands (accepted : List TypeAtom) (requires : String) (left right : Ty) :
    Decides accepted (refuseOperands requires left right) :=
  fun _ done => .inr (refuseOperands_type done)

theorem decides_bind {Value : Type} {accepted : List TypeAtom} {first : Except TypeError Value}
    {rest : Value → Except TypeError Checked} (decides : ∀ value, Decides accepted (rest value)) :
    Decides accepted (first >>= rest) := by
  intro checked done
  obtain ⟨value, -, done⟩ := bind_eq_ok.mp done
  exact decides value checked done

theorem decides_requireNumeric (requires : String) (left right : Ty) (accepted : List TypeAtom) :
    Decides accepted (requireNumeric requires left right (.atoms accepted)) := by
  refine decides_bind fun leftNumeric => ?_
  split
  · refine decides_bind fun rightNumeric => ?_
    split
    · exact decides_okType accepted
    · exact decides_refuseOperands accepted requires left right
  · exact decides_refuseOperands accepted requires left right

theorem decides_typeCheckCompare (op : CompareOp) (left right : Ty) :
    Decides [.boolean] (typeCheckCompare op left right) := by
  unfold typeCheckCompare
  split
  · refine decides_bind fun comparable => ?_
    split
    · exact decides_okType [.boolean]
    · exact decides_refuseOperands [.boolean] _ left right
  · exact decides_requireNumeric _ left right [.boolean]

theorem decides_typeCheckLogical (op : LogicalOp) (left right : Ty) :
    Decides [.boolean] (typeCheckLogical op left right) := by
  unfold typeCheckLogical
  split
  · exact decides_okType [.boolean]
  · exact decides_refuseOperands [.boolean] _ left right

theorem decides_typeCheckUnary (inner : Ty) : Decides [.boolean] (typeCheckUnary inner) := by
  unfold typeCheckUnary
  split
  · exact decides_okType [.boolean]
  · refine decides_bind fun text checked done => .inr ?_
    cases done
    exact ⟨rfl, by simp [typeMismatch, refuse]⟩

/-- Only a variable can have a type without atoms. -/
theorem Typed.var_of_empty {node : IrelNode} (typed : Typed context node (.atoms [])) :
    ∃ path grouped, node = .var path grouped := by
  obtain ⟨checked, done, typed'⟩ := typed
  have typed : Typed context node (.atoms []) := ⟨checked, done, typed'⟩
  cases node with
  | literal valueType value grouped =>
    rw [typeCheck, Except.ok.injEq] at done
    rw [← done, okType_type] at typed'
    cases typed'
  | var path grouped => exact ⟨path, grouped, rfl⟩
  | call name args grouped =>
    obtain ⟨types, -, accepted⟩ := typed.call
    exact absurd rfl ((typeCheckCall_type accepted).hasAtoms (typeCheckCall_full accepted))
  | unary expr grouped =>
    obtain ⟨inner, operator, -, accepted, same⟩ := typed.unary
    cases typeCheckUnary_atoms accepted same
  | binary op left right grouped =>
    rw [typeCheck] at done
    obtain ⟨leftType, rightType, operator, -, -, accepted, same⟩ := Typed.operands done typed'
    rcases decides_requireNumeric _ _ _ _ operator accepted with given | ⟨none, -⟩
    · rw [given] at same
      cases same
    · rw [none] at same
      cases same
  | compare op left right grouped =>
    rw [typeCheck] at done
    obtain ⟨leftType, rightType, operator, -, -, accepted, same⟩ := Typed.operands done typed'
    rcases decides_typeCheckCompare _ _ _ operator accepted with given | ⟨none, -⟩
    · rw [given] at same
      cases same
    · rw [none] at same
      cases same
  | logical op left right grouped =>
    rw [typeCheck] at done
    obtain ⟨leftType, rightType, operator, -, -, accepted, same⟩ := Typed.operands done typed'
    rcases decides_typeCheckLogical _ _ _ operator accepted with given | ⟨none, -⟩
    · rw [given] at same
      cases same
    · rw [none] at same
      cases same

/-- A tree with an empty argument never gets a type. -/
theorem Typed.noEmptyArgument {node : IrelNode} {type : Ty} (typed : Typed context node type) :
    ¬ EmptyArgument context node := by
  induction node using IrelNode.induct generalizing type with
  | literal valueType value grouped =>
    rintro ⟨path, mark, listed, -⟩
    cases listed
  | var path grouped =>
    rintro ⟨other, mark, listed, -⟩
    cases listed
  | call name args grouped ih =>
    obtain ⟨types, argsTyped, accepted⟩ := typed.call
    have full := typeCheckCall_full accepted
    have argTyped : ∀ arg ∈ args, ∃ atoms, atoms ≠ [] ∧ Typed context arg (.atoms atoms) := by
      intro arg member
      obtain ⟨index, rfl⟩ := List.mem_iff_get.mp member
      have inTypes : index.1 < types.length := argsTyped.length_eq ▸ index.2
      refine ⟨types.get ⟨index.1, inTypes⟩, fun empty => ?_,
        (List.forall₂_iff_get.mp argsTyped).2 index.1 index.2 inTypes⟩
      have some : types.any List.isEmpty = true :=
        List.any_eq_true.mpr ⟨_, List.get_mem _ _, List.isEmpty_iff.mpr empty⟩
      rw [full] at some
      cases some
    rintro ⟨path, mark, listed, empty⟩
    rcases List.mem_append.mp listed with here | deeper
    · obtain ⟨atoms, nonempty, checked, done, same⟩ := argTyped _ here
      rw [typeCheck, Except.ok.injEq] at done
      rw [← done, empty, Option.some.injEq, Ty.atoms.injEq] at same
      exact nonempty same.symm
    · obtain ⟨arg, member, held⟩ := IrelNode.mem_callArgumentsOf.mp deeper
      obtain ⟨atoms, -, typedArg⟩ := argTyped arg member
      exact ih arg member typedArg ⟨path, mark, held, empty⟩
  | unary expr grouped ih =>
    obtain ⟨inner, operator, innerTyped, -, -⟩ := typed.unary
    exact ih innerTyped
  | binary op left right grouped leftIh rightIh
  | compare op left right grouped leftIh rightIh
  | logical op left right grouped leftIh rightIh =>
    obtain ⟨checked, done, same⟩ := typed
    rw [typeCheck] at done
    obtain ⟨leftType, rightType, -, leftTyped, rightTyped, -, -⟩ := Typed.operands done same
    rintro ⟨path, mark, listed, empty⟩
    rcases List.mem_append.mp listed with inLeft | inRight
    · exact leftIh leftTyped ⟨path, mark, inLeft, empty⟩
    · exact rightIh rightTyped ⟨path, mark, inRight, empty⟩

theorem EmptyArgument.of_left {node left right : IrelNode}
    (shape : node.callArguments = left.callArguments ++ right.callArguments)
    (empty : EmptyArgument context left) : EmptyArgument context node := by
  obtain ⟨path, mark, listed, without⟩ := empty
  exact ⟨path, mark, shape ▸ List.mem_append_left _ listed, without⟩

theorem EmptyArgument.of_right {node left right : IrelNode}
    (shape : node.callArguments = left.callArguments ++ right.callArguments)
    (empty : EmptyArgument context right) : EmptyArgument context node := by
  obtain ⟨path, mark, listed, without⟩ := empty
  exact ⟨path, mark, shape ▸ List.mem_append_right _ listed, without⟩

/-! ## Reported failures -/

/-- A check that fails has pushed a diagnostic. -/
def Reported (checked : Checked) : Prop := checked.type = none → checked.diagnostics ≠ []

theorem reported_okType (type : Ty) : Reported (okType type) := fun failed => by cases failed

theorem reported_refuse (code : CompileErrorCode) (reason : DiagnosticReason) (detail : String) :
    Reported (refuse code reason detail) := fun _ => by simp [refuse]

theorem reported_resolveParamPath (done : List String) (schema : Json) (path : List String) :
    Reported (resolveParamPath done schema path) := by
  induction path generalizing done schema with
  | nil => exact reported_refuse _ _ _
  | cons part rest ih =>
    rw [resolveParamPath]
    cases schemaChild schema part with
    | none => exact reported_refuse _ _ _
    | some child =>
      cases rest with
      | nil =>
        dsimp only
        cases inferPrimitiveSchemaType child with
        | none => exact reported_refuse _ _ _
        | some inferred => exact reported_okType _
      | cons next rest =>
        dsimp only
        split
        · exact ih _ _
        · exact reported_refuse _ _ _

theorem reported_resolveParamVariable (path : List String) (paramsSchema : Option Json) :
    Reported (resolveParamVariable path paramsSchema) := by
  unfold resolveParamVariable
  split
  · exact reported_refuse _ _ _
  · exact reported_refuse _ _ _
  · split
    · exact reported_resolveParamPath _ _ _
    · exact reported_refuse _ _ _

theorem reported_resolveNodeFieldType (nodeId field : String) (rest path : List String) :
    Reported (resolveNodeFieldType nodeId field rest path context) := by
  unfold resolveNodeFieldType
  dsimp only
  split
  · split
    · exact reported_refuse _ _ _
    · exact reported_okType _
  · split
    · split
      · exact reported_refuse _ _ _
      · split
        · exact reported_refuse _ _ _
        · exact reported_okType _
    · split
      · split
        · exact reported_refuse _ _ _
        · split
          · split
            · exact reported_refuse _ _ _
            · exact reported_okType _
          · exact reported_refuse _ _ _
      · exact reported_refuse _ _ _

theorem reported_resolveNodeVariable (path : List String) :
    Reported (resolveNodeVariable path context) := by
  unfold resolveNodeVariable
  split
  · dsimp only
    split
    · exact reported_resolveNodeFieldType _ _ _ _
    · split
      · exact reported_refuse _ _ _
      · split
        · exact reported_okType _
        · exact reported_refuse _ _ _
  · exact reported_refuse _ _ _

theorem reported_resolveVariable (path : List String) : Reported (resolveVariable path context) := by
  unfold resolveVariable
  split
  · exact reported_refuse _ _ _
  · unfold resolveFlag
    dsimp only
    split
    · exact reported_refuse _ _ _
    · exact reported_okType _
  · unfold resolveLoop
    split
    · exact reported_refuse _ _ _
    · split
      · exact reported_okType _
      · exact reported_refuse _ _ _
  · unfold resolveCursor
    split
    · split
      · exact reported_okType _
      · exact reported_refuse _ _ _
    · exact reported_refuse _ _ _
  · exact reported_resolveNodeVariable _
  · exact reported_resolveParamVariable _ _
  · exact reported_refuse _ _ _

theorem reported_expectArgs (name : String) (actual expected : List (List TypeAtom))
    (returnType : TypeAtom) : Reported (expectArgs name actual expected returnType) := by
  unfold expectArgs
  split
  · exact reported_refuse _ _ _
  · split
    · exact reported_refuse _ _ _
    · exact reported_okType _

theorem reported_typeCheckCoalesce (types : List (List TypeAtom)) :
    Reported (typeCheckCoalesce types) := by
  unfold typeCheckCoalesce
  split
  · split
    · exact reported_refuse _ _ _
    · dsimp only
      split
      · exact reported_refuse _ _ _
      · exact reported_okType _
  · exact reported_refuse _ _ _

/-- A call whose argument types all have atoms reports its refusal. -/
theorem reported_typeCheckCall {name : String} {types : List (List TypeAtom)}
    (full : types.any List.isEmpty = false) : Reported (typeCheckCall name types) := by
  unfold typeCheckCall
  rw [full]
  simp only [Bool.false_eq_true, if_false]
  split
  · exact reported_expectArgs _ _ _ _
  · split
    · exact reported_refuse _ _ _
    · exact reported_okType _
  · exact reported_typeCheckCoalesce _
  · exact reported_expectArgs _ _ _ _
  · exact reported_expectArgs _ _ _ _
  · exact reported_expectArgs _ _ _ _
  · exact reported_expectArgs _ _ _ _
  · exact reported_refuse _ _ _

/-- An argument without atoms has failed, or has a type without atoms; what it
pushed is among what the arguments pushed. -/
theorem typeCheckArgs_empty {args : List IrelNode} {types : List (List TypeAtom)}
    {pushed : List Diagnostic} (done : typeCheckArgs context args = .ok (types, pushed))
    (empty : types.any List.isEmpty = true) :
    ∃ arg ∈ args, ∃ checked, typeCheck context arg = .ok checked ∧
      (checked.type = none ∨ checked.type = some (.atoms [])) ∧ checked.diagnostics ⊆ pushed := by
  induction args generalizing types pushed with
  | nil =>
    simp only [typeCheckArgs, Except.ok.injEq, Prod.mk.injEq] at done
    rw [← done.1] at empty
    cases empty
  | cons arg args ih =>
    obtain ⟨checked, atoms, rest, later, argDone, spread, restDone, rfl, rfl⟩ := typeCheckArgs_cons done
    rw [List.any_cons, Bool.or_eq_true] at empty
    rcases empty with here | there
    · refine ⟨arg, List.mem_cons_self, checked, argDone, ?_, List.subset_append_left _ _⟩
      rw [List.isEmpty_iff.mp here] at spread
      exact spread.imp_left And.left
    · obtain ⟨other, member, result, otherDone, failed, included⟩ := ih restDone there
      exact ⟨other, List.mem_cons_of_mem _ member, result, otherDone, failed,
        List.Subset.trans included (List.subset_append_right _ _)⟩

theorem ne_nil_of_subset {Entry : Type} {some all : List Entry} (nonempty : some ≠ []) (included : some ⊆ all) :
    all ≠ [] := by
  rintro rfl
  exact nonempty (List.subset_nil.mp included)

theorem checkOperands_reported {left right : Except TypeError Checked}
    {check : Ty → Ty → Except TypeError Checked} {checked : Checked}
    (leftReported : ∀ result, left = .ok result → Reported result)
    (rightReported : ∀ result, right = .ok result → Reported result)
    (decides : ∀ one two, ∃ accepted, Decides accepted (check one two))
    (done : checkOperands left right check = .ok checked) : Reported checked := by
  intro failed
  obtain ⟨one, two, leftDone, rightDone, ⟨leftType, rightType, operator, -, -, accepts, rfl⟩ | ⟨some, rfl⟩⟩ :=
    checkOperands_ok done
  · obtain ⟨accepted, decided⟩ := decides leftType rightType
    rcases decided operator accepts with given | ⟨-, pushed⟩
    · rw [given] at failed
      cases failed
    · exact ne_nil_of_subset pushed (List.subset_append_right _ _)
  · rcases some with leftFailed | rightFailed
    · exact ne_nil_of_subset (leftReported one leftDone leftFailed) (List.subset_append_left _ _)
    · exact ne_nil_of_subset (rightReported two rightDone rightFailed) (List.subset_append_right _ _)

/-- Without an empty argument every failure is reported.  By induction on the tree. -/
theorem typeCheck_reported {node : IrelNode} {checked : Checked}
    (done : typeCheck context node = .ok checked) (clean : ¬ EmptyArgument context node) :
    Reported checked := by
  induction node using IrelNode.induct generalizing checked with
  | literal valueType value grouped =>
    rw [typeCheck, Except.ok.injEq] at done
    exact done ▸ reported_okType _
  | var path grouped =>
    rw [typeCheck, Except.ok.injEq] at done
    exact done ▸ reported_resolveVariable path
  | call name args grouped ih =>
    rw [typeCheck, bind_eq_ok] at done
    obtain ⟨⟨types, pushed⟩, argsDone, same⟩ := done
    cases same
    intro failed
    cases full : types.any List.isEmpty with
    | false =>
      exact ne_nil_of_subset (reported_typeCheckCall full failed) (List.subset_append_right _ _)
    | true =>
      obtain ⟨arg, member, result, argDone, without, included⟩ := typeCheckArgs_empty argsDone full
      have argClean : ¬ EmptyArgument context arg := by
        rintro ⟨path, mark, listed, empty⟩
        exact clean ⟨path, mark, List.mem_append_right _
          (IrelNode.mem_callArgumentsOf.mpr ⟨arg, member, listed⟩), empty⟩
      rcases without with argFailed | argEmpty
      · exact ne_nil_of_subset (ih arg member argDone argClean argFailed)
          (List.Subset.trans included (List.subset_append_left _ _))
      · -- the argument is a variable without atoms
        obtain ⟨path, mark, rfl⟩ := Typed.var_of_empty ⟨result, argDone, argEmpty⟩
        rw [typeCheck, Except.ok.injEq] at argDone
        rw [← argDone] at argEmpty
        exact absurd ⟨path, mark, List.mem_append_left _ member, argEmpty⟩ clean
  | unary expr grouped ih =>
    obtain ⟨inner, innerDone, ⟨-, rfl⟩ | ⟨type, operator, -, accepts, rfl⟩⟩ := typeCheck_unary done
    · exact ih innerDone clean
    · intro failed
      rcases decides_typeCheckUnary type operator accepts with given | ⟨-, pushed⟩
      · rw [given] at failed
        cases failed
      · exact ne_nil_of_subset pushed (List.subset_append_right _ _)
  | binary op left right grouped leftIh rightIh =>
    rw [typeCheck] at done
    exact checkOperands_reported (fun _ leftDone => leftIh leftDone fun empty => clean (.of_left rfl empty))
      (fun _ rightDone => rightIh rightDone fun empty => clean (.of_right rfl empty))
      (fun one two => ⟨_, decides_requireNumeric _ one two _⟩) done
  | compare op left right grouped leftIh rightIh =>
    rw [typeCheck] at done
    exact checkOperands_reported (fun _ leftDone => leftIh leftDone fun empty => clean (.of_left rfl empty))
      (fun _ rightDone => rightIh rightDone fun empty => clean (.of_right rfl empty))
      (fun one two => ⟨_, decides_typeCheckCompare op one two⟩) done
  | logical op left right grouped leftIh rightIh =>
    rw [typeCheck] at done
    exact checkOperands_reported (fun _ leftDone => leftIh leftDone fun empty => clean (.of_left rfl empty))
      (fun _ rightDone => rightIh rightDone fun empty => clean (.of_right rfl empty))
      (fun one two => ⟨_, decides_typeCheckLogical op one two⟩) done

/-! ## Compilations -/

/-- The expression parses to a tree with an empty argument. -/
def EmptyArgumentIn (context : CompileContext) (expression : String) : Prop :=
  ∃ ast, parseIrelExpression expression = .ok ast ∧ EmptyArgument context ast

theorem compileIrelExpression_clean {expression : String} {ast : IrelNode} {type : Ty}
    (compiled : compileIrelExpression context expression = .ok (.ok ast type)) :
    ¬ EmptyArgumentIn context expression := by
  obtain ⟨parsed, typed⟩ := compileIrelExpression_ok compiled
  rintro ⟨other, parsedToo, empty⟩
  rw [parsed, Except.ok.injEq] at parsedToo
  exact typed.noEmptyArgument (parsedToo ▸ empty)

/-- A compilation that fails without a diagnostic has met an empty argument. -/
theorem emptyArgument_of_silent {expression : String}
    (silent : compileIrelExpression context expression = .ok (.failed [])) :
    EmptyArgumentIn context expression := by
  unfold compileIrelExpression at silent
  split at silent
  · cases silent
  · cases silent
  · rename_i ast parsed
    refine ⟨ast, parsed, ?_⟩
    by_contra clean
    split at silent
    · cases silent
    · rename_i diagnostics checked
      simp only [Except.ok.injEq, CompileResult.failed.injEq] at silent
      subst silent
      rw [typeCheckIrelExpression, bind_eq_ok] at checked
      obtain ⟨result, done, checked⟩ := checked
      have reported := typeCheck_reported done clean
      split at checked
      · rename_i failed
        simp only [pure, Except.pure, Except.ok.injEq, Except.error.injEq] at checked
        exact reported failed checked
      · split at checked
        · cases checked
        · rename_i pushed
          simp only [pure, Except.pure, Except.ok.injEq, Except.error.injEq] at checked
          exact pushed checked
      · split at checked
        · split at checked
          · cases checked
          · rename_i pushed
            simp only [pure, Except.pure, Except.ok.injEq, Except.error.injEq] at checked
            exact pushed checked
        · obtain ⟨got, -, same⟩ := bind_eq_ok.mp checked
          simp [pure, Except.pure] at same
    · cases silent

end Checks

end RpaEnterprise.Irel
