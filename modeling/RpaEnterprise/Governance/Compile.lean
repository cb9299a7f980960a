import RpaEnterprise.Lib.Json
import Mathlib.Data.List.Sort

/-!
# The compile pipeline of scenario documents

A promotion compiles its document with `compileScenario`.  The generated schema
validator and the static analysis are those of the platform the commands run on;
the pipeline around them is modelled here.
-/

namespace RpaEnterprise.Governance

open Lib

abbrev ScenarioId := Nat
abbrev VersionId := Nat
abbrev Subject := String

inductive ErrorCode where
  | irSchemaInvalid
  | irExpressionCompileError
  | authzForbidden
  | resourceNotFound
deriving Repr, DecidableEq

/-- `ApiResponseError`: the code and the fields of its details. -/
structure ApiResponseError where
  code : ErrorCode
  details : List (String × Json)

def notFound : ApiResponseError := ⟨.resourceNotFound, []⟩

/-! ## Validation reports -/

structure ValidationIssue where
  rule : String
  reason : String
  /-- Whether the issue is an expression that does not compile. -/
  expression : Bool
  nodeId : Option String
  detail : String
deriving Repr, DecidableEq

structure ValidationReport where
  errors : List ValidationIssue
  warnings : List ValidationIssue
deriving Repr, DecidableEq

def ValidationIssue.toJson (issue : ValidationIssue) : Json :=
  .obj ([("rule", .str issue.rule), ("reason", .str issue.reason),
    ("code", .str (if issue.expression then "IR_EXPRESSION_COMPILE_ERROR" else "IR_SCHEMA_INVALID"))]
    ++ (issue.nodeId.map fun node => ("nodeId", Json.str node)).toList
    ++ [("detail", .str issue.detail)])

def ValidationReport.toJson (report : ValidationReport) : Json :=
  .obj [("errors", .arr (report.errors.map ValidationIssue.toJson)),
    ("warnings", .arr (report.warnings.map ValidationIssue.toJson))]

structure StaticResult where
  report : ValidationReport
  compiledAst : Option String

/-- What the commands call and do not define: the generated validator and the
static analysis. -/
structure Platform where
  /-- The errors of the generated schema validator; a document without any is valid. -/
  validateIR : Json → List String
  compileScenarioStatic : Json → Option (List String) → StaticResult

/-! ## Compiling -/

structure CompileOptions where
  promote : Bool
  signedCommandRefs : Option (List String)

inductive CompileOutcome where
  | ok (ir : Json) (report : ValidationReport) (compiledAst : String)
  | failed (code : ErrorCode) (report : Option ValidationReport) (details : List (String × Json))

/-- Warnings block a promotion; saving a draft is blocked by errors only. -/
def ValidationReport.blocking (report : ValidationReport) (promote : Bool) : List ValidationIssue :=
  if promote then report.errors ++ report.warnings else report.errors

def compileScenario (platform : Platform) (irDoc : Json) (options : CompileOptions) : CompileOutcome :=
  match platform.validateIR irDoc with
  | error :: rest =>
    .failed .irSchemaInvalid none
      [("stage", .str "schema"), ("errors", .arr ((error :: rest).map Json.str))]
  | [] =>
    let staticResult := platform.compileScenarioStatic irDoc options.signedCommandRefs
    let report := staticResult.report
    match report.blocking options.promote with
    | issue :: issues =>
      .failed
        (if (issue :: issues).any (·.expression) then .irExpressionCompileError
          else .irSchemaInvalid)
        (some report) [("stage", .str "static"), ("report", report.toJson)]
    | [] =>
      match staticResult.compiledAst with
      | none => .failed .irSchemaInvalid (some report)
          [("stage", .str "static"), ("reason", .str "compiled_ast_missing")]
      | some compiledAst => .ok irDoc report compiledAst

end RpaEnterprise.Governance
