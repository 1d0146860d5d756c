import TemplateFill.Json.Outline
import TemplateFill.Json.Printer
import TemplateFill.Mapping.Context

/-!
Reports on the templates of a batch, and their JSON form.

A report of a mapping failure carries diagnostics: the log, the qualifier that was being processed
and its location.
-/

namespace TemplateFill

/-! ### Diagnostics -/

structure Diagnostics where
  logs : List String
  /-- The qualifier being processed, as compact JSON -/
  qualifier? : Option String
  qualifierPath? : Option String
deriving DecidableEq

def Json.textOrNull : Option String → Json
  | some value => .text value
  | none => .null

namespace Diagnostics

def ofFailure (failure : Failure) : Diagnostics :=
  { logs := failure.logs
    qualifier? := failure.qualifier?.map Json.compact
    qualifierPath? := failure.location? }

def toJson (diagnostics : Diagnostics) : Json :=
  .object [
    ("logs", .array (diagnostics.logs.map .text)),
    ("qualifier", .textOrNull diagnostics.qualifier?),
    ("qualifierPath", .textOrNull diagnostics.qualifierPath?)]

def layout : Json.RecordLayout :=
  [("logs", .required), ("qualifier", .optional), ("qualifierPath", .optional)]

def read? (text : List Char) : Option Diagnostics := do
  match ← Json.fields? layout text with
  | [some logs, qualifier, qualifierPath] =>
      return {
        logs := ← Json.listField? Json.textField? logs
        qualifier? := ← Json.optionalField? Json.textField? qualifier
        qualifierPath? := ← Json.optionalField? Json.textField? qualifierPath }
  | _ => none

end Diagnostics

/-! ### Reports -/

structure Report where
  templateId : String
  success : Bool
  /-- The cause of a failure; empty on success -/
  message : String
  /-- The identifier of the stored instance; empty on failure -/
  submodelId : String
  diagnostics? : Option Diagnostics
deriving DecidableEq

namespace Report

def succeeded (templateId submodelId : String) : Report :=
  { templateId, success := true, message := "", submodelId, diagnostics? := none }

def failed (templateId message : String) : Report :=
  { templateId, success := false, message, submodelId := "", diagnostics? := none }

def mappingFailed (templateId : String) (failure : Failure) : Report :=
  { failed templateId failure.cause.message with
    diagnostics? := some (Diagnostics.ofFailure failure) }

def toJson (report : Report) : Json :=
  let diagnostics := match report.diagnostics? with
    | some diagnostics => [("errorInfo", diagnostics.toJson)]
    | none => []
  .object ([
    ("templateId", .text report.templateId),
    ("success", .bool report.success),
    ("message", .text report.message),
    ("generatedSubmodelId", .text report.submodelId)] ++ diagnostics)

def layout : Json.RecordLayout :=
  [("templateId", .required), ("success", .required), ("message", .required),
    ("generatedSubmodelId", .required), ("errorInfo", .defaulted)]

def read? (text : List Char) : Option Report := do
  match ← Json.fields? layout text with
  | [some templateId, some success, some message, some submodelId, diagnostics] =>
      return {
        templateId := ← Json.textField? templateId
        success := ← Json.boolField? success
        message := ← Json.textField? message
        submodelId := ← Json.textField? submodelId
        diagnostics? := ← Json.optionalField? Diagnostics.read? diagnostics }
  | _ => none

end Report

end TemplateFill
