import DiffScope.Json.Value
import DiffScope.Report.Result

/-!
# Results as JSON

Results are written as JSON and read back. What is absent is left out, and may be missing or null
where it is read. A record may also be read from the list of its fields, and a case from an object
whose only member is null.
-/

namespace DiffScope.Report

open DiffScope.Scope DiffScope.Snippet

/-! ## Writing -/

def Section.toJson (s : Section) : Json :=
  .object ([
    ("kind", .string s.kind.name),
    ("name", .string s.name),
    ("start_line", .natural s.startLine),
    ("end_line", .natural s.endLine),
    ("added_lines", .ofList .natural s.addedLines),
    ("snippet", .string s.snippet),
    ("truncated", .bool s.truncated),
    ("truncation_reason", .string s.reason.name)]
    ++ Json.optional "summary" .string s.summary
    ++ Json.optional "component_option" .string s.option)

def Metadata.toJson (m : Metadata) : Json :=
  .object [
    ("has_template", .bool m.hasTemplate),
    ("has_script", .bool m.hasScript),
    ("has_script_setup", .bool m.hasScriptSetup),
    ("style_count", .natural m.styleCount),
    ("custom_block_count", .natural m.customBlockCount)]

def Result.toJson (r : Result) : Json :=
  .object ([
    ("file_path", .string r.filePath),
    ("sections", .ofList Section.toJson r.sections),
    ("errors", .ofList .string r.errors),
    ("warnings", .ofList .string r.warnings),
    ("duration_ms", .natural r.durationMs)]
    ++ Json.optional "component" Metadata.toJson r.component)

/-! ## Reading -/

def Section.fieldNames : List String :=
  ["kind", "name", "start_line", "end_line", "added_lines", "snippet", "truncated",
    "truncation_reason", "summary", "component_option"]

def Section.ofJson? (j : Json) : Option Section := do
  let field ← j.fields? Section.fieldNames
  let kind ← (← field "kind").case?
  let reason ← (← field "truncation_reason").case?
  return {
    kind := ← Kind.ofName? kind
    name := ← (← field "name").string?
    startLine := ← (← field "start_line").count?
    endLine := ← (← field "end_line").count?
    addedLines := ← (← field "added_lines").list? Json.count?
    snippet := ← (← field "snippet").string?
    truncated := ← (← field "truncated").bool?
    reason := ← Truncation.ofName? reason
    summary := ← Json.nullable (field "summary") Json.string?
    option := ← Json.nullable (field "component_option") Json.string? }

/-- The names of the fields that tell of the blocks of a component, in order. -/
def Metadata.fieldNames : List String :=
  ["has_template", "has_script", "has_script_setup", "style_count", "custom_block_count"]

/-- What a JSON value tells of the blocks of a component. -/
def Metadata.ofJson? (j : Json) : Option Metadata := do
  let field ← j.fields? Metadata.fieldNames
  return {
    hasTemplate := ← (← field "has_template").bool?
    hasScript := ← (← field "has_script").bool?
    hasScriptSetup := ← (← field "has_script_setup").bool?
    styleCount := ← (← field "style_count").count?
    customBlockCount := ← (← field "custom_block_count").count? }

def Result.fieldNames : List String :=
  ["file_path", "sections", "errors", "warnings", "duration_ms", "component"]

def Result.ofJson? (j : Json) : Option Result := do
  let field ← j.fields? Result.fieldNames
  return {
    filePath := ← (← field "file_path").string?
    sections := ← (← field "sections").list? Section.ofJson?
    errors := ← Json.withDefault (field "errors") (Json.list? Json.string?) []
    warnings := ← Json.withDefault (field "warnings") (Json.list? Json.string?) []
    durationMs := ← (← field "duration_ms").count?
    component := ← Json.nullable (field "component") Metadata.ofJson? }

end DiffScope.Report
