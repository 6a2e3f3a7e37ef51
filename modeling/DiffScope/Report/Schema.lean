import DiffScope.Json.Value

/-!
# The schema of results

What the JSON of a result looks like, in the vocabulary of JSON Schema.
-/

namespace DiffScope.Report

def described (text : String) : String × Json := ("description", .string text)

def typed (name : String) : String × Json := ("type", .string name)

/-- The members of a whole number of so many bits. -/
def unsigned (format : String) : List (String × Json) :=
  [typed "integer", ("format", .string format), ("minimum", .natural 0)]

def countSchema (text : String) : Json := .object (described text :: unsigned "uint")

/-- A plain type. -/
def plainSchema (text type : String) : Json := .object [described text, typed type]

def optionalText (text : String) : Json :=
  .object [described text, ("type", .array [.string "string", .string "null"])]

/-- A member that refers to another schema. -/
def reference (name : String) : String × Json := ("$ref", .string ("#/$defs/" ++ name))

/-- A list of texts that may be missing. -/
def tagList (text : String) : Json :=
  .object [described text, typed "array", ("default", .array []),
    ("items", .object [typed "string"])]

def requiredNames (names : List String) : String × Json := ("required", .ofList .string names)

/-- A case that is a text. -/
def caseSchema (text name : String) : Json :=
  .object [described text, typed "string", ("const", .string name)]

/-- The schema of what is told of the blocks of a component. -/
def metadataSchema : Json :=
  .object [
    described "Presence flags and counts for a component file's regions",
    typed "object",
    ("properties", .object [
      ("custom_block_count",
        countSchema "Number of non-standard top-level blocks (`<i18n>`, `<docs>`, ...)"),
      ("has_script", .object [typed "boolean"]),
      ("has_script_setup", .object [typed "boolean"]),
      ("has_template", .object [typed "boolean"]),
      ("style_count", countSchema "Number of `<style>` blocks")]),
    requiredNames
      ["has_template", "has_script", "has_script_setup", "style_count", "custom_block_count"]]

def sectionSchema : Json :=
  .object [
    described "One selected unit of code context for a changed file",
    typed "object",
    ("properties", .object [
      ("added_lines", .object [described "Added lines this section accounts for", typed "array",
        ("items", .object (unsigned "uint"))]),
      ("component_option",
        optionalText "Component option (`methods`, `computed`, ...) the unit was declared in"),
      ("end_line", countSchema "Last line of the unit (inclusive)"),
      ("kind", .object [described "Syntactic kind of the unit", reference "UnitKind"]),
      ("name", plainSchema "Resolved name, or `<anonymous>`" "string"),
      ("snippet",
        plainSchema "Source text of the unit, possibly truncated or windowed" "string"),
      ("start_line", countSchema "First line of the unit (1-based, file coordinates)"),
      ("summary", optionalText "Human-readable note present for windowed snippets"),
      ("truncated", plainSchema "Whether `snippet` differs from the raw unit text" "boolean"),
      ("truncation_reason",
        .object [described "How the snippet was shortened", reference "TruncationReason"])]),
    requiredNames ["kind", "name", "start_line", "end_line", "added_lines", "snippet", "truncated",
      "truncation_reason"]]

def truncationSchema : Json :=
  .object [
    described "Why a snippet was shortened",
    ("oneOf", .array [
      .object [typed "string", ("enum", .array [.string "none"])],
      caseSchema "Hard cut at the configured character limit" "char_limit",
      caseSchema "Replaced by windows around the added lines" "line_limit"])]

def kindSchema : Json :=
  .object [
    described "Syntactic kind of a unit that can enclose a change",
    ("oneOf", .array [
      caseSchema "`function name() \x7b\x7d` (including generators)" "function_declaration",
      caseSchema "`function () \x7b\x7d` used as a value" "function_expression",
      caseSchema "`() => \x7b\x7d`" "arrow_function",
      caseSchema "Method inside a class body" "class_method",
      caseSchema "Method shorthand inside an object literal" "object_method",
      caseSchema "`class Name \x7b\x7d` or a class expression" "class_declaration"])]

def resultSchema : Json :=
  .object [
    ("$schema", .string "https://json-schema.org/draft/2020-12/schema"),
    ("title", .string "ExtractionResult"),
    described ("Everything extracted for one file.\n\nErrors and sections can coexist: a failure "
      ++ "in one region or a stopped\ntraversal still returns whatever was collected."),
    typed "object",
    ("properties", .object [
      ("component", .object [described "Region summary, present for component files",
        ("anyOf", .array [.object [reference "ComponentMetadata"], .object [typed "null"]])]),
      ("duration_ms",
        .object (described "Wall-clock time spent on this file" :: unsigned "uint64")),
      ("errors", tagList "Error tags (`parse_error: ...`, `file_not_readable`, ...)"),
      ("file_path", plainSchema "Path as given by the diff" "string"),
      ("sections", .object [described "Selected sections ordered by ascending start line",
        typed "array", ("items", .object [reference "Section"])]),
      ("warnings", tagList "Warning tags (`depth_exceeded: ...`, `syntax_recovered: ...`)")]),
    requiredNames ["file_path", "sections", "duration_ms"],
    ("$defs", .object [
      ("ComponentMetadata", metadataSchema),
      ("Section", sectionSchema),
      ("TruncationReason", truncationSchema),
      ("UnitKind", kindSchema)])]

end DiffScope.Report
