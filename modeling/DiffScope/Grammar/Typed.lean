import DiffScope.Grammar.Script

/-!
# The grammars of typed scripts

Scripts with type annotations: the grammar of plain scripts with other forms of declarations,
classes and calls, and with types. One form has type assertions in angle brackets, the other
markup expressions in their place.
-/

namespace DiffScope.Grammar.Typed

open Rule Script DiffScope.Lexicon

/-- Whether a typed script may hold markup expressions. -/
inductive Form where
  /-- Type assertions in angle brackets and no markup. -/
  | bare
  /-- Markup and no type assertions in angle brackets. -/
  | markup
  deriving DecidableEq, Repr, Inhabited

/-- A type written behind a colon or nothing, as a field. -/
def typed : Rule := field "type" (opt "type_annotation")

def typeParameters : Rule := field "type_parameters" (opt "type_parameters")

def typeArguments : Rule := field "type_arguments" (opt "type_arguments")

/-- The words that tell accessors and generators from plain methods, or nothing. -/
def accessorMark : Rule := opt (oneOf [word "get", word "set", word "*"])

def plainRule (name : String) : Rule := (Script.grammar.rule? name).getD .blank

def alternatives : Rule → List Rule
  | .either a b => a :: alternatives b
  | r => [r]

/-- What a member or index of a type query may hang on. -/
def queryObject : Rule := oneOf ["identifier", "this",
  named "subscript_expression" "_type_query_subscript_expression",
  named "member_expression" "_type_query_member_expression",
  named "call_expression" "_type_query_call_expression"]

/-- What a call or instantiation of a type query may hang on. -/
def queryFunction : Rule := oneOf ["import", "identifier",
  named "member_expression" "_type_query_member_expression",
  named "subscript_expression" "_type_query_subscript_expression"]

/-- The name of a property behind a dot. -/
def dottedName : Rule :=
  field "property" (oneOf ["private_property_identifier", named "property_identifier" "identifier"])

/-- Rules in the place of those of plain scripts. -/
def changed (form : Form) : List (String × Rule) := [
  ("export_statement", oneOf [plainRule "export_statement",
    seq [word "export", word "type", "export_clause", opt "_from_clause", "_semicolon"],
    seq [word "export", word "import", "import_alias"],
    seq [word "export", word "=", "expression", "_semicolon"],
    seq [word "export", word "as", word "namespace", "identifier", "_semicolon"]]),
  ("export_specifier", seq [opt (oneOf [word "type", word "typeof"]), plainRule "export_specifier"]),
  ("declaration", oneOf [plainRule "declaration", "function_signature", "abstract_class_declaration",
    "module", level "declare" "internal_module", "type_alias_declaration", "enum_declaration",
    "interface_declaration", "import_alias", "ambient_declaration"]),
  ("import_statement", seq [word "import", opt (oneOf [word "type", word "typeof"]),
    oneOf [seq ["import_clause", "_from_clause"], "import_require_clause", field "source" "string"],
    opt "import_attribute", "_semicolon"]),
  ("import_clause", oneOf ["namespace_import", "named_imports",
    seq ["_import_identifier", opt (seq [word ",", oneOf ["namespace_import", "named_imports"]])]]),
  ("import_specifier", seq [opt (oneOf [word "type", word "typeof"]),
    oneOf [field "name" "_import_identifier",
      seq [field "name" (oneOf ["_module_export_name", named "identifier" (word "type")]),
        word "as", field "alias" "_import_identifier"]]]),
  ("variable_declarator", oneOf [
    seq [field "name" (oneOf ["identifier", "_destructuring_pattern"]), typed, opt "_initializer"],
    level "declare" <| seq [field "name" "identifier", word "!", field "type" "type_annotation"]]),
  ("catch_clause", seq [word "catch",
    opt (seq [word "(", field "parameter" (oneOf ["identifier", "_destructuring_pattern"]),
      opt (field "type" "type_annotation"), word ")"]),
    field "body" "statement_block"]),
  ("parenthesized_expression", seq [word "(",
    oneOf [seq ["expression", typed], "sequence_expression"], word ")"]),
  ("expression", oneOf <|
    (["as_expression", "satisfies_expression", "instantiation_expression", "internal_module"] : List Rule) ++
    match form with
    | .bare => "type_assertion" ::
        (alternatives (plainRule "expression")).filter (· ≠ (.ref "_jsx_element" : Rule))
    | .markup => alternatives (plainRule "expression")),
  ("primary_expression", oneOf [plainRule "primary_expression", "non_null_expression"]),
  ("jsx_opening_element", weigh (-1) <| seq ["_jsx_start_opening_element", word ">"]),
  ("jsx_self_closing_element", weigh (-1) <| seq ["_jsx_start_opening_element", word "/>"]),
  ("class", level "literal" <| seq [many (field "decorator" "decorator"), word "class",
    field "name" (opt "_type_identifier"), typeParameters, opt "class_heritage",
    field "body" "class_body"]),
  ("class_declaration", leftAt "declare" <| seq [many (field "decorator" "decorator"), word "class",
    field "name" "_type_identifier", typeParameters, opt "class_heritage", field "body" "class_body",
    opt "_automatic_semicolon"]),
  ("class_heritage", oneOf [seq ["extends_clause", opt "implements_clause"], "implements_clause"]),
  ("_call_signature", seq [typeParameters, field "parameters" "formal_parameters",
    field "return_type" (opt (oneOf ["type_annotation", "asserts_annotation",
      "type_predicate_annotation"]))]),
  ("_formal_parameter", oneOf ["required_parameter", "optional_parameter"]),
  ("call_expression", oneOf [
    level "call" <| seq [field "function" (oneOf ["expression", "import"]), typeArguments,
      field "arguments" "arguments"],
    level "template_call" <| seq [field "function" (oneOf ["primary_expression", "new_expression"]),
      field "arguments" "template_string"],
    level "member" <| seq [field "function" "primary_expression", word "?.", typeArguments,
      field "arguments" "arguments"]]),
  ("new_expression", rightAt "new" <| seq [word "new", field "constructor" "primary_expression",
    typeArguments, field "arguments" (opt "arguments")]),
  ("assignment_expression", rightAt "assign" <| seq [opt (word "using"),
    field "left" (oneOf ["parenthesized_expression", "_lhs_expression"]), word "=",
    field "right" "expression"]),
  ("_augmented_assignment_lhs", oneOf [plainRule "_augmented_assignment_lhs", "non_null_expression"]),
  ("_lhs_expression", oneOf [plainRule "_lhs_expression", "non_null_expression"]),
  ("decorator", seq [word "@", oneOf ["identifier",
    named "member_expression" "decorator_member_expression",
    named "call_expression" "decorator_call_expression",
    named "parenthesized_expression" "decorator_parenthesized_expression"]]),
  ("decorator_call_expression", level "call" <| seq [
    field "function" (oneOf ["identifier", named "member_expression" "decorator_member_expression"]),
    opt (field "type_arguments" "type_arguments"), field "arguments" "arguments"]),
  ("class_body", seq [openBrace,
    many (oneOf [
      seq [many (field "decorator" "decorator"), "method_definition", opt "_semicolon"],
      seq ["method_signature", oneOf ["_function_signature_automatic_semicolon", word ","]],
      "class_static_block",
      seq [oneOf ["abstract_method_signature", "index_signature", "method_signature",
          "public_field_definition"],
        oneOf ["_semicolon", word ","]],
      word ";"]),
    closeBrace]),
  ("method_definition", leftward <| seq [opt "accessibility_modifier", opt (word "static"),
    opt "override_modifier", opt (word "readonly"), opt (word "async"), accessorMark,
    field "name" "_property_name", opt (word "?"), "_call_signature", field "body" "statement_block"]),
  ("_reserved_identifier", oneOf [word "declare", word "namespace", word "type", word "public",
    word "private", word "protected", word "override", word "readonly", word "module", word "any",
    word "number", word "boolean", word "string", word "symbol", word "export", word "object",
    word "new", word "readonly", plainRule "_reserved_identifier"])]

/-- Declarations and the parts of classes that plain scripts do not have. -/
def declarations : List (String × Rule) := [
  ("public_field_definition", seq [many (field "decorator" "decorator"),
    opt (oneOf [seq [word "declare", opt "accessibility_modifier"],
      seq ["accessibility_modifier", opt (word "declare")]]),
    oneOf [seq [opt (word "static"), opt "override_modifier", opt (word "readonly")],
      seq [opt (word "abstract"), opt (word "readonly")],
      seq [opt (word "readonly"), opt (word "abstract")],
      opt (word "accessor")],
    field "name" "_property_name", opt (oneOf [word "?", word "!"]), typed, opt "_initializer"]),
  ("_jsx_start_opening_element", seq [word "<",
    opt (seq [
      oneOf [field "name" (oneOf ["_jsx_identifier", "jsx_namespace_name"]),
        seq [field "name" (oneOf ["identifier", named "member_expression" "nested_identifier"]),
          typeArguments]],
      many (field "attribute" "_jsx_attribute")])]),
  ("_import_identifier", oneOf ["identifier", named "identifier" (word "type")]),
  ("non_null_expression", leftAt "unary" <| seq ["expression", word "!"]),
  ("method_signature", seq [opt "accessibility_modifier", opt (word "static"), opt "override_modifier",
    opt (word "readonly"), opt (word "async"), accessorMark, field "name" "_property_name",
    opt (word "?"), "_call_signature"]),
  ("abstract_method_signature", seq [opt "accessibility_modifier", word "abstract",
    opt "override_modifier", accessorMark, field "name" "_property_name", opt (word "?"),
    "_call_signature"]),
  ("function_signature", seq [opt (word "async"), word "function", field "name" "identifier",
    "_call_signature", oneOf ["_semicolon", "_function_signature_automatic_semicolon"]]),
  ("decorator_parenthesized_expression", seq [word "(", oneOf ["identifier",
    named "member_expression" "decorator_member_expression",
    named "call_expression" "decorator_call_expression"], word ")"]),
  ("type_assertion", leftAt "unary" <| seq ["type_arguments", "expression"]),
  ("as_expression", leftAt "binary" <| seq ["expression", word "as", oneOf [word "const", "type"]]),
  ("satisfies_expression", leftAt "binary" <| seq ["expression", word "satisfies", "type"]),
  ("instantiation_expression", level "instantiation" <| seq ["expression",
    field "type_arguments" "type_arguments"]),
  ("import_require_clause", seq ["identifier", word "=", word "require", word "(",
    field "source" "string", word ")"]),
  ("extends_clause", seq [word "extends", commas1 "_extends_clause_single"]),
  ("_extends_clause_single", level "extends" <| seq [field "value" "expression", typeArguments]),
  ("implements_clause", seq [word "implements", commas1 "type"]),
  ("ambient_declaration", seq [word "declare", oneOf ["declaration",
    seq [word "global", "statement_block"],
    seq [word "module", word ".", named "property_identifier" "identifier", word ":", "type",
      "_semicolon"]]]),
  ("abstract_class_declaration", level "declare" <| seq [many (field "decorator" "decorator"),
    word "abstract", word "class", field "name" "_type_identifier", typeParameters,
    opt "class_heritage", field "body" "class_body"]),
  ("module", seq [word "module", "_module"]),
  ("internal_module", seq [word "namespace", "_module"]),
  ("_module", rightward <| seq [field "name" (oneOf ["string", "identifier", "nested_identifier"]),
    field "body" (opt "statement_block")]),
  ("import_alias", seq [word "import", "identifier", word "=",
    oneOf ["identifier", "nested_identifier"], "_semicolon"]),
  ("nested_type_identifier", level "member" <| seq [
    field "module" (oneOf ["identifier", "nested_identifier"]), word ".",
    field "name" "_type_identifier"]),
  ("interface_declaration", seq [word "interface", field "name" "_type_identifier", typeParameters,
    opt "extends_type_clause", field "body" (named "interface_body" "object_type")]),
  ("extends_type_clause", seq [word "extends",
    commas1 (field "type" (oneOf ["_type_identifier", "nested_type_identifier", "generic_type"]))]),
  ("enum_declaration", seq [opt (word "const"), word "enum", field "name" "identifier",
    field "body" "enum_body"]),
  ("enum_body", seq [openBrace,
    opt (seq [commas1 (oneOf [field "name" "_property_name", "enum_assignment"]), opt (word ",")]),
    closeBrace]),
  ("enum_assignment", seq [field "name" "_property_name", "_initializer"]),
  ("type_alias_declaration", seq [word "type", field "name" "_type_identifier", typeParameters,
    word "=", field "value" "type", "_semicolon"]),
  ("accessibility_modifier", oneOf [word "public", word "private", word "protected"]),
  ("override_modifier", word "override"),
  ("required_parameter", seq ["_parameter_name", typed, opt "_initializer"]),
  ("optional_parameter", seq ["_parameter_name", word "?", typed, opt "_initializer"]),
  ("_parameter_name", seq [many (field "decorator" "decorator"), opt "accessibility_modifier",
    opt "override_modifier", opt (word "readonly"), field "pattern" (oneOf ["pattern", "this"])])]

def types : List (String × Rule) := [
  ("omitting_type_annotation", seq [word "-?:", "type"]),
  ("adding_type_annotation", seq [word "+?:", "type"]),
  ("opting_type_annotation", seq [word "?:", "type"]),
  ("type_annotation", seq [word ":", oneOf ["type",
    named "member_expression" "_type_query_member_expression_in_type_annotation",
    named "call_expression" "_type_query_call_expression_in_type_annotation"]]),
  ("_type_query_member_expression_in_type_annotation", seq [
    field "object" (oneOf ["import",
      named "member_expression" "_type_query_member_expression_in_type_annotation",
      named "call_expression" "_type_query_call_expression_in_type_annotation"]),
    oneOf [word ".", word "?."], dottedName]),
  ("_type_query_call_expression_in_type_annotation", seq [
    field "function" (oneOf ["import",
      named "member_expression" "_type_query_member_expression_in_type_annotation"]),
    field "arguments" "arguments"]),
  ("asserts", seq [word "asserts", oneOf ["type_predicate", "identifier", "this"]]),
  ("asserts_annotation", seq [word ":", "asserts"]),
  ("type", oneOf ["primary_type", "function_type", "readonly_type", "constructor_type", "infer_type",
    bind (.number (-1)) none
      (named "member_expression" "_type_query_member_expression_in_type_annotation"),
    bind (.number (-1)) none
      (named "call_expression" "_type_query_call_expression_in_type_annotation")]),
  ("tuple_parameter", seq [field "name" (oneOf ["identifier", "rest_pattern"]),
    field "type" "type_annotation"]),
  ("optional_tuple_parameter", seq [field "name" "identifier", word "?",
    field "type" "type_annotation"]),
  ("optional_type", seq ["type", word "?"]),
  ("rest_type", seq [word "...", "type"]),
  ("_tuple_type_member", oneOf [named "required_parameter" "tuple_parameter",
    named "optional_parameter" "optional_tuple_parameter", "optional_type", "rest_type", "type"]),
  ("constructor_type", leftward <| seq [opt (word "abstract"), word "new", typeParameters,
    field "parameters" "formal_parameters", word "=>", field "type" "type"]),
  ("primary_type", oneOf ["parenthesized_type", "predefined_type", "_type_identifier",
    "nested_type_identifier", "generic_type", "object_type", "array_type", "tuple_type",
    "flow_maybe_type", "type_query", "index_type_query", named "this_type" "this", "existential_type",
    "literal_type", "lookup_type", "conditional_type", "template_literal_type", "intersection_type",
    "union_type", word "const"]),
  ("template_type", seq [word "$\x7b", oneOf ["primary_type", "infer_type"], closeBrace]),
  ("template_literal_type", seq [word "\x60",
    many (oneOf [named "string_fragment" "_template_chars", "template_type"]), word "\x60"]),
  ("infer_type", rightward <| seq [word "infer", "_type_identifier",
    opt (seq [word "extends", "type"])]),
  ("conditional_type", rightward <| seq [field "left" "type", word "extends", field "right" "type",
    word "?", field "consequence" "type", word ":", field "alternative" "type"]),
  ("generic_type", level "call" <| seq [
    field "name" (oneOf ["_type_identifier", "nested_type_identifier"]),
    field "type_arguments" "type_arguments"]),
  ("type_predicate", seq [
    field "name" (oneOf ["identifier", "this", named "identifier" "predefined_type"]),
    word "is", field "type" "type"]),
  ("type_predicate_annotation", seq [word ":", "type_predicate"]),
  ("_type_query_member_expression", seq [field "object" queryObject, oneOf [word ".", word "?."],
    dottedName]),
  ("_type_query_subscript_expression", seq [field "object" queryObject, opt (word "?."), word "[",
    field "index" (oneOf ["predefined_type", "string", "number"]), word "]"]),
  ("_type_query_call_expression", seq [field "function" queryFunction,
    field "arguments" "arguments"]),
  ("_type_query_instantiation_expression", seq [field "function" queryFunction,
    field "type_arguments" "type_arguments"]),
  ("type_query", rightward <| seq [word "typeof", oneOf [
    named "subscript_expression" "_type_query_subscript_expression",
    named "member_expression" "_type_query_member_expression",
    named "call_expression" "_type_query_call_expression",
    named "instantiation_expression" "_type_query_instantiation_expression",
    "identifier", "this"]]),
  ("index_type_query", seq [word "keyof", "primary_type"]),
  ("lookup_type", seq ["primary_type", word "[", "type", word "]"]),
  ("mapped_type_clause", seq [field "name" "_type_identifier", word "in", field "type" "type",
    opt (seq [word "as", field "alias" "type"])]),
  ("literal_type", oneOf [named "unary_expression" "_number", "number", "string", "true", "false",
    "null", "undefined"]),
  ("_number", bind (.number 1) (some .left) <| seq [
    field "operator" (oneOf [word "-", word "+"]), field "argument" "number"]),
  ("existential_type", word "*"),
  ("flow_maybe_type", rightward <| seq [word "?", "primary_type"]),
  ("parenthesized_type", seq [word "(", "type", word ")"]),
  ("predefined_type", oneOf [word "any", word "number", word "boolean", word "string", word "symbol",
    worded "unique symbol" (seq [word "unique", word "symbol"]), word "void", word "unknown",
    word "string", word "never", word "object"]),
  ("type_arguments", seq [word "<", commas1 "type", opt (word ","), word ">"]),
  ("object_type", seq [oneOf [openBrace, word "\x7b|"],
    opt (seq [opt (oneOf [word ",", word ";"]),
      sepBy1 (oneOf [word ",", "_semicolon"])
        (oneOf ["export_statement", "property_signature", "call_signature", "construct_signature",
          "index_signature", "method_signature"]),
      opt (oneOf [word ",", "_semicolon"])]),
    oneOf [closeBrace, word "|\x7d"]]),
  ("call_signature", "_call_signature"),
  ("property_signature", seq [opt "accessibility_modifier", opt (word "static"),
    opt "override_modifier", opt (word "readonly"), field "name" "_property_name", opt (word "?"),
    typed]),
  ("type_parameters", seq [word "<", commas1 "type_parameter", opt (word ","), word ">"]),
  ("type_parameter", seq [opt (word "const"), field "name" "_type_identifier",
    field "constraint" (opt "constraint"), field "value" (opt "default_type")]),
  ("default_type", seq [word "=", "type"]),
  ("constraint", seq [oneOf [word "extends", word ":"], "type"]),
  ("construct_signature", seq [opt (word "abstract"), word "new", typeParameters,
    field "parameters" "formal_parameters", typed]),
  ("index_signature", seq [
    opt (seq [field "sign" (opt (oneOf [word "-", word "+"])), word "readonly"]),
    word "[",
    oneOf [
      seq [field "name" (oneOf ["identifier", named "identifier" "_reserved_identifier"]), word ":",
        field "index_type" "type"],
      "mapped_type_clause"],
    word "]",
    field "type" (oneOf ["type_annotation", "omitting_type_annotation", "adding_type_annotation",
      "opting_type_annotation"])]),
  ("array_type", seq ["primary_type", word "[", word "]"]),
  ("tuple_type", seq [word "[", commas "_tuple_type_member", opt (word ","), word "]"]),
  ("readonly_type", seq [word "readonly", "type"]),
  ("union_type", leftward <| seq [opt "type", word "|", "type"]),
  ("intersection_type", leftward <| seq [opt "type", word "&", "type"]),
  ("function_type", leftward <| seq [typeParameters, field "parameters" "formal_parameters",
    word "=>", field "return_type" (oneOf ["type", "asserts", "type_predicate"])]),
  ("_type_identifier", named "type_identifier" "identifier")]

/-- The orders of binding that types bring, tightest first. -/
def rankings : List (List Rank) := [
  [.level "call", .level "instantiation", .level "unary", .level "binary", .rule "await_expression",
    .rule "arrow_function"],
  [.level "extends", .level "instantiation"],
  [.rule "intersection_type", .rule "union_type", .rule "conditional_type", .rule "function_type",
    .level "binary", .rule "type_predicate", .rule "readonly_type"],
  [.rule "mapped_type_clause", .rule "primary_expression"],
  [.rule "accessibility_modifier", .rule "primary_expression"],
  [.level "unary_void", .rule "expression"],
  [.rule "extends_clause", .rule "primary_expression"],
  [.level "unary", .level "assign"],
  [.level "declare", .rule "expression"],
  [.rule "predefined_type", .rule "unary_expression"],
  [.rule "type", .rule "flow_maybe_type"],
  [.rule "tuple_type", .rule "array_type", .rule "pattern", .rule "type"],
  [.rule "readonly_type", .rule "pattern"],
  [.rule "readonly_type", .rule "primary_expression"],
  [.rule "type_query", .rule "subscript_expression", .rule "expression"],
  [.rule "type_query", .rule "_type_query_subscript_expression"],
  [.rule "nested_type_identifier", .rule "generic_type", .rule "primary_type", .rule "lookup_type",
    .rule "index_type_query", .rule "type"],
  [.rule "as_expression", .rule "satisfies_expression", .rule "primary_type"],
  [.rule "_type_query_member_expression", .rule "member_expression"],
  [.rule "member_expression", .rule "_type_query_member_expression_in_type_annotation"],
  [.rule "_type_query_member_expression", .rule "primary_expression"],
  [.rule "_type_query_subscript_expression", .rule "subscript_expression"],
  [.rule "_type_query_subscript_expression", .rule "primary_expression"],
  [.rule "_type_query_call_expression", .rule "primary_expression"],
  [.rule "_type_query_instantiation_expression", .rule "primary_expression"],
  [.rule "type_query", .rule "primary_expression"],
  [.rule "override_modifier", .rule "primary_expression"],
  [.rule "decorator_call_expression", .rule "decorator"],
  [.rule "literal_type", .rule "pattern"],
  [.rule "predefined_type", .rule "pattern"],
  [.rule "call_expression", .rule "_type_query_call_expression"],
  [.rule "call_expression", .rule "_type_query_call_expression_in_type_annotation"],
  [.rule "new_expression", .rule "primary_expression"],
  [.rule "meta_property", .rule "primary_expression"],
  [.rule "construct_signature", .rule "_property_name"]]

def grammar (form : Form) : Rulebook where
  dialect := .typed
  rules := Script.grammar.override (changed form ++ declarations ++ types)
  contextual := Script.grammar.contextual ++
    [(Contextual.signatureSemicolon, ("_function_signature_automatic_semicolon" : Rule)),
      (Contextual.recovery, "__error_recovery")]
  extras := Script.grammar.extras
  inlined := (Script.grammar.inlined.filter fun n => n ≠ "_formal_parameter" && n ≠ "_call_signature") ++
    ["_type_identifier", "_jsx_start_opening_element"]
  hidden := Script.grammar.hidden ++ ["type", "primary_type"]
  rankings := Script.grammar.rankings ++ rankings
  fragile := Script.grammar.fragile ++ [word "?:"] ++
    match form with
    | .bare => [word "</"]
    | .markup => []

end DiffScope.Grammar.Typed
