import DiffScope.Grammar.Rule

/-!
# The grammar of plain scripts

Scripts without type annotations, with markup expressions.
-/

namespace DiffScope.Grammar.Script

open Rule DiffScope.Lexicon

def openBrace : Rule := word "\x7b"

def closeBrace : Rule := word "\x7d"

/-- An operator with its level and side, reading two expressions as one. -/
def operation (operator level : String) (rightSide : Bool) (left : Rule) : Rule :=
  (if rightSide then rightAt level else leftAt level) <|
    seq [field "left" left, field "operator" (word operator), field "right" "expression"]

/-- The operators between two expressions with their levels. -/
def operations : List (String × String × Bool) :=
  [("&&", "logical_and", false), ("||", "logical_or", false), (">>", "binary_shift", false),
   (">>>", "binary_shift", false), ("<<", "binary_shift", false), ("&", "bitwise_and", false),
   ("^", "bitwise_xor", false), ("|", "bitwise_or", false), ("+", "binary_plus", false),
   ("-", "binary_plus", false), ("*", "binary_times", false), ("/", "binary_times", false),
   ("%", "binary_times", false), ("**", "binary_exp", true), ("<", "binary_relation", false),
   ("<=", "binary_relation", false), ("==", "binary_equality", false), ("===", "binary_equality", false),
   ("!=", "binary_equality", false), ("!==", "binary_equality", false), (">=", "binary_relation", false),
   (">", "binary_relation", false), ("??", "ternary", false), ("instanceof", "binary_relation", false),
   ("in", "binary_relation", false)]

/-- The marks that assign after an operation. -/
def assigningMarks : List String :=
  ["+=", "-=", "*=", "/=", "%=", "^=", "&=", "|=", ">>=", ">>>=", "<<=", "**=", "&&=", "||=", "??="]

/-- Modules, declarations and statements. -/
def statements : List (String × Rule) := [
  ("program", seq [opt "hash_bang_line", many "statement"]),
  ("hash_bang_line", lexeme .interpreterLine),
  ("export_statement", oneOf [
    seq [word "export",
      oneOf [
        seq [word "*", "_from_clause"],
        seq ["namespace_export", "_from_clause"],
        seq ["export_clause", "_from_clause"],
        "export_clause"],
      "_semicolon"],
    seq [many (field "decorator" "decorator"), word "export",
      oneOf [
        field "declaration" "declaration",
        seq [word "default",
          oneOf [
            field "declaration" "declaration",
            seq [field "value" "expression", "_semicolon"]]]]]]),
  ("namespace_export", seq [word "*", word "as", "_module_export_name"]),
  ("export_clause", seq [openBrace, commas "export_specifier", opt (word ","), closeBrace]),
  ("export_specifier", seq [field "name" "_module_export_name",
    opt (seq [word "as", field "alias" "_module_export_name"])]),
  ("_module_export_name", oneOf ["identifier", "string"]),
  ("declaration", oneOf ["function_declaration", "generator_function_declaration", "class_declaration",
    "lexical_declaration", "variable_declaration"]),
  ("import", word "import"),
  ("import_statement", seq [word "import",
    oneOf [seq ["import_clause", "_from_clause"], field "source" "string"],
    opt "import_attribute", "_semicolon"]),
  ("import_clause", oneOf ["namespace_import", "named_imports",
    seq ["identifier", opt (seq [word ",", oneOf ["namespace_import", "named_imports"]])]]),
  ("_from_clause", seq [word "from", field "source" "string"]),
  ("namespace_import", seq [word "*", word "as", "identifier"]),
  ("named_imports", seq [openBrace, commas "import_specifier", opt (word ","), closeBrace]),
  ("import_specifier", oneOf [field "name" "identifier",
    seq [field "name" "_module_export_name", word "as", field "alias" "identifier"]]),
  ("import_attribute", seq [word "with", "object"]),
  ("statement", oneOf ["export_statement", "import_statement", "debugger_statement", "expression_statement",
    "declaration", "statement_block", "if_statement", "switch_statement", "for_statement", "for_in_statement",
    "while_statement", "do_statement", "try_statement", "with_statement", "break_statement",
    "continue_statement", "return_statement", "throw_statement", "empty_statement", "labeled_statement"]),
  ("expression_statement", seq ["_expressions", "_semicolon"]),
  ("variable_declaration", seq [word "var", commas1 "variable_declarator", "_semicolon"]),
  ("lexical_declaration", seq [field "kind" (oneOf [word "let", word "const"]),
    commas1 "variable_declarator", "_semicolon"]),
  ("variable_declarator", seq [field "name" (oneOf ["identifier", "_destructuring_pattern"]),
    opt "_initializer"]),
  ("statement_block", rightward <| seq [openBrace, many "statement", closeBrace, opt "_automatic_semicolon"]),
  ("else_clause", seq [word "else", "statement"]),
  ("if_statement", rightward <| seq [word "if", field "condition" "parenthesized_expression",
    field "consequence" "statement", opt (field "alternative" "else_clause")]),
  ("switch_statement", seq [word "switch", field "value" "parenthesized_expression",
    field "body" "switch_body"]),
  ("for_statement", seq [word "for", word "(",
    oneOf [field "initializer" (oneOf ["lexical_declaration", "variable_declaration"]),
      seq [field "initializer" "_expressions", word ";"],
      field "initializer" "empty_statement"],
    field "condition" (oneOf [seq ["_expressions", word ";"], "empty_statement"]),
    field "increment" (opt "_expressions"), word ")", field "body" "statement"]),
  ("for_in_statement", seq [word "for", opt (word "await"), "_for_header", field "body" "statement"]),
  ("_for_header", seq [word "(",
    oneOf [
      field "left" (oneOf ["_lhs_expression", "parenthesized_expression"]),
      seq [field "kind" (word "var"), field "left" (oneOf ["identifier", "_destructuring_pattern"]),
        opt "_initializer"],
      seq [field "kind" (oneOf [word "let", word "const"]),
        field "left" (oneOf ["identifier", "_destructuring_pattern"]), opt "_automatic_semicolon"]],
    field "operator" (oneOf [word "in", word "of"]), field "right" "_expressions", word ")"]),
  ("while_statement", seq [word "while", field "condition" "parenthesized_expression",
    field "body" "statement"]),
  ("do_statement", rightward <| seq [word "do", field "body" "statement", word "while",
    field "condition" "parenthesized_expression", opt "_semicolon"]),
  ("try_statement", seq [word "try", field "body" "statement_block", opt (field "handler" "catch_clause"),
    opt (field "finalizer" "finally_clause")]),
  ("with_statement", seq [word "with", field "object" "parenthesized_expression", field "body" "statement"]),
  ("break_statement", seq [word "break", field "label" (opt (named "statement_identifier" "identifier")),
    "_semicolon"]),
  ("continue_statement", seq [word "continue",
    field "label" (opt (named "statement_identifier" "identifier")), "_semicolon"]),
  ("debugger_statement", seq [word "debugger", "_semicolon"]),
  ("return_statement", seq [word "return", opt "_expressions", "_semicolon"]),
  ("throw_statement", seq [word "throw", "_expressions", "_semicolon"]),
  ("empty_statement", word ";"),
  ("labeled_statement", weigh (-1) <| seq [
    field "label" (named "statement_identifier" (oneOf ["identifier", "_reserved_identifier"])),
    word ":", field "body" "statement"]),
  ("switch_body", seq [openBrace, many (oneOf ["switch_case", "switch_default"]), closeBrace]),
  ("switch_case", seq [word "case", field "value" "_expressions", word ":",
    field "body" (many "statement")]),
  ("switch_default", seq [word "default", word ":", field "body" (many "statement")]),
  ("catch_clause", seq [word "catch",
    opt (seq [word "(", field "parameter" (oneOf ["identifier", "_destructuring_pattern"]), word ")"]),
    field "body" "statement_block"]),
  ("finally_clause", seq [word "finally", field "body" "statement_block"])]

/-- Expressions, patterns and markup. -/
def expressions : List (String × Rule) := [
  ("parenthesized_expression", seq [word "(", "_expressions", word ")"]),
  ("_expressions", oneOf ["expression", "sequence_expression"]),
  ("expression", oneOf ["primary_expression", "_jsx_element", "assignment_expression",
    "augmented_assignment_expression", "await_expression", "unary_expression", "binary_expression",
    "ternary_expression", "update_expression", "new_expression", "yield_expression"]),
  ("primary_expression", oneOf ["subscript_expression", "member_expression", "parenthesized_expression",
    "_identifier", named "identifier" "_reserved_identifier", "this", "super", "number", "string",
    "template_string", "regex", "true", "false", "null", "object", "array", "function_expression",
    "arrow_function", "generator_function", "class", "meta_property", "call_expression"]),
  ("yield_expression", rightward <| seq [word "yield",
    oneOf [seq [word "*", "expression"], opt "expression"]]),
  ("object", level "object" <| seq [openBrace,
    commas (opt (oneOf ["pair", "spread_element", "method_definition",
      named "shorthand_property_identifier" (oneOf ["identifier", "_reserved_identifier"])])),
    closeBrace]),
  ("object_pattern", level "object" <| seq [openBrace,
    commas (opt (oneOf ["pair_pattern", "rest_pattern", "object_assignment_pattern",
      named "shorthand_property_identifier_pattern" (oneOf ["identifier", "_reserved_identifier"])])),
    closeBrace]),
  ("assignment_pattern", seq [field "left" "pattern", word "=", field "right" "expression"]),
  ("object_assignment_pattern", seq [
    field "left" (oneOf [
      named "shorthand_property_identifier_pattern" (oneOf ["_reserved_identifier", "identifier"]),
      "_destructuring_pattern"]),
    word "=", field "right" "expression"]),
  ("array", seq [word "[", commas (opt (oneOf ["expression", "spread_element"])), word "]"]),
  ("array_pattern", seq [word "[", commas (opt (oneOf ["pattern", "assignment_pattern"])), word "]"]),
  ("jsx_element", seq [field "open_tag" "jsx_opening_element", many "_jsx_child",
    field "close_tag" "jsx_closing_element"]),
  ("html_character_reference", lexeme .charReference),
  ("jsx_expression", seq [openBrace,
    opt (oneOf ["expression", "sequence_expression", "spread_element"]), closeBrace]),
  ("_jsx_child", oneOf ["jsx_text", "html_character_reference", "_jsx_element", "jsx_expression"]),
  ("jsx_opening_element", weigh (-1) <| seq [word "<",
    opt (seq [field "name" "_jsx_element_name", many (field "attribute" "_jsx_attribute")]), word ">"]),
  ("jsx_identifier", lexeme .tagName),
  ("_jsx_identifier", oneOf [named "identifier" "jsx_identifier", "identifier"]),
  ("nested_identifier", level "member" <| seq [
    field "object" (oneOf ["identifier", named "member_expression" "nested_identifier"]),
    word ".", field "property" (named "property_identifier" "identifier")]),
  ("jsx_namespace_name", seq ["_jsx_identifier", word ":", "_jsx_identifier"]),
  ("_jsx_element_name", oneOf ["_jsx_identifier", named "member_expression" "nested_identifier",
    "jsx_namespace_name"]),
  ("jsx_closing_element", seq [word "</", opt (field "name" "_jsx_element_name"), word ">"]),
  ("jsx_self_closing_element", seq [word "<", field "name" "_jsx_element_name",
    many (field "attribute" "_jsx_attribute"), word "/>"]),
  ("_jsx_attribute", oneOf ["jsx_attribute", "jsx_expression"]),
  ("_jsx_attribute_name", oneOf [named "property_identifier" "_jsx_identifier", "jsx_namespace_name"]),
  ("jsx_attribute", seq ["_jsx_attribute_name", opt (seq [word "=", "_jsx_attribute_value"])]),
  ("_jsx_string", oneOf [
    seq [word "\"", many (oneOf [named "string_fragment" "unescaped_double_jsx_string_fragment",
      "html_character_reference"]), word "\""],
    seq [word "\x27", many (oneOf [named "string_fragment" "unescaped_single_jsx_string_fragment",
      "html_character_reference"]), word "\x27"]]),
  ("unescaped_double_jsx_string_fragment", lexeme (.attributeText .double)),
  ("unescaped_single_jsx_string_fragment", lexeme (.attributeText .single)),
  ("_jsx_attribute_value", oneOf [named "string" "_jsx_string", "jsx_expression", "_jsx_element"]),
  ("_jsx_element", oneOf ["jsx_element", "jsx_self_closing_element"]),
  ("class", level "literal" <| seq [many (field "decorator" "decorator"), word "class",
    field "name" (opt "identifier"), opt "class_heritage", field "body" "class_body"]),
  ("class_declaration", level "declare" <| seq [many (field "decorator" "decorator"), word "class",
    field "name" "identifier", opt "class_heritage", field "body" "class_body", opt "_automatic_semicolon"]),
  ("class_heritage", seq [word "extends", "expression"]),
  ("function_expression", level "literal" <| seq [opt (word "async"), word "function",
    field "name" (opt "identifier"), "_call_signature", field "body" "statement_block"]),
  ("function_declaration", rightAt "declare" <| seq [opt (word "async"), word "function",
    field "name" "identifier", "_call_signature", field "body" "statement_block",
    opt "_automatic_semicolon"]),
  ("generator_function", level "literal" <| seq [opt (word "async"), word "function", word "*",
    field "name" (opt "identifier"), "_call_signature", field "body" "statement_block"]),
  ("generator_function_declaration", rightAt "declare" <| seq [opt (word "async"), word "function",
    word "*", field "name" "identifier", "_call_signature", field "body" "statement_block",
    opt "_automatic_semicolon"]),
  ("arrow_function", seq [opt (word "async"),
    oneOf [field "parameter" (oneOf [named "identifier" "_reserved_identifier", "identifier"]),
      "_call_signature"],
    word "=>", field "body" (oneOf ["expression", "statement_block"])]),
  ("_call_signature", field "parameters" "formal_parameters"),
  ("_formal_parameter", oneOf ["pattern", "assignment_pattern"]),
  ("optional_chain", word "?."),
  ("call_expression", oneOf [
    level "call" <| seq [field "function" (oneOf ["expression", "import"]), field "arguments" "arguments"],
    level "template_call" <| seq [field "function" (oneOf ["primary_expression", "new_expression"]),
      field "arguments" "template_string"],
    level "member" <| seq [field "function" "primary_expression", field "optional_chain" "optional_chain",
      field "arguments" "arguments"]]),
  ("new_expression", rightAt "new" <| seq [word "new",
    field "constructor" (oneOf ["primary_expression", "new_expression"]),
    field "arguments" (opt (weigh 1 "arguments"))]),
  ("await_expression", level "unary_void" <| seq [word "await", "expression"]),
  ("member_expression", level "member" <| seq [
    field "object" (oneOf ["expression", "primary_expression", "import"]),
    oneOf [word ".", field "optional_chain" "optional_chain"],
    field "property" (oneOf ["private_property_identifier", named "property_identifier" "identifier"])]),
  ("subscript_expression", rightAt "member" <| seq [
    field "object" (oneOf ["expression", "primary_expression"]),
    opt (field "optional_chain" "optional_chain"), word "[", field "index" "_expressions", word "]"]),
  ("_lhs_expression", oneOf ["member_expression", "subscript_expression", "_identifier",
    named "identifier" "_reserved_identifier", "_destructuring_pattern"]),
  ("assignment_expression", rightAt "assign" <| seq [
    field "left" (oneOf ["parenthesized_expression", "_lhs_expression"]), word "=",
    field "right" "expression"]),
  ("_augmented_assignment_lhs", oneOf ["member_expression", "subscript_expression",
    named "identifier" "_reserved_identifier", "identifier", "parenthesized_expression"]),
  ("augmented_assignment_expression", rightAt "assign" <| seq [field "left" "_augmented_assignment_lhs",
    field "operator" (oneOf (assigningMarks.map word)), field "right" "expression"]),
  ("_initializer", seq [word "=", field "value" "expression"]),
  ("_destructuring_pattern", oneOf ["object_pattern", "array_pattern"]),
  ("spread_element", seq [word "...", "expression"]),
  ("ternary_expression", rightAt "ternary" <| seq [field "condition" "expression",
    worded "?" "_ternary_qmark", field "consequence" "expression", word ":",
    field "alternative" "expression"]),
  ("binary_expression", oneOf <| operations.map fun (operator, l, rightSide) =>
    operation operator l rightSide
      (if operator = "in" then oneOf ["expression", "private_property_identifier"] else "expression")),
  ("unary_expression", leftAt "unary_void" <| seq [
    field "operator" (oneOf [word "!", word "~", word "-", word "+", word "typeof", word "void",
      word "delete"]),
    field "argument" "expression"]),
  ("update_expression", leftward <| oneOf [
    seq [field "argument" "expression", field "operator" (oneOf [word "++", word "--"])],
    seq [field "operator" (oneOf [word "++", word "--"]), field "argument" "expression"]]),
  ("sequence_expression", rightward <| commas1 "expression")]

/-- Literals and the parts of declarations. -/
def parts : List (String × Rule) := [
  ("string", oneOf [
    seq [word "\"", many (oneOf [named "string_fragment" "unescaped_double_string_fragment",
      "escape_sequence"]), word "\""],
    seq [word "\x27", many (oneOf [named "string_fragment" "unescaped_single_string_fragment",
      "escape_sequence"]), word "\x27"]]),
  ("unescaped_double_string_fragment", lexeme (.stringText .double)),
  ("unescaped_single_string_fragment", lexeme (.stringText .single)),
  ("escape_sequence", lexeme .escape),
  ("comment", lexeme .comment),
  ("template_string", seq [word "\x60",
    many (oneOf [named "string_fragment" "_template_chars", "escape_sequence", "template_substitution"]),
    word "\x60"]),
  ("template_substitution", seq [word "$\x7b", "_expressions", closeBrace]),
  ("regex", seq [word "/", field "pattern" "regex_pattern", lexeme .patternEnd,
    opt (field "flags" "regex_flags")]),
  ("regex_pattern", lexeme .pattern),
  ("regex_flags", lexeme .patternFlags),
  ("number", lexeme .number),
  ("_identifier", oneOf ["undefined", "identifier"]),
  ("identifier", lexeme .name),
  ("private_property_identifier", lexeme .privateName),
  ("meta_property", oneOf [seq [word "new", word ".", word "target"],
    seq [word "import", word ".", word "meta"]]),
  ("this", word "this"),
  ("super", word "super"),
  ("true", word "true"),
  ("false", word "false"),
  ("null", word "null"),
  ("undefined", word "undefined"),
  ("arguments", seq [word "(", commas (opt (oneOf ["expression", "spread_element"])), word ")"]),
  ("decorator", seq [word "@", oneOf ["identifier",
    named "member_expression" "decorator_member_expression",
    named "call_expression" "decorator_call_expression"]]),
  ("decorator_member_expression", level "member" <| seq [
    field "object" (oneOf ["identifier", named "member_expression" "decorator_member_expression"]),
    word ".", field "property" (named "property_identifier" "identifier")]),
  ("decorator_call_expression", level "call" <| seq [
    field "function" (oneOf ["identifier", named "member_expression" "decorator_member_expression"]),
    field "arguments" "arguments"]),
  ("class_body", seq [openBrace,
    many (oneOf [
      seq [field "member" "method_definition", opt (word ";")],
      seq [field "member" "field_definition", "_semicolon"],
      field "member" "class_static_block",
      word ";"]),
    closeBrace]),
  ("field_definition", seq [many (field "decorator" "decorator"), opt (word "static"),
    field "property" "_property_name", opt "_initializer"]),
  ("formal_parameters", seq [word "(", opt (seq [commas1 "_formal_parameter", opt (word ",")]), word ")"]),
  ("class_static_block", seq [word "static", field "body" "statement_block"]),
  ("pattern", weigh (-1) <| oneOf ["_lhs_expression", "rest_pattern"]),
  ("rest_pattern", rightward <| seq [word "...", "_lhs_expression"]),
  ("method_definition", seq [many (field "decorator" "decorator"),
    opt (oneOf [word "static", worded "static get" (lexeme .staticAccessor)]),
    opt (word "async"), opt (oneOf [word "get", word "set", word "*"]),
    field "name" "_property_name", field "parameters" "formal_parameters",
    field "body" "statement_block"]),
  ("pair", seq [field "key" "_property_name", word ":", field "value" "expression"]),
  ("pair_pattern", seq [field "key" "_property_name", word ":",
    field "value" (oneOf ["pattern", "assignment_pattern"])]),
  ("_property_name", oneOf [named "property_identifier" (oneOf ["identifier", "_reserved_identifier"]),
    "private_property_identifier", "string", "number", "computed_property_name"]),
  ("computed_property_name", seq [word "[", "expression", word "]"]),
  ("_reserved_identifier", oneOf [word "get", word "set", word "async", word "static", word "export",
    word "let"]),
  ("_semicolon", oneOf ["_automatic_semicolon", word ";"])]

/-- The orders of binding, tightest first. -/
def rankings : List (List Rank) := [
  [.level "member", .level "template_call", .level "call", .rule "update_expression", .level "unary_void",
    .level "binary_exp", .level "binary_times", .level "binary_plus", .level "binary_shift",
    .level "binary_compare", .level "binary_relation", .level "binary_equality", .level "bitwise_and",
    .level "bitwise_xor", .level "bitwise_or", .level "logical_and", .level "logical_or", .level "ternary",
    .rule "sequence_expression", .rule "arrow_function"],
  [.level "assign", .rule "primary_expression"],
  [.level "member", .level "template_call", .level "new", .level "call", .rule "expression"],
  [.level "declare", .level "literal"],
  [.rule "primary_expression", .rule "statement_block", .level "object"],
  [.rule "meta_property", .rule "import"],
  [.rule "import_statement", .rule "import"],
  [.rule "export_statement", .rule "primary_expression"],
  [.rule "lexical_declaration", .rule "primary_expression"]]

def grammar : Rulebook where
  dialect := .plain
  rules := statements ++ expressions ++ parts
  contextual := [(.semicolon, "_automatic_semicolon"), (.templateText, "_template_chars"),
    (.questionMark, "_ternary_qmark"), (.htmlComment, "html_comment"), (.logicalOr, word "||"),
    (.escape, "escape_sequence"), (.pattern, "regex_pattern"), (.markupText, "jsx_text")]
  extras := ["comment", "html_comment"]
  inlined := ["_call_signature", "_formal_parameter", "_expressions", "_semicolon", "_identifier",
    "_reserved_identifier", "_jsx_attribute", "_jsx_element_name", "_jsx_child", "_jsx_element",
    "_jsx_attribute_name", "_jsx_attribute_value", "_jsx_identifier", "_lhs_expression"]
  hidden := ["statement", "declaration", "expression", "primary_expression", "pattern"]
  rankings := rankings
  fragile := ["regex_pattern", "regex_flags", "html_character_reference", "jsx_identifier", word "/>",
    "unescaped_double_string_fragment", "unescaped_single_string_fragment",
    "unescaped_double_jsx_string_fragment", "unescaped_single_jsx_string_fragment"]

end DiffScope.Grammar.Script
