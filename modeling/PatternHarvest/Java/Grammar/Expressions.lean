import PatternHarvest.Java.Grammar.Levels

/-!
# Literals and expressions
-/

namespace PatternHarvest.Java.Grammar

open PatternHarvest.Grammar Rule

/-- Literals, among them strings with escapes and embedded expressions. -/
def literals : List (String × Rule) := [
  ("_literal", any [
    ref "decimal_integer_literal", ref "hex_integer_literal", ref "octal_integer_literal",
    ref "binary_integer_literal", ref "decimal_floating_point_literal",
    ref "hex_floating_point_literal", ref "true", ref "false", ref "character_literal",
    ref "string_literal", ref "null_literal"]),
  ("string_literal", any [ref "_string_literal", ref "_multiline_string_literal"]),
  ("_string_literal", all [
    "\"",
    rep (any [ref "string_fragment", ref "escape_sequence", ref "string_interpolation"]),
    "\""]),
  ("_multiline_string_literal", all [
    "\"\"\"",
    rep (any [
      called "multiline_string_fragment" (ref "_multiline_string_fragment"),
      ref "_escape_sequence", ref "string_interpolation"]),
    "\"\"\""]),
  ("_multiline_string_fragment", any [ref "plain_fragment", ref "quoted_fragment"]),
  ("string_interpolation", all ["\\\x7b", ref "expression", "\x7d"]),
  ("_escape_sequence", any [
    prec 2 none (ref "loose_escape"),
    prec 1 none (ref "escape_sequence")])]

/-- An expression of two operands around an operator. -/
def binary (operator : String) (level : Int) : Rule :=
  leftAt level (all [
    field "left" (ref "expression"), field "operator" operator,
    field "right" (ref "expression")])

/-- An expression of an operator before its operand. -/
def unary (operator : String) : Rule :=
  leftAt Level.unary (all [field "operator" operator, field "operand" (ref "expression")])

/-- The object whose field or method is meant. -/
def receiver : Rule := field "object" (any [ref "primary_expression", ref "super"])

/-- Expressions. -/
def expressions : List (String × Rule) := [
  ("expression", any [
    ref "assignment_expression", ref "binary_expression", ref "instanceof_expression",
    ref "lambda_expression", ref "ternary_expression", ref "update_expression",
    ref "primary_expression", ref "unary_expression", ref "cast_expression",
    ref "switch_expression"]),
  ("cast_expression", prec Level.cast none (any [
    all ["(", field "type" (ref "_type"), ")", field "value" (ref "expression")],
    all ["(", separated (field "type" (ref "_type")) "&", ")",
      field "value" (any [ref "primary_expression", ref "lambda_expression"])]])),
  ("assignment_expression", rightAt Level.assign (all [
    field "left" (any [
      ref "identifier", ref "_reserved_identifier", ref "field_access", ref "array_access"]),
    field "operator" (any [
      "=", "+=", "-=", "*=", "/=", "&=", "|=", "^=", "%=", "<<=", ">>=", ">>>="]),
    field "right" (ref "expression")])),
  ("binary_expression", any [
    binary ">" Level.relation, binary "<" Level.relation,
    binary ">=" Level.relation, binary "<=" Level.relation,
    binary "==" Level.equality, binary "!=" Level.equality,
    binary "&&" Level.and, binary "||" Level.or,
    binary "+" Level.sum, binary "-" Level.sum,
    binary "*" Level.product, binary "/" Level.product,
    binary "&" Level.bitAnd, binary "|" Level.bitOr, binary "^" Level.bitXor,
    binary "%" Level.product,
    binary "<<" Level.shift, binary ">>" Level.shift, binary ">>>" Level.shift]),
  ("instanceof_expression", prec Level.relation none (all [
    field "left" (ref "expression"), "instanceof", opt "final",
    any [
      all [field "right" (ref "_type"), opt (field "name" anyIdentifier)],
      field "pattern" (ref "record_pattern")]])),
  ("lambda_expression", all [
    field "parameters" (any [
      ref "identifier", ref "formal_parameters", ref "inferred_parameters",
      ref "_reserved_identifier"]),
    "->",
    field "body" (any [ref "expression", ref "block"])]),
  ("inferred_parameters", all ["(", commaList anyIdentifier, ")"]),
  ("ternary_expression", rightAt Level.ternary (all [
    field "condition" (ref "expression"), "?",
    field "consequence" (ref "expression"), ":",
    field "alternative" (ref "expression")])),
  ("unary_expression", any [unary "+", unary "-", unary "!", unary "~"]),
  ("update_expression", leftAt Level.unary (any [
    all [ref "expression", "++"], all [ref "expression", "--"],
    all ["++", ref "expression"], all ["--", ref "expression"]])),
  ("primary_expression", any [
    ref "_literal", ref "class_literal", ref "this", ref "identifier",
    ref "_reserved_identifier", ref "parenthesized_expression",
    ref "object_creation_expression", ref "field_access", ref "array_access",
    ref "method_invocation", ref "method_reference", ref "array_creation_expression",
    ref "template_expression"]),
  ("array_creation_expression", rightAt 0 (all [
    "new", annotations, field "type" simpleType,
    any [
      all [field "dimensions" (many (ref "dimensions_expr")),
        field "dimensions" (opt (ref "dimensions"))],
      all [field "dimensions" (ref "dimensions"), field "value" (ref "array_initializer")]]])),
  ("dimensions_expr", all [annotations, "[", ref "expression", "]"]),
  ("parenthesized_expression", all ["(", ref "expression", ")"]),
  ("class_literal", dynamic Level.classLiteral (all [ref "_unannotated_type", ".", "class"])),
  ("object_creation_expression", any [
    ref "_unqualified_object_creation_expression",
    all [ref "primary_expression", ".", ref "_unqualified_object_creation_expression"]]),
  ("_unqualified_object_creation_expression", rightAt 0 (all [
    "new",
    any [
      all [annotations, field "type_arguments" (ref "type_arguments"), annotations],
      annotations],
    field "type" simpleType, field "arguments" (ref "argument_list"),
    opt (ref "class_body")])),
  ("field_access", all [
    receiver, opt (all [".", ref "super"]), ".",
    field "field" (any [ref "identifier", ref "_reserved_identifier", ref "this"])]),
  ("template_expression", all [
    field "template_processor" (ref "primary_expression"), ".",
    field "template_argument" (ref "string_literal")]),
  ("array_access", all [
    field "array" (ref "primary_expression"), "[", field "index" (ref "expression"), "]"]),
  ("method_invocation", all [
    any [
      field "name" anyIdentifier,
      all [receiver, ".", opt (all [ref "super", "."]),
        field "type_arguments" (opt (ref "type_arguments")), field "name" anyIdentifier]],
    field "arguments" (ref "argument_list")]),
  ("argument_list", all ["(", commas (ref "expression"), ")"]),
  ("method_reference", all [
    any [ref "_type", ref "primary_expression", ref "super"], "::",
    opt (ref "type_arguments"), any ["new", ref "identifier"]]),
  ("type_arguments", all ["<", commas (any [ref "_type", ref "wildcard"]), ">"]),
  ("wildcard", all [annotations, "?", opt (ref "_wildcard_bounds")]),
  ("_wildcard_bounds", any [
    all ["extends", ref "_type"], all [ref "super", ref "_type"]]),
  ("dimensions", rightAt 0 (many (all [annotations, "[", "]"]))),
  ("switch_expression", all [
    "switch", field "condition" (ref "parenthesized_expression"),
    field "body" (ref "switch_block")]),
  ("switch_block", all [
    "\x7b",
    any [rep (ref "switch_block_statement_group"), rep (ref "switch_rule")],
    "\x7d"]),
  ("switch_block_statement_group", leftAt 0 (all [
    many (all [ref "switch_label", ":"]), rep (ref "statement")])),
  ("switch_rule", all [
    ref "switch_label", "->",
    any [ref "expression_statement", ref "throw_statement", ref "block"]]),
  ("switch_label", any [
    all ["case", any [ref "pattern", commaList (ref "expression")], opt (ref "guard")],
    "default"]),
  ("pattern", any [ref "type_pattern", ref "record_pattern"]),
  ("type_pattern", all [ref "_unannotated_type", anyIdentifier]),
  ("record_pattern", all [
    any [ref "identifier", ref "_reserved_identifier", ref "generic_type"],
    ref "record_pattern_body"]),
  ("record_pattern_body", all [
    "(", commas (any [ref "record_pattern_component", ref "record_pattern"]), ")"]),
  ("record_pattern_component", any [
    ref "underscore_pattern", all [ref "_unannotated_type", anyIdentifier]]),
  ("guard", all ["when", ref "expression"])]

end PatternHarvest.Java.Grammar
