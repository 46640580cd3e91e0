import PatternHarvest.Java.Grammar.Levels

/-!
# Statements
-/

namespace PatternHarvest.Java.Grammar

open PatternHarvest.Grammar Rule

/-- Statements. -/
def statements : List (String × Rule) := [
  ("statement", any [
    ref "declaration", ref "expression_statement", ref "labeled_statement", ref "if_statement",
    ref "while_statement", ref "for_statement", ref "enhanced_for_statement", ref "block", ";",
    ref "assert_statement", ref "do_statement", ref "break_statement", ref "continue_statement",
    ref "return_statement", ref "yield_statement", ref "switch_expression",
    ref "synchronized_statement", ref "local_variable_declaration", ref "throw_statement",
    ref "try_statement", ref "try_with_resources_statement"]),
  ("block", all ["\x7b", rep (ref "statement"), "\x7d"]),
  ("expression_statement", all [ref "expression", ";"]),
  ("labeled_statement", all [ref "identifier", ":", ref "statement"]),
  ("assert_statement", any [
    all ["assert", ref "expression", ";"],
    all ["assert", ref "expression", ":", ref "expression", ";"]]),
  ("do_statement", all [
    "do", field "body" (ref "statement"), "while",
    field "condition" (ref "parenthesized_expression"), ";"]),
  ("break_statement", all ["break", opt (ref "identifier"), ";"]),
  ("continue_statement", all ["continue", opt (ref "identifier"), ";"]),
  ("return_statement", all ["return", opt (ref "expression"), ";"]),
  ("yield_statement", all ["yield", ref "expression", ";"]),
  ("synchronized_statement", all [
    "synchronized", ref "parenthesized_expression", field "body" (ref "block")]),
  ("throw_statement", all ["throw", ref "expression", ";"]),
  ("try_statement", all [
    "try", field "body" (ref "block"),
    any [many (ref "catch_clause"), all [rep (ref "catch_clause"), ref "finally_clause"]]]),
  ("catch_clause", all [
    "catch", "(", ref "catch_formal_parameter", ")", field "body" (ref "block")]),
  ("catch_formal_parameter", all [
    opt (ref "modifiers"), ref "catch_type", ref "_variable_declarator_id"]),
  ("catch_type", separated (ref "_unannotated_type") "|"),
  ("finally_clause", all ["finally", ref "block"]),
  ("try_with_resources_statement", all [
    "try", field "resources" (ref "resource_specification"), field "body" (ref "block"),
    rep (ref "catch_clause"), opt (ref "finally_clause")]),
  ("resource_specification", all ["(", separated (ref "resource") ";", opt ";", ")"]),
  ("resource", any [
    all [opt (ref "modifiers"), field "type" (ref "_unannotated_type"),
      ref "_variable_declarator_id", "=", field "value" (ref "expression")],
    ref "identifier", ref "field_access"]),
  ("if_statement", rightAt 0 (all [
    "if", field "condition" (ref "parenthesized_expression"),
    field "consequence" (ref "statement"),
    opt (all ["else", field "alternative" (ref "statement")])])),
  ("while_statement", all [
    "while", field "condition" (ref "parenthesized_expression"),
    field "body" (ref "statement")]),
  ("for_statement", all [
    "for", "(",
    any [
      field "init" (ref "local_variable_declaration"),
      all [commas (field "init" (ref "expression")), ";"]],
    field "condition" (opt (ref "expression")), ";",
    commas (field "update" (ref "expression")), ")",
    field "body" (ref "statement")]),
  ("enhanced_for_statement", all [
    "for", "(", opt (ref "modifiers"), field "type" (ref "_unannotated_type"),
    ref "_variable_declarator_id", ":", field "value" (ref "expression"), ")",
    field "body" (ref "statement")])]

end PatternHarvest.Java.Grammar
