import PatternHarvest.Java.Grammar.Levels

/-!
# Types and methods
-/

namespace PatternHarvest.Java.Grammar

open PatternHarvest.Grammar Rule

/-- Types. -/
def types : List (String × Rule) := [
  ("_type", any [ref "_unannotated_type", ref "annotated_type"]),
  ("_unannotated_type", any [simpleType, ref "array_type"]),
  ("annotated_type", all [many (ref "_annotation"), ref "_unannotated_type"]),
  ("scoped_type_identifier", all [
    any [typeName, ref "scoped_type_identifier", ref "generic_type"], ".", annotations,
    typeName]),
  ("generic_type", dynamic Level.generic (all [
    any [typeName, ref "scoped_type_identifier"], ref "type_arguments"])),
  ("array_type", all [
    field "element" (ref "_unannotated_type"), field "dimensions" (ref "dimensions")]),
  ("integral_type", any ["byte", "short", "int", "long", "char"]),
  ("floating_point_type", any ["float", "double"])]

/-- Methods and their parameters, and declarations of local variables. -/
def methods : List (String × Rule) := [
  ("_method_header", all [
    opt (all [field "type_parameters" (ref "type_parameters"), annotations]),
    field "type" (ref "_unannotated_type"), ref "_method_declarator", opt (ref "throws")]),
  ("_method_declarator", all [
    field "name" anyIdentifier, field "parameters" (ref "formal_parameters"),
    field "dimensions" (opt (ref "dimensions"))]),
  ("formal_parameters", all [
    "(",
    any [
      ref "receiver_parameter",
      all [opt (all [ref "receiver_parameter", ","]),
        commas (any [ref "formal_parameter", ref "spread_parameter"])]],
    ")"]),
  ("formal_parameter", all [
    opt (ref "modifiers"), field "type" (ref "_unannotated_type"),
    ref "_variable_declarator_id"]),
  ("receiver_parameter", all [
    annotations, ref "_unannotated_type", rep (all [ref "identifier", "."]), ref "this"]),
  ("spread_parameter", all [
    opt (ref "modifiers"), ref "_unannotated_type", "...", annotations,
    ref "variable_declarator"]),
  ("throws", all ["throws", commaList (ref "_type")]),
  ("local_variable_declaration", all [
    opt (ref "modifiers"), field "type" (ref "_unannotated_type"),
    ref "_variable_declarator_list", ";"]),
  ("method_declaration", all [
    opt (ref "modifiers"), ref "_method_header", any [field "body" (ref "block"), ";"]]),
  ("compact_constructor_declaration", all [
    opt (ref "modifiers"), field "name" (ref "identifier"), field "body" (ref "block")]),
  ("_reserved_identifier", any [
    prec (-3) none (called "identifier" (any ["open", "module", "record", "with", "sealed"])),
    called "identifier" "yield"])]

end PatternHarvest.Java.Grammar
