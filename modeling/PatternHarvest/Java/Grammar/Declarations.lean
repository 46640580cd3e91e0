import PatternHarvest.Java.Grammar.Levels

/-!
# Annotations and declarations
-/

namespace PatternHarvest.Java.Grammar

open PatternHarvest.Grammar Rule

/-- Annotations and their arguments. -/
def annotationRules : List (String × Rule) := [
  ("_annotation", any [ref "marker_annotation", ref "annotation"]),
  ("marker_annotation", all ["@", field "name" qualifiedName]),
  ("annotation", all [
    "@", field "name" qualifiedName, field "arguments" (ref "annotation_argument_list")]),
  ("annotation_argument_list", all [
    "(", any [ref "_element_value", commas (ref "element_value_pair")], ")"]),
  ("element_value_pair", all [
    field "key" anyIdentifier, "=", field "value" (ref "_element_value")]),
  ("_element_value", prec Level.elementValue none (any [
    ref "expression", ref "element_value_array_initializer", ref "_annotation"])),
  ("element_value_array_initializer", all [
    "\x7b", commas (ref "_element_value"), opt ",", "\x7d"])]

/-- Modules. -/
def moduleRules : List (String × Rule) := [
  ("module_declaration", all [
    annotations, opt "open", "module", field "name" qualifiedName,
    field "body" (ref "module_body")]),
  ("module_body", all ["\x7b", rep (ref "module_directive"), "\x7d"]),
  ("module_directive", any [
    ref "requires_module_directive", ref "exports_module_directive",
    ref "opens_module_directive", ref "uses_module_directive",
    ref "provides_module_directive"]),
  ("requires_module_directive", all [
    "requires", rep (field "modifiers" (ref "requires_modifier")),
    field "module" qualifiedName, ";"]),
  ("requires_modifier", any ["transitive", "static"]),
  ("exports_module_directive", all [
    "exports", field "package" qualifiedName,
    opt (all ["to", separated (field "modules" qualifiedName) ","]), ";"]),
  ("opens_module_directive", all [
    "opens", field "package" qualifiedName,
    opt (all ["to", separated (field "modules" qualifiedName) ","]), ";"]),
  ("uses_module_directive", all ["uses", field "type" qualifiedName, ";"]),
  ("provides_module_directive", all [
    "provides", field "provided" qualifiedName, "with", qualifiedName,
    rep (all [",", field "provider" qualifiedName]), ";"]),
  ("package_declaration", all [annotations, "package", qualifiedName, ";"]),
  ("import_declaration", all [
    "import", opt "static", qualifiedName, opt (all [".", ref "asterisk"]), ";"]),
  ("asterisk", "*")]

/-- What can stand in the body of a class. -/
def classBodyDeclaration : Rule :=
  any [
    ref "field_declaration", ref "record_declaration", ref "method_declaration",
    ref "compact_constructor_declaration", ref "class_declaration",
    ref "interface_declaration", ref "annotation_type_declaration", ref "enum_declaration",
    ref "block", ref "static_initializer", ref "constructor_declaration", ";"]

/-- Classes, enumerations, records, interfaces and what their bodies hold. -/
def typeDeclarations : List (String × Rule) := [
  ("enum_declaration", all [
    opt (ref "modifiers"), "enum", field "name" (ref "identifier"),
    field "interfaces" (opt (ref "super_interfaces")), field "body" (ref "enum_body")]),
  ("enum_body", all [
    "\x7b", commas (ref "enum_constant"), opt ",", opt (ref "enum_body_declarations"),
    "\x7d"]),
  ("enum_body_declarations", all [";", rep classBodyDeclaration]),
  ("enum_constant", all [
    opt (ref "modifiers"), field "name" (ref "identifier"),
    field "arguments" (opt (ref "argument_list")), field "body" (opt (ref "class_body"))]),
  ("class_declaration", all [
    opt (ref "modifiers"), "class", field "name" (ref "identifier"),
    opt (field "type_parameters" (ref "type_parameters")),
    opt (field "superclass" (ref "superclass")),
    opt (field "interfaces" (ref "super_interfaces")),
    opt (field "permits" (ref "permits")), field "body" (ref "class_body")]),
  ("modifiers", many (any [
    ref "_annotation", "public", "protected", "private", "abstract", "static", "final",
    "strictfp", "default", "synchronized", "native", "transient", "volatile", "sealed",
    "non-sealed"])),
  ("type_parameters", all ["<", commaList (ref "type_parameter"), ">"]),
  ("type_parameter", all [annotations, typeName, opt (ref "type_bound")]),
  ("type_bound", all ["extends", ref "_type", rep (all ["&", ref "_type"])]),
  ("superclass", all ["extends", ref "_type"]),
  ("super_interfaces", all ["implements", ref "type_list"]),
  ("type_list", all [ref "_type", rep (all [",", ref "_type"])]),
  ("permits", all ["permits", ref "type_list"]),
  ("class_body", all ["\x7b", rep classBodyDeclaration, "\x7d"]),
  ("static_initializer", all ["static", ref "block"]),
  ("constructor_declaration", all [
    opt (ref "modifiers"), ref "_constructor_declarator", opt (ref "throws"),
    field "body" (ref "constructor_body")]),
  ("_constructor_declarator", all [
    field "type_parameters" (opt (ref "type_parameters")), field "name" (ref "identifier"),
    field "parameters" (ref "formal_parameters")]),
  ("constructor_body", all [
    "\x7b", opt (ref "explicit_constructor_invocation"), rep (ref "statement"), "\x7d"]),
  ("explicit_constructor_invocation", all [
    any [
      all [field "type_arguments" (opt (ref "type_arguments")),
        field "constructor" (any [ref "this", ref "super"])],
      all [field "object" (ref "primary_expression"), ".",
        field "type_arguments" (opt (ref "type_arguments")),
        field "constructor" (ref "super")]],
    field "arguments" (ref "argument_list"), ";"]),
  ("scoped_identifier", all [
    field "scope" qualifiedName, ".", field "name" (ref "identifier")]),
  ("field_declaration", all [
    opt (ref "modifiers"), field "type" (ref "_unannotated_type"),
    ref "_variable_declarator_list", ";"]),
  ("record_declaration", all [
    opt (ref "modifiers"), "record", field "name" (ref "identifier"),
    opt (field "type_parameters" (ref "type_parameters")),
    field "parameters" (ref "formal_parameters"),
    opt (field "interfaces" (ref "super_interfaces")), field "body" (ref "class_body")]),
  ("annotation_type_declaration", all [
    opt (ref "modifiers"), "@interface", field "name" (ref "identifier"),
    field "body" (ref "annotation_type_body")]),
  ("annotation_type_body", all [
    "\x7b",
    rep (any [
      ref "annotation_type_element_declaration", ref "constant_declaration",
      ref "class_declaration", ref "interface_declaration", ref "enum_declaration",
      ref "annotation_type_declaration", ";"]),
    "\x7d"]),
  ("annotation_type_element_declaration", all [
    opt (ref "modifiers"), field "type" (ref "_unannotated_type"),
    field "name" anyIdentifier, "(", ")", field "dimensions" (opt (ref "dimensions")),
    opt (ref "_default_value"), ";"]),
  ("_default_value", all ["default", field "value" (ref "_element_value")]),
  ("interface_declaration", all [
    opt (ref "modifiers"), "interface", field "name" (ref "identifier"),
    field "type_parameters" (opt (ref "type_parameters")), opt (ref "extends_interfaces"),
    opt (field "permits" (ref "permits")), field "body" (ref "interface_body")]),
  ("extends_interfaces", all ["extends", ref "type_list"]),
  ("interface_body", all [
    "\x7b",
    rep (any [
      ref "constant_declaration", ref "enum_declaration", ref "method_declaration",
      ref "class_declaration", ref "interface_declaration", ref "record_declaration",
      ref "annotation_type_declaration", ";"]),
    "\x7d"]),
  ("constant_declaration", all [
    opt (ref "modifiers"), field "type" (ref "_unannotated_type"),
    ref "_variable_declarator_list", ";"]),
  ("_variable_declarator_list", commaList (field "declarator" (ref "variable_declarator"))),
  ("variable_declarator", all [
    ref "_variable_declarator_id", opt (all ["=", field "value" variableInitializer])]),
  ("_variable_declarator_id", all [
    field "name" (any [
      ref "identifier", ref "_reserved_identifier", ref "underscore_pattern"]),
    field "dimensions" (opt (ref "dimensions"))]),
  ("array_initializer", all ["\x7b", commas variableInitializer, opt ",", "\x7d"])]

/-- Declarations that are statements. -/
def declarations : List (String × Rule) :=
  ("declaration", prec Level.declaration none (any [
    ref "module_declaration", ref "package_declaration", ref "import_declaration",
    ref "class_declaration", ref "record_declaration", ref "interface_declaration",
    ref "annotation_type_declaration", ref "enum_declaration"])) ::
  moduleRules ++ typeDeclarations

end PatternHarvest.Java.Grammar
