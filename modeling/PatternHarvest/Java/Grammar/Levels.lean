import PatternHarvest.Grammar.Rule

/-!
# Levels of precedence in Java

The levels of Java's operators and of the few other phrases that compete with them, and the names
that several parts of the grammar share.
-/

namespace PatternHarvest.Java.Grammar

open PatternHarvest.Grammar Rule

/-! ## Levels -/

def Level.assign : Int := 1
def Level.declaration : Int := 2
def Level.elementValue : Int := 2
def Level.ternary : Int := 3
def Level.or : Int := 4
def Level.and : Int := 5
def Level.bitOr : Int := 6
def Level.bitXor : Int := 7
def Level.bitAnd : Int := 8
def Level.equality : Int := 9
def Level.relation : Int := 10
def Level.shift : Int := 11
def Level.sum : Int := 12
def Level.product : Int := 13
def Level.cast : Int := 14
def Level.unary : Int := 15

/-- The dynamic level of a generic type. -/
def Level.generic : Nat := 10

/-- The dynamic level of a class literal. -/
def Level.classLiteral : Nat := 17

/-! ## Shared parts -/

/-- A part that groups to the left at a level. -/
def leftAt (level : Int) (r : Rule) : Rule := prec level (some .left) r

/-- A part that groups to the right at a level. -/
def rightAt (level : Int) (r : Rule) : Rule := prec level (some .right) r

/-- An identifier, or a keyword that is an identifier where it cannot be a keyword. -/
def anyIdentifier : Rule := any [ref "identifier", ref "_reserved_identifier"]

/-- The name of a package, a module or a type. -/
def qualifiedName : Rule :=
  any [ref "identifier", ref "_reserved_identifier", ref "scoped_identifier"]

/-- An identifier that names a type. -/
def typeName : Rule := called "type_identifier" (ref "identifier")

/-- A type that is no array and has no annotations. -/
def simpleType : Rule :=
  any [ref "void_type", ref "integral_type", ref "floating_point_type", ref "boolean_type",
    typeName, ref "scoped_type_identifier", ref "generic_type"]

/-- What a variable can be given at its declaration. -/
def variableInitializer : Rule := any [ref "expression", ref "array_initializer"]

/-- Any number of annotations. -/
def annotations : Rule := rep (ref "_annotation")

end PatternHarvest.Java.Grammar
