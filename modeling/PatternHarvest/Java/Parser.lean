import PatternHarvest.Grammar.Repair
import PatternHarvest.Java.Lexicon
import PatternHarvest.Java.Grammar.Expressions
import PatternHarvest.Java.Grammar.Statements
import PatternHarvest.Java.Grammar.Declarations
import PatternHarvest.Java.Grammar.Types

/-!
# Parsing Java

The grammar of Java put together, its tables, and the parser they make.
-/

namespace PatternHarvest.Java

open PatternHarvest.Grammar PatternHarvest.Syntax

/-- The grammar of Java. A text is a sequence of statements and methods. -/
def grammar : Grammar where
  tokens := tokens
  rules :=
    [("program", .rep (.ref "_toplevel_statement")),
      ("_toplevel_statement", .any [.ref "statement", .ref "method_declaration"])] ++
    Grammar.literals ++ Grammar.expressions ++ Grammar.statements ++ Grammar.annotationRules ++
    Grammar.declarations ++ Grammar.types ++ Grammar.methods
  transparent := ["expression", "declaration", "statement", "primary_expression", "module_directive"]
  extras := ["line_comment", "block_comment"]
  word := "identifier"

/-- The tables of the grammar of Java. -/
def tables : Tables := grammar.tables

/-- The tree of a Java source; one that the grammar does not derive has errors in its tree. -/
def parse (source : String) : Tree :=
  tables.parse source

end PatternHarvest.Java
