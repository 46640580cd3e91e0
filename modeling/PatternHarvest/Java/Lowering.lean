import PatternHarvest.Declaration
import PatternHarvest.Java.Literal
import PatternHarvest.Syntax.Cursor
import PatternHarvest.Text.Blank

/-!
# From syntax trees to declarations

`lower` reduces the tree of an expression, `declarations` lists what a tree declares: one
declaration for each declarator that has a name and a value, in the order in which a cursor visits
them.
-/

namespace PatternHarvest.Java

open PatternHarvest.Syntax

/-! ## Expressions -/

/-- The text of a receiver, without blanks around it. -/
def receiverText (t : Tree) : String :=
  String.ofList (Text.trim Text.isBlank t.text.toList)

/-- Reduce the tree of an expression. What is nested as deep as `depth` or deeper is reduced to
its kind, as is everything but string literals, names, sums and calls. -/
def lower : (depth : Nat) → Tree → Expr
  | 0, t => .other t.kind
  | depth + 1, t =>
    match t.kind with
    | "string_literal" =>
      match Literal.contents? t.text with
      | some text => .literal text
      | none => .other "text_block"
    | "identifier" => .name t.text
    | "binary_expression" =>
      match (t.child? "operator").map Tree.text, t.child? "left", t.child? "right" with
      | some "+", some left, some right => .concat (lower depth left) (lower depth right)
      | _, _, _ => .other t.kind
    | "method_invocation" =>
      match t.child? "name" with
      | none => .other t.kind
      | some name =>
        let args := match t.child? "arguments" with
          | some args => args.arguments.map (lower depth)
          | none => []
        .call ((t.child? "object").map receiverText) name.text args
    | kind => .other kind

/-! ## Declarations -/

/-- How often a text goes to a new line. -/
def newlines (s : String) : Nat :=
  s.toList.count '\n'

/-- Whether a node of this kind binds a name to a value. -/
def isDeclarator (kind : String) : Bool :=
  kind == "variable_declarator" || kind == "resource"

/-- The declaration that a node makes; `line` counts the lines before the gap in front of it. -/
def declaration? (depth line : Nat) (t : Tree) : Option Declaration :=
  if isDeclarator t.kind then
    match t.child? "name", t.child? "value" with
    | some name, some value =>
      some { name := name.text, init := lower depth value, line := line + newlines t.gap + 1 }
    | _, _ => none
  else none

/-- The lines that a visit to a node itself passes: those of a leaf. -/
def linesOf : Tree → Nat
  | .leaf l => newlines l.gap + newlines l.text
  | _ => 0

/-- Go on with one more visited node: the lines before it, and the declarations so far, the last
first. -/
def collect (depth : Nat) (found : Nat × List Declaration) (t : Tree) : Nat × List Declaration :=
  (found.1 + linesOf t, (declaration? depth found.1 t).toList ++ found.2)

/-- What a tree declares, in the order of a cursor's walk. -/
def declarations (depth : Nat) (t : Tree) : List Declaration :=
  (t.walk.foldl (collect depth) (0, [])).2.reverse

end PatternHarvest.Java
