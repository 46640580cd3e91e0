/-!
# Initializer expressions

`Expr` is what an initializer is reduced to: string literals, names, `+` of two expressions,
method calls, and everything else as the kind of its syntax node. `Expr.resolve` folds an
expression to one text, with a table for the names and a limit on nesting.
-/

namespace PatternHarvest

/-- A reduced initializer. -/
inductive Expr where
  /-- A string literal, by the characters between its quotes, escapes unprocessed. -/
  | literal (text : String)
  | name (name : String)
  | concat (left right : Expr)
  | call (receiver : Option String) (method : String) (args : List Expr)
  /-- Any other expression, by the kind of its node. -/
  | other (kind : String)
  deriving Inhabited, BEq, Repr

/-- Why a declaration yields neither a constant nor a pattern. -/
inductive Reason where
  /-- A name has no constant. -/
  | identifierNotFound
  /-- An expression that is neither literal, name, `+` nor call. -/
  | unsupportedExpression
  /-- A call where only a text can stand, or a call that does not compile a pattern. -/
  | unsupportedCall
  /-- A call that compiles a pattern, without arguments. -/
  | missingArgument
  /-- Nesting reaches the limit. -/
  | depthExceeded
  deriving DecidableEq, Inhabited, Repr

namespace Expr

/-- The kind of node that an expression stands for. -/
def kind : Expr → String
  | literal _ => "string_literal"
  | name _ => "name"
  | concat _ _ => "concat"
  | call _ _ _ => "call"
  | other kind => kind

/-- The default limit on nesting. -/
def defaultDepth : Nat := 10000

/-- The text that an expression stands for, names being looked up with `constant?`. An expression
as deep as `depth` or deeper is refused; of two operands that fail, the left one gives the
reason. -/
def resolve (constant? : String → Option String) : (depth : Nat) → Expr → Except Reason String
  | 0, _ => .error .depthExceeded
  | _ + 1, literal text => .ok text
  | _ + 1, name n =>
    match constant? n with
    | some text => .ok text
    | none => .error .identifierNotFound
  | depth + 1, concat left right =>
    match resolve constant? depth left with
    | .error reason => .error reason
    | .ok l =>
      match resolve constant? depth right with
      | .error reason => .error reason
      | .ok r => .ok (l ++ r)
  | _ + 1, call _ _ _ => .error .unsupportedCall
  | _ + 1, other _ => .error .unsupportedExpression

end Expr

end PatternHarvest
