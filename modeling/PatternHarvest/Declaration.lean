import PatternHarvest.Expr
import PatternHarvest.Context

/-!
# Declarations and their classes

A declaration binds a name to an initializer. Classifying one records its name in exactly one
table of the context: a string literal is a constant; a call that compiles a pattern is a pattern
if its first argument resolves against the constants recorded so far; everything else is
unresolved.
-/

namespace PatternHarvest

/-- A name bound to an initializer, with the line on which its declarator starts, from 1. -/
structure Declaration where
  name : String
  init : Expr
  line : Nat := 0
  deriving Inhabited, BEq, Repr

/-- The receiver and the method of the calls that compile a pattern. -/
structure CompileCall where
  receiver : String
  method : String
  deriving DecidableEq, Inhabited, Repr

namespace CompileCall

/-- Calls of `compile` on `Pattern`. -/
def standard : CompileCall := ⟨"Pattern", "compile"⟩

/-- Whether a call compiles a pattern; receiver and method are compared as texts. -/
def accepts (call : CompileCall) (receiver : Option String) (method : String) : Bool :=
  method == call.method && receiver == some call.receiver

end CompileCall

/-- The table in which a declaration ends, with the reason if it is the unresolved one. -/
inductive DeclClass where
  | constant
  | pattern
  | unresolved (reason : Reason)
  deriving DecidableEq, Inhabited, Repr

/-- How declarations are classified: which calls compile a pattern, and how deep an argument may
be nested. -/
structure Classifier where
  call : CompileCall := .standard
  maxDepth : Nat := Expr.defaultDepth
  deriving Inhabited, Repr

namespace Classifier

/-- What an initializer amounts to, given the constants: the text of a constant, the text of a
pattern, or a reason. -/
inductive Finding where
  | constant (text : String)
  | pattern (text : String)
  | unresolved (reason : Reason)
  deriving DecidableEq, Inhabited, Repr

/-- What an initializer amounts to, given the constants. -/
def find (k : Classifier) (constant? : String → Option String) : Expr → Finding
  | .literal text => .constant text
  | .call receiver method args =>
    if k.call.accepts receiver method then
      match args with
      | [] => .unresolved .missingArgument
      | arg :: _ =>
        match arg.resolve constant? k.maxDepth with
        | .ok text => .pattern text
        | .error reason => .unresolved reason
    else .unresolved .unsupportedCall
  | .name _ | .concat _ _ | .other _ => .unresolved .unsupportedExpression

/-- Record what was found for a name. -/
def record (c : Context) (name : String) : Finding → Context
  | .constant text => c.recordConstant name text
  | .pattern text => c.recordPattern name text
  | .unresolved _ => c.recordUnresolved name

/-- The class of what was found. -/
def Finding.declClass : Finding → DeclClass
  | .constant _ => .constant
  | .pattern _ => .pattern
  | .unresolved reason => .unresolved reason

/-- Classify one declaration: its class, and the context with its name recorded. -/
def classify (k : Classifier) (d : Declaration) (c : Context) : DeclClass × Context :=
  let finding := k.find c.constant? d.init
  (finding.declClass, record c d.name finding)

/-- Classify declarations in order; only the final context is kept. -/
def classifyAll (k : Classifier) (ds : List Declaration) (c : Context) : Context :=
  ds.foldl (fun c d => (k.classify d c).2) c

end Classifier

end PatternHarvest
