import PatternHarvest.Proofs.Preorder
import PatternHarvest.Proofs.Runs

/-!
# What a source declares, before anything is reduced

The limit on nesting has a say in how far an initializer is reduced, and in nothing else: which
nodes of a tree are declarators, what they bind and on which lines they stand is the same for every
limit. A `Declarator` is a declaration whose initializer is still a tree; `declarations_eq_map` and
`Harvester.declarationsIn_eq_map` say that declarations are declarators, each reduced on its own.

`form` takes one step of the reduction: it says what a node is, with its operands and arguments left
as trees (`lower_succ`).
-/

namespace PatternHarvest

open Syntax

namespace Java

/-! ## One step of the reduction -/

/-- What a node is to the reduction. Operands and arguments are left as they stand. -/
inductive Form where
  | literal (text : String)
  | name (name : String)
  | sum (left right : Tree)
  | call (receiver : Option String) (method : String) (args : List Tree)
  | other (kind : String)

namespace Form

/-- The expression of a form, once its operands and arguments are reduced. -/
def reduce (reduced : Tree → Expr) : Form → Expr
  | literal text => .literal text
  | name n => .name n
  | sum left right => .concat (reduced left) (reduced right)
  | call receiver method args => .call receiver method (args.map reduced)
  | other kind => .other kind

end Form

/-- What a node is, by its kind and its fields. -/
def form (t : Tree) : Form :=
  match t.kind with
  | "string_literal" =>
    match Literal.contents? t.text with
    | some text => .literal text
    | none => .other "text_block"
  | "identifier" => .name t.text
  | "binary_expression" =>
    match (t.child? "operator").map Tree.text, t.child? "left", t.child? "right" with
    | some "+", some left, some right => .sum left right
    | _, _, _ => .other t.kind
  | "method_invocation" =>
    match t.child? "name" with
    | none => .other t.kind
    | some name =>
      let args := match t.child? "arguments" with
        | some args => args.arguments
        | none => []
      .call ((t.child? "object").map receiverText) name.text args
  | kind => .other kind

theorem lower_zero (t : Tree) : lower 0 t = .other t.kind := rfl

/-- Above the limit a node is reduced to its form, its parts one level deeper. -/
theorem lower_succ (depth : ℕ) (t : Tree) :
    lower (depth + 1) t = (form t).reduce (lower depth) := by
  rw [lower, form]
  split
  next => cases Literal.contents? t.text <;> simp [Form.reduce, *]
  next => simp [Form.reduce, *]
  next hkind =>
    simp only [hkind]
    split
    next => simp [Form.reduce, *]
    next => simp [Form.reduce, *]
  next hkind =>
    cases t.child? "name" <;> cases t.child? "arguments" <;> simp [hkind, Form.reduce]
  next => simp [Form.reduce, *]

/-! ## Declarators of a tree -/

/-- A name bound to the tree of an initializer, with the line on which its declarator starts. -/
structure Declarator where
  name : String
  value : Tree
  line : ℕ

namespace Declarator

/-- The declaration of a declarator under a limit on nesting. -/
def declaration (depth : ℕ) (d : Declarator) : Declaration :=
  { name := d.name, init := lower depth d.value, line := d.line }

end Declarator

/-- The declarator that a node is, if it has a name and a value; `line` counts the lines before the
gap in front of it. -/
def declarator? (line : ℕ) (t : Tree) : Option Declarator :=
  if isDeclarator t.kind then
    match t.child? "name", t.child? "value" with
    | some name, some value => some ⟨name.text, value, line + newlines t.gap + 1⟩
    | _, _ => none
  else none

/-- The declarators among nodes that are visited one after the other. -/
def declaratorsFrom (line : ℕ) : List Tree → List Declarator
  | [] => []
  | t :: ts => (declarator? line t).toList ++ declaratorsFrom (line + linesOf t) ts

/-- The declarators of a tree, in the order of its nodes. -/
def declarators (t : Tree) : List Declarator :=
  declaratorsFrom 0 t.nodes

theorem declaration?_eq_map (depth line : ℕ) (t : Tree) :
    declaration? depth line t = (declarator? line t).map (Declarator.declaration depth) := by
  unfold declaration? declarator?
  split
  · cases t.child? "name" <;> cases t.child? "value" <;> rfl
  · rfl

/-- The declarations of a tree are those of its declarators. -/
theorem declarations_eq_map (depth : ℕ) (t : Tree) :
    declarations depth t = (declarators t).map (Declarator.declaration depth) := by
  have hcollect (ts : List Tree) (found : ℕ × List Declaration) :
      (ts.foldl (collect depth) found).2.reverse =
        found.2.reverse ++
          (declaratorsFrom found.1 ts).map (Declarator.declaration depth) := by
    induction ts generalizing found with
    | nil => simp [declaratorsFrom]
    | cons t ts ih =>
      rw [List.foldl_cons, ih, declaratorsFrom, collect, declaration?_eq_map]
      cases declarator? found.1 t <;> simp
  rw [declarations, hcollect, Tree.walk_eq_nodes]
  rfl

end Java

/-! ## Declarators of files -/

namespace Harvester

open Files Java

/-- The declarators of a source; `path` names it in errors. -/
def declaratorsOf (h : Harvester) (source path : String) : Except Error (List Declarator) :=
  (h.treeOf source path).map declarators

/-- The declarators of the file at a path, or the reason why it has none to offer. -/
def declaratorsAt (h : Harvester) (files : FileTree) (path : String) :
    Except Error (List Declarator) :=
  match files.read path with
  | .error fault => .error (.readFailed path fault)
  | .ok bytes => h.declaratorsOf (Text.Utf8.text bytes) path

/-- The declarators of those files of a list that can be read and follow the grammar, in order. -/
def declaratorsIn (h : Harvester) (files : FileTree) (paths : List String) : List Declarator :=
  (paths.filterMap fun path => (h.declaratorsAt files path).toOption).flatten

theorem declarationsOf_eq_map (h : Harvester) (source path : String) :
    h.declarationsOf source path =
      (h.declaratorsOf source path).map (List.map (Declarator.declaration h.maxDepth)) := by
  rw [declarationsOf, declaratorsOf]
  cases h.treeOf source path with
  | error e => rfl
  | ok t => exact congrArg Except.ok (declarations_eq_map h.maxDepth t)

theorem declarationsAt_eq_map (h : Harvester) (files : FileTree) (path : String) :
    h.declarationsAt files path =
      (h.declaratorsAt files path).map (List.map (Declarator.declaration h.maxDepth)) := by
  unfold declarationsAt declaratorsAt
  cases files.read path with
  | error fault => rfl
  | ok bytes => exact h.declarationsOf_eq_map (Text.Utf8.text bytes) path

/-- The declarations of files are those of their declarators. -/
theorem declarationsIn_eq_map (h : Harvester) (files : FileTree) (paths : List String) :
    h.declarationsIn files paths =
      (h.declaratorsIn files paths).map (Declarator.declaration h.maxDepth) := by
  have hoption (path : String) : (h.declarationsAt files path).toOption =
      (h.declaratorsAt files path).toOption.map
        (List.map (Declarator.declaration h.maxDepth)) := by
    rw [declarationsAt_eq_map]
    cases h.declaratorsAt files path <;> rfl
  simp only [declarationsIn, declaratorsIn, hoption]
  rw [List.map_flatten, List.map_filterMap]

end Harvester

end PatternHarvest
