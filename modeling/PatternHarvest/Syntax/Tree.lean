/-!
# Syntax trees

A `Tree` keeps the whole text it was read from: every leaf holds its token's text and the gap of
blanks before it, so that the text of a node is the text of its leaves (`Tree.text`), and lines are
counted rather than stored. Comments are leaves marked as extra. Where a text does not fit the
grammar there are two more kinds of node: a token that had to be supplied, and a run of input that
fits nowhere.
-/

namespace PatternHarvest.Syntax

/-- A token of a text, with the gap before it. -/
structure Leaf where
  kind : String
  /-- Whether the token is more than punctuation or a keyword. -/
  named : Bool
  /-- Whether it stands outside the grammar, as comments do. -/
  extra : Bool
  gap : String
  text : String
  deriving DecidableEq, Inhabited, Repr

mutual

/-- A syntax tree. -/
inductive Tree where
  | leaf (leaf : Leaf)
  | node (kind : String) (children : Forest)
  /-- A token that the text lacks. -/
  | missing (kind : String) (named : Bool)
  /-- Input that fits nowhere. -/
  | error (children : Forest)

/-- The children of a node, some of them under the name of a field. -/
inductive Forest where
  | nil
  | cons (field : Option String) (tree : Tree) (rest : Forest)

end

instance : Inhabited Tree := ⟨.missing "" false⟩

instance : Inhabited Forest := ⟨.nil⟩

namespace Forest

/-- The children in order, each with its field. -/
def toList : Forest → List (Option String × Tree)
  | nil => []
  | cons field tree rest => (field, tree) :: rest.toList

/-- The children without their fields. -/
def trees : Forest → List Tree
  | nil => []
  | cons _ tree rest => tree :: rest.trees

/-- Some children before others. -/
def append : Forest → Forest → Forest
  | nil, f => f
  | cons field tree rest, f => cons field tree (rest.append f)

instance : Append Forest := ⟨append⟩

end Forest

namespace Tree

/-- The kind of a node. -/
def kind : Tree → String
  | leaf l => l.kind
  | node kind _ => kind
  | missing kind _ => kind
  | error _ => "ERROR"

/-- Whether a node stands outside the grammar. -/
def isExtra : Tree → Bool
  | leaf l => l.extra
  | node _ _ | missing _ _ => false
  | error _ => true

/-- Whether a node is more than punctuation or a keyword. -/
def isNamed : Tree → Bool
  | leaf l => l.named
  | node _ _ | error _ => true
  | missing _ named => named

/-- The children of a node. -/
def children : Tree → Forest
  | leaf _ | missing _ _ => .nil
  | node _ children | error children => children

/-- The same tree as a node of another kind. -/
def withKind (kind : String) : Tree → Tree
  | leaf l => leaf { l with kind, named := true }
  | node _ children => node kind children
  | missing _ _ => missing kind true
  | error children => error children

/-- The first child under a field. -/
def child? (field : String) (t : Tree) : Option Tree :=
  (t.children.toList.find? (·.1 == some field)).map (·.2)

/-- The children that are neither punctuation nor keywords nor outside the grammar. -/
def arguments (t : Tree) : List Tree :=
  t.children.trees.filter fun c => c.isNamed && !c.isExtra

end Tree

/-! ## The text of a tree -/

mutual

/-- The leaves of a tree, from left to right, before others. -/
def Tree.leavesOnto : Tree → List Leaf → List Leaf
  | .leaf l, rest => l :: rest
  | .node _ children, rest | .error children, rest => children.leavesOnto rest
  | .missing _ _, rest => rest

/-- The leaves of the children of a node, from left to right, before others. -/
def Forest.leavesOnto : Forest → List Leaf → List Leaf
  | .nil, rest => rest
  | .cons _ tree more, rest => tree.leavesOnto (more.leavesOnto rest)

end

/-- The leaves of a tree, from left to right. -/
def Tree.leaves (t : Tree) : List Leaf :=
  t.leavesOnto []

/-- The leaves of the children of a node, from left to right. -/
def Forest.leaves (f : Forest) : List Leaf :=
  f.leavesOnto []

mutual

/-- The gap before the first token of a tree, if it has a token. There is none before a token that
the text lacks, since it stands right behind what is in front of it. -/
def Tree.firstGap? : Tree → Option String
  | .leaf l => some l.gap
  | .node _ children | .error children => children.firstGap?
  | .missing _ _ => some ""

/-- The gap before the first token among the children of a node, if they have a token. -/
def Forest.firstGap? : Forest → Option String
  | .nil => none
  | .cons _ tree rest =>
    match tree.firstGap? with
    | some gap => some gap
    | none => rest.firstGap?

end

/-- The gap before the first token of a tree. -/
def Tree.gap (t : Tree) : String :=
  t.firstGap?.getD ""

/-- The text of leaves, from the start of the first token. -/
def Leaf.textOf : List Leaf → String
  | [] => ""
  | l :: ls => ls.foldl (fun s m => s ++ m.gap ++ m.text) l.text

/-- The text of a tree, from the start of its first token. -/
def Tree.text (t : Tree) : String :=
  Leaf.textOf t.leaves

/-! ## Errors in a tree -/

namespace Tree

/-- Whether a node is itself a missing token. -/
def isMissing : Tree → Bool
  | missing _ _ => true
  | leaf _ | node _ _ | error _ => false

/-- Whether a node is itself input that fits nowhere. -/
def isError : Tree → Bool
  | error _ => true
  | leaf _ | node _ _ | missing _ _ => false

/-- Whether something is wrong with a node itself. -/
def isFlawed (t : Tree) : Bool :=
  t.isError || t.isMissing

/-- What is said of a node that is wrong. -/
def complaint (t : Tree) : String :=
  if t.isMissing then "missing " ++ t.kind else "unexpected input"

end Tree

mutual

/-- Whether a tree holds a missing token or input that fits nowhere. -/
def Tree.hasError : Tree → Bool
  | .leaf _ => false
  | .node _ children => children.hasError
  | .missing _ _ | .error _ => true

/-- Whether one of the children of a node holds a missing token or input that fits nowhere. -/
def Forest.hasError : Forest → Bool
  | .nil => false
  | .cons _ tree rest => tree.hasError || rest.hasError

end

/-! ## Leaves before others -/

mutual

theorem Tree.leavesOnto_eq (t : Tree) (rest : List Leaf) :
    t.leavesOnto rest = t.leaves ++ rest := by
  cases t with
  | leaf l => rfl
  | node kind children => exact children.leavesOnto_eq rest
  | missing kind named => rfl
  | error children => exact children.leavesOnto_eq rest

theorem Forest.leavesOnto_eq (f : Forest) (rest : List Leaf) :
    f.leavesOnto rest = f.leaves ++ rest := by
  cases f with
  | nil => rfl
  | cons field tree more =>
    simp only [Forest.leaves, Forest.leavesOnto]
    rw [tree.leavesOnto_eq, more.leavesOnto_eq rest, tree.leavesOnto_eq (more.leavesOnto [])]
    simp [Forest.leaves]

end

/-- The leaves of children are those of the first, then those of the others. -/
theorem Forest.leaves_cons (field : Option String) (tree : Tree) (rest : Forest) :
    (Forest.cons field tree rest).leaves = tree.leaves ++ rest.leaves :=
  tree.leavesOnto_eq rest.leaves

end PatternHarvest.Syntax
