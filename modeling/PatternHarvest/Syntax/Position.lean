import PatternHarvest.Syntax.Tree

/-!
# Where a tree is wrong

Positions in a text are lines and columns, columns being counted in bytes. `Tree.firstError?` finds
the first missing token or misplaced input of a tree, in the order in which nodes precede their
children. It goes only into children that hold an error, and misses nothing by that.
-/

namespace PatternHarvest.Syntax

/-- A place in a text, by the line breaks before it and the bytes since the last one. -/
structure Position where
  row : Nat := 0
  offset : Nat := 0
  deriving DecidableEq, Inhabited, Repr

namespace Position

/-- The place behind a character. -/
def push (p : Position) (c : Char) : Position :=
  if c = '\n' then ⟨p.row + 1, 0⟩ else ⟨p.row, p.offset + c.utf8Size⟩

/-- The place behind a text. -/
def after (p : Position) (s : String) : Position :=
  s.toList.foldl push p

/-- The place behind leaves. -/
def afterLeaves (p : Position) (ls : List Leaf) : Position :=
  ls.foldl (fun p l => (p.after l.gap).after l.text) p

/-- The line, from 1. -/
def line (p : Position) : Nat := p.row + 1

/-- The column, from 1. -/
def column (p : Position) : Nat := p.offset + 1

end Position

/-- The place where the first token of a tree starts, the tree's gap being at `p`. -/
def Tree.startFrom (p : Position) (t : Tree) : Position :=
  p.after t.gap

mutual

/-- The first node of a tree that is wrong, and where it starts; the tree's gap is at `p`. -/
def Tree.firstErrorFrom? (p : Position) : Tree → Option (Position × Tree)
  | .leaf _ => none
  | .node _ children => children.firstErrorFrom? p
  | .missing kind named => some ((Tree.missing kind named).startFrom p, .missing kind named)
  | .error children => some ((Tree.error children).startFrom p, .error children)

/-- The first node below the children of a node that is wrong, and where it starts. Children without
errors are passed over. -/
def Forest.firstErrorFrom? (p : Position) : Forest → Option (Position × Tree)
  | .nil => none
  | .cons _ tree rest =>
    if tree.hasError then
      match tree.firstErrorFrom? p with
      | some e => some e
      | none => rest.firstErrorFrom? (p.afterLeaves tree.leaves)
    else rest.firstErrorFrom? (p.afterLeaves tree.leaves)

end

/-- The first node of a tree that is wrong, and where it starts. -/
def Tree.firstError? (t : Tree) : Option (Position × Tree) :=
  t.firstErrorFrom? {}

end PatternHarvest.Syntax
