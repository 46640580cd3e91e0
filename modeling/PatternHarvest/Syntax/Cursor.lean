import PatternHarvest.Syntax.Tree

/-!
# Walking through a tree

A `Cursor` is a place in a tree. It can move to the first child, to the next sibling and to the
parent of its place, and to nothing else; a move that leads nowhere gives no cursor. `Tree.walk`
makes the cursor visit every node, each before its children and before its later siblings.
-/

namespace PatternHarvest.Syntax

/-- The way back from a place to its parent: the parent without its children, the siblings before
the place, the nearest first, the field of the place, and the siblings behind it. -/
structure Crumb where
  parent : Forest → Tree
  before : List (Option String × Tree)
  field : Option String
  behind : Forest

/-- A place in a tree: the node there, and the way back to the root. -/
structure Cursor where
  focus : Tree
  path : List Crumb

namespace Tree

/-- A node with other children. -/
def withChildren : Tree → Forest → Tree
  | leaf l, _ => leaf l
  | node kind _, children => node kind children
  | missing kind named, _ => missing kind named
  | error _, children => error children

end Tree

namespace Cursor

/-- The root of a tree. -/
def root (t : Tree) : Cursor :=
  ⟨t, []⟩

/-- The first child of the place. -/
def firstChild? (c : Cursor) : Option Cursor :=
  match c.focus.children with
  | .nil => none
  | .cons field tree rest => some ⟨tree, ⟨c.focus.withChildren, [], field, rest⟩ :: c.path⟩

/-- The next sibling of the place. -/
def nextSibling? (c : Cursor) : Option Cursor :=
  match c.path with
  | ⟨parent, before, field, .cons nextField next rest⟩ :: path =>
    some ⟨next, ⟨parent, (field, c.focus) :: before, nextField, rest⟩ :: path⟩
  | _ => none

/-- The parent of the place. -/
def parent? (c : Cursor) : Option Cursor :=
  match c.path with
  | [] => none
  | ⟨parent, before, field, behind⟩ :: path =>
    let children := before.foldl (fun f s => .cons s.1 s.2 f) (.cons field c.focus behind)
    some ⟨parent children, path⟩

/-- Going to the parent leaves one step less to the root. -/
theorem length_path_of_parent? {c p : Cursor} (h : c.parent? = some p) :
    p.path.length < c.path.length := by
  obtain ⟨focus, path⟩ := c
  cases path with
  | nil => simp [parent?] at h
  | cons crumb path =>
    simp only [parent?, Option.some.injEq] at h
    subst h
    simp

/-- The next sibling of the place or else of the nearest place above that has one. -/
def climb? (c : Cursor) : Option Cursor :=
  match c.nextSibling? with
  | some next => some next
  | none =>
    match _parent : c.parent? with
    | some parent => climb? parent
    | none => none
termination_by c.path.length
decreasing_by exact length_path_of_parent? _parent

/-- The next place to visit: the first child, or else where a climb leads. -/
def next? (c : Cursor) : Option Cursor :=
  match c.firstChild? with
  | some child => some child
  | none => c.climb?

/-- The nodes seen before, the last first, and those from the place on, at most `fuel` of them. -/
def visit : (fuel : Nat) → (seen : List Tree) → Cursor → List Tree
  | 0, seen, _ => seen.reverse
  | fuel + 1, seen, c =>
    match c.next? with
    | some next => visit fuel (c.focus :: seen) next
    | none => (c.focus :: seen).reverse

end Cursor

mutual

/-- The number of nodes of a tree. -/
def Tree.size : Tree → Nat
  | .leaf _ | .missing _ _ => 1
  | .node _ children | .error children => children.size + 1

/-- The number of nodes of the children of a node. -/
def Forest.size : Forest → Nat
  | .nil => 0
  | .cons _ tree rest => tree.size + rest.size

end

/-- The nodes of a tree in the order in which a cursor visits them. -/
def Tree.walk (t : Tree) : List Tree :=
  Cursor.visit t.size [] (.root t)

end PatternHarvest.Syntax
