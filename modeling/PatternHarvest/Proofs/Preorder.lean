import PatternHarvest.Proofs.Addresses
import Mathlib.Data.List.Basic

/-!
# A walk visits the nodes in their order

`Tree.walk` moves a cursor about, with nothing but the way back to the root to remember where it has
been. `Tree.exists_walks_root` says that it comes to an end by itself, and that it has then been at
every place of the tree, in the order of their addresses; so it lists the nodes of the tree as a
recursion does, each before its children, each child with all that is below it before the next
(`Tree.walk_eq_nodes`). What is still to come at a place is the *remainder* of the cursor, its
subtree and then the siblings behind every node on the way back; one move takes exactly the first
place off the remainder (`Cursor.remainder_eq`).
-/

namespace PatternHarvest.Syntax

mutual

/-- The nodes of a tree, each before its children. -/
def Tree.nodes : Tree → List Tree
  | .leaf l => [.leaf l]
  | .node kind children => .node kind children :: children.nodes
  | .missing kind named => [.missing kind named]
  | .error children => .error children :: children.nodes

/-- The nodes of the children of a node, each before its own children. -/
def Forest.nodes : Forest → List Tree
  | .nil => []
  | .cons _ tree rest => tree.nodes ++ rest.nodes

end

theorem Tree.nodes_eq_cons (t : Tree) : t.nodes = t :: t.children.nodes := by
  cases t <;> rfl

theorem Forest.nodes_eq_map {f : Forest}
    (hf : ∀ child ∈ f.trees, child.nodes = child.places.map Place.node) (i : ℕ) :
    f.nodes = (f.places i).map Place.node := by
  induction f using Forest.induction_on_siblings generalizing i with
  | nil => rfl
  | cons field tree rest ih =>
    obtain ⟨htree, hrest⟩ := List.forall_mem_cons.1 hf
    rw [Forest.nodes, Forest.places, htree, ih hrest (i + 1), List.map_append, List.map_map]
    rfl

/-- The nodes stand in the order of their places. -/
theorem Tree.nodes_eq_map (t : Tree) : t.nodes = t.places.map Place.node := by
  induction t using Tree.induction_on_children with
  | step t ih => rw [Tree.nodes_eq_cons, Tree.places_eq_cons, List.map_cons, Forest.nodes_eq_map ih]

/-! ## What is still to come -/

/-- The address of the place that a way back starts from. -/
def Crumb.address (path : List Crumb) : List ℕ :=
  (path.map fun crumb => crumb.before.length).reverse

/-- The places behind a way back: of each parent on it, the siblings behind the place and all that
is below them. -/
def Crumb.placesBehind : List Crumb → List Place
  | [] => []
  | crumb :: path =>
    (crumb.behind.places (crumb.before.length + 1)).map (Place.under (address path)) ++
      placesBehind path

namespace Cursor

/-- The address of a cursor. -/
def address (c : Cursor) : List ℕ :=
  Crumb.address c.path

/-- Where a cursor is. -/
def place (c : Cursor) : Place :=
  ⟨c.address, c.focus⟩

/-- The places that a walk has still to visit, from the cursor's own on. -/
def remainder (c : Cursor) : List Place :=
  c.focus.places.map (Place.under c.address) ++ Crumb.placesBehind c.path

/-- The places that a walk has still to visit once it is done with the cursor's own. -/
def placesBehind (c : Cursor) : List Place :=
  Crumb.placesBehind c.path

theorem placesBehind_of_nextSibling? {c next : Cursor} (h : c.nextSibling? = some next) :
    c.placesBehind = next.remainder := by
  obtain ⟨focus, path⟩ := c
  unfold nextSibling? at h
  split at h
  next parent before field nextField tree rest path hpath =>
    cases h
    simp only at hpath
    simp [placesBehind, remainder, hpath, Crumb.placesBehind, Forest.places, address,
      Crumb.address, Place.under_under]
  next => cases h

/-- Where there is no next sibling, nothing is between the place and what follows its parent. -/
theorem placesBehind_of_parent? {c parent : Cursor} (hnext : c.nextSibling? = none)
    (h : c.parent? = some parent) : c.placesBehind = parent.placesBehind := by
  obtain ⟨focus, path⟩ := c
  cases path with
  | nil => simp [parent?] at h
  | cons crumb path =>
    obtain ⟨up, before, field, behind⟩ := crumb
    cases behind with
    | nil =>
      simp only [parent?, Option.some.injEq] at h
      subst h
      simp [placesBehind, Crumb.placesBehind, Forest.places]
    | cons field tree rest => simp [nextSibling?] at hnext

theorem placesBehind_of_parent?_eq_none {c : Cursor} (h : c.parent? = none) :
    c.placesBehind = [] := by
  obtain ⟨focus, path⟩ := c
  cases path with
  | nil => rfl
  | cons crumb path => simp [parent?] at h

/-- A climb leads to the first place behind the cursor, and nowhere only if there is none. The
induction is that of the climb itself, on the way back that every step up shortens. -/
theorem placesBehind_eq_climb? (c : Cursor) :
    c.placesBehind = (c.climb?.map remainder).getD [] := by
  fun_induction climb? c with
  | case1 c next hnext => simpa using placesBehind_of_nextSibling? hnext
  | case2 c hnext parent hparent ih => rw [placesBehind_of_parent? hnext hparent, ih]
  | case3 c hnext hparent => simpa using placesBehind_of_parent?_eq_none hparent

/-- **One move.** The cursor's place is the first of the remainder, and the rest is the remainder of
the next place to visit; there is none exactly if nothing remains. -/
theorem remainder_eq (c : Cursor) :
    c.remainder = c.place :: (c.next?.map remainder).getD [] := by
  have hplaces : c.remainder = c.place ::
      ((c.focus.children.places 0).map (Place.under c.address) ++ c.placesBehind) := by
    rw [remainder, Tree.places_eq_cons]
    simp [Place.under, place, placesBehind]
  rw [hplaces, next?, firstChild?]
  cases hchildren : c.focus.children with
  | nil => simpa [Forest.places] using c.placesBehind_eq_climb?
  | cons field tree rest =>
    simp [Forest.places, remainder, placesBehind, Crumb.placesBehind, address, Crumb.address,
      Place.under_under]

/-! ## The walk -/

/-- A walk that goes on from place to place until there is no next one ends, having come through
the cursors of the list. -/
inductive Walks : Cursor → List Cursor → Prop
  | last {c : Cursor} (hnext : c.next? = none) : Walks c [c]
  | move {c next : Cursor} {cs : List Cursor} (hnext : c.next? = some next)
    (hrest : Walks next cs) : Walks c (c :: cs)

/-- Every walk ends, and it comes through the places of the remainder. The induction is on their
number, which one move brings down by one. -/
theorem exists_walks (c : Cursor) : ∃ cs, c.Walks cs ∧ cs.map place = c.remainder := by
  generalize hlength : c.remainder.length = n
  induction n generalizing c with
  | zero =>
    rw [remainder_eq] at hlength
    cases hlength
  | succ n ih =>
    rw [remainder_eq] at hlength ⊢
    cases hnext : c.next? with
    | none => exact ⟨[c], .last hnext, rfl⟩
    | some next =>
      simp only [hnext, Option.map_some, Option.getD_some, List.length_cons,
        Nat.add_right_cancel_iff] at hlength
      obtain ⟨cs, hcs, hplaces⟩ := ih next hlength
      exact ⟨c :: cs, .move hnext hcs, by rw [List.map_cons, hplaces]; rfl⟩

/-- A visit that may take enough steps lists what it has seen and then what a walk comes through. -/
theorem Walks.visit_eq {c : Cursor} {cs : List Cursor} (h : c.Walks cs) {fuel : Nat}
    (hfuel : cs.length ≤ fuel) (seen : List Tree) :
    visit fuel seen c = seen.reverse ++ cs.map focus := by
  induction h generalizing fuel seen with
  | @last c hnext =>
    obtain ⟨fuel, rfl⟩ := Nat.exists_eq_add_of_le' hfuel
    simp [visit, hnext]
  | @move c next cs hnext _ ih =>
    obtain ⟨fuel, rfl⟩ := Nat.exists_eq_add_of_le' (Nat.le_trans (Nat.le_add_left 1 _) hfuel)
    simp only [visit, hnext]
    rw [ih (by simpa using hfuel)]
    simp

end Cursor

/-- From the root a walk ends, after coming through all places of the tree in their order, and the
nodes that it saw are those of `Tree.walk`. -/
theorem Tree.exists_walks_root (t : Tree) :
    ∃ cs, (Cursor.root t).Walks cs ∧ cs.map Cursor.place = t.places ∧
      t.walk = cs.map Cursor.focus := by
  obtain ⟨cs, hcs, hplaces⟩ := (Cursor.root t).exists_walks
  have hremainder : (Cursor.root t).remainder = t.places := by
    simp [Cursor.remainder, Cursor.root, Crumb.placesBehind, Cursor.address, Crumb.address,
      Place.map_under_nil]
  have hfuel : cs.length ≤ t.size := by
    rw [← List.length_map Cursor.place, hplaces, hremainder, t.length_places]
  exact ⟨cs, hcs, hplaces.trans hremainder, hcs.visit_eq hfuel []⟩

/-- **A walk visits every node once, in order.** -/
theorem Tree.walk_eq_nodes (t : Tree) : t.walk = t.nodes := by
  obtain ⟨cs, -, hplaces, hwalk⟩ := t.exists_walks_root
  rw [hwalk, Tree.nodes_eq_map, ← hplaces, List.map_map]
  rfl

end PatternHarvest.Syntax
