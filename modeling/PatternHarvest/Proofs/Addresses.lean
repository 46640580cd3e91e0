import PatternHarvest.Syntax.Cursor
import Mathlib.Data.List.Lex

/-!
# The places of a tree

Two nodes of a tree may look alike, so a node is named by its address: the numbers of the children
on the way down to it from the root. Whatever is below a node has an address that goes on from the
node's, and what is in an earlier child comes before what is in a later one. Put together, this is
the lexicographic order, in which a list comes behind its own beginnings.

`Tree.places` lists the nodes of a tree with their addresses by recursion, each node before its
children. It holds every address of the tree with the node that is there (`Tree.mem_places_iff`), and
the addresses increase (`Tree.pairwise_places`), so each occurs once.
-/

namespace PatternHarvest.Syntax

/-! ## Induction on trees -/

section

variable {motive : Tree → Prop}

mutual

/-- What holds of a node whenever it holds of its children holds of every tree. -/
theorem Tree.induction_on_children (step : ∀ t, (∀ child ∈ t.children.trees, motive child) → motive t)
    (t : Tree) : motive t := by
  cases t with
  | leaf l => exact step _ (by simp [Tree.children, Forest.trees])
  | node kind children => exact step _ (children.forall_mem_trees step)
  | missing kind named => exact step _ (by simp [Tree.children, Forest.trees])
  | error children => exact step _ (children.forall_mem_trees step)

theorem Forest.forall_mem_trees (step : ∀ t, (∀ child ∈ t.children.trees, motive child) → motive t)
    (f : Forest) : ∀ child ∈ f.trees, motive child := by
  cases f with
  | nil => simp [Forest.trees]
  | cons field tree rest =>
    intro child hchild
    rcases List.mem_cons.1 hchild with heq | hrest
    · exact heq ▸ tree.induction_on_children step
    · exact rest.forall_mem_trees step child hrest

end

end

/-- Induction on the siblings of a forest, from the last. -/
theorem Forest.induction_on_siblings {motive : Forest → Prop} (nil : motive .nil)
    (cons : ∀ field tree rest, motive rest → motive (.cons field tree rest)) :
    ∀ f, motive f
  | .nil => nil
  | .cons field tree rest => cons field tree rest (rest.induction_on_siblings nil cons)

/-! ## Addresses -/

/-- The node at an address. -/
def Tree.at? : Tree → List ℕ → Option Tree
  | t, [] => some t
  | t, i :: address => t.children.trees[i]?.bind fun child => child.at? address

/-- A node and its address. -/
structure Place where
  address : List ℕ
  node : Tree

/-- A place of a subtree as a place of the whole tree, the subtree being at `address`. -/
def Place.under (address : List ℕ) (p : Place) : Place :=
  ⟨address ++ p.address, p.node⟩

theorem Place.map_under_nil (ps : List Place) : ps.map (under []) = ps :=
  List.map_id ps

/-- A subtree of a subtree is below both addresses. -/
theorem Place.under_under (address address' : List ℕ) (p : Place) :
    (p.under address').under address = p.under (address ++ address') := by
  simp [under]

mutual

/-- The nodes of a tree with their addresses, each before its children. -/
def Tree.places : Tree → List Place
  | .leaf l => [⟨[], .leaf l⟩]
  | .node kind children => ⟨[], .node kind children⟩ :: children.places 0
  | .missing kind named => [⟨[], .missing kind named⟩]
  | .error children => ⟨[], .error children⟩ :: children.places 0

/-- The nodes below a node with their addresses, from the child with number `i` on. -/
def Forest.places (i : ℕ) : Forest → List Place
  | .nil => []
  | .cons _ tree rest => tree.places.map (Place.under [i]) ++ rest.places (i + 1)

end

theorem Tree.places_eq_cons (t : Tree) : t.places = ⟨[], t⟩ :: t.children.places 0 := by
  cases t <;> rfl

theorem Tree.size_eq (t : Tree) : t.size = t.children.size + 1 := by
  cases t <;> rfl

theorem Forest.length_places {f : Forest}
    (hf : ∀ child ∈ f.trees, child.places.length = child.size) (i : ℕ) :
    (f.places i).length = f.size := by
  induction f using Forest.induction_on_siblings generalizing i with
  | nil => rfl
  | cons field tree rest ih =>
    obtain ⟨htree, hrest⟩ := List.forall_mem_cons.1 hf
    rw [Forest.places, Forest.size, List.length_append, List.length_map, htree, ih hrest]

theorem Tree.length_places (t : Tree) : t.places.length = t.size := by
  induction t using Tree.induction_on_children with
  | step t ih =>
    rw [Tree.places_eq_cons, List.length_cons, Forest.length_places ih, Tree.size_eq]

/-! ## Every address is listed -/

theorem Forest.mem_places_iff {f : Forest}
    (hf : ∀ child ∈ f.trees, ∀ p, p ∈ child.places ↔ child.at? p.address = some p.node)
    (i : ℕ) (p : Place) :
    p ∈ f.places i ↔ ∃ j address, p.address = (i + j) :: address ∧
      f.trees[j]?.bind (fun child => child.at? address) = some p.node := by
  induction f using Forest.induction_on_siblings generalizing i with
  | nil => simp [Forest.places, Forest.trees]
  | cons field tree rest ih =>
    obtain ⟨htree, hrest⟩ := List.forall_mem_cons.1 hf
    simp only [Forest.places, List.mem_append, List.mem_map, ih hrest (i + 1)]
    constructor
    · rintro (⟨q, hq, rfl⟩ | ⟨j, address, haddress, hnode⟩)
      · exact ⟨0, q.address, rfl, (htree q).1 hq⟩
      · exact ⟨j + 1, address, by rw [haddress]; congr 1; omega, hnode⟩
    · rintro ⟨j, address, haddress, hnode⟩
      cases j with
      | zero =>
        refine .inl ⟨⟨address, p.node⟩, (htree _).2 hnode, ?_⟩
        obtain ⟨a, node⟩ := p
        cases haddress
        rfl
      | succ j => exact .inr ⟨j, address, by rw [haddress]; congr 1; omega, hnode⟩

/-- A place is listed exactly if its node is the one at its address. -/
theorem Tree.mem_places_iff (t : Tree) (p : Place) :
    p ∈ t.places ↔ t.at? p.address = some p.node := by
  induction t using Tree.induction_on_children generalizing p with
  | step t ih =>
    obtain ⟨address, node⟩ := p
    rw [Tree.places_eq_cons, List.mem_cons, Forest.mem_places_iff ih]
    cases address with
    | nil => simp [Tree.at?, eq_comm]
    | cons i address => simp [Tree.at?]

/-! ## Addresses increase -/

theorem Forest.exists_address {f : Forest} {i : ℕ} {p : Place} (h : p ∈ f.places i) :
    ∃ j address, p.address = (i + j) :: address := by
  obtain ⟨j, address, haddress, -⟩ :=
    (Forest.mem_places_iff (fun child _ => child.mem_places_iff) i p).1 h
  exact ⟨j, address, haddress⟩

theorem Forest.pairwise_places {f : Forest}
    (hf : ∀ child ∈ f.trees, child.places.Pairwise fun p q => p.address < q.address) (i : ℕ) :
    (f.places i).Pairwise fun p q => p.address < q.address := by
  induction f using Forest.induction_on_siblings generalizing i with
  | nil => exact .nil
  | cons field tree rest ih =>
    obtain ⟨htree, hrest⟩ := List.forall_mem_cons.1 hf
    refine List.pairwise_append.2 ⟨?_, ih hrest (i + 1), ?_⟩
    · refine List.pairwise_map.2 (htree.imp fun {p q} h => ?_)
      exact List.cons_lt_cons_iff.2 (.inr ⟨rfl, h⟩)
    · intro p hp q hq
      obtain ⟨p, -, rfl⟩ := List.mem_map.1 hp
      obtain ⟨j, address, haddress⟩ := Forest.exists_address hq
      rw [haddress]
      exact List.cons_lt_cons_iff.2 (.inl (by omega))

/-- **The nodes are listed in the order of their addresses.** -/
theorem Tree.pairwise_places (t : Tree) :
    t.places.Pairwise fun p q => p.address < q.address := by
  induction t using Tree.induction_on_children with
  | step t ih =>
    rw [Tree.places_eq_cons]
    refine List.pairwise_cons.2 ⟨fun p hp => ?_, Forest.pairwise_places ih 0⟩
    obtain ⟨j, address, haddress⟩ := Forest.exists_address hp
    rw [haddress]
    exact List.nil_lt_cons _ _

end PatternHarvest.Syntax
