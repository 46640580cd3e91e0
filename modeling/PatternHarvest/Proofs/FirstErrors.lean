import PatternHarvest.Proofs.Sums
import PatternHarvest.Proofs.Traversal

/-!
# The first error of a tree

A source whose tree has errors is refused with the first node that is wrong, first in the order of
addresses. The search for it does not look at every node: it passes over children that hold no
error, and it does not go below a node that is wrong itself. `Harvester.treeOf_reports_first` says
that it misses nothing by either. It finds a node exactly if the tree has one that is wrong, so
whoever is told of an error is told where it is.

Passing over a child is the same as finding nothing in it (`Forest.firstErrorFrom?_cons`). The
search is then one through all places of the tree (`Tree.firstErrorFrom?_eq_find?`), which stand in
the order of their addresses.
-/

namespace PatternHarvest

open Syntax

namespace Syntax

/-! ## Errors among the places of a tree -/

theorem Tree.hasError_eq (t : Tree) : t.hasError = (t.isFlawed || t.children.hasError) := by
  cases t <;> rfl

theorem Forest.hasError_eq_any {f : Forest}
    (hf : ∀ child ∈ f.trees, child.hasError = child.places.any fun p => p.node.isFlawed) (i : ℕ) :
    f.hasError = (f.places i).any fun p => p.node.isFlawed := by
  induction f using Forest.induction_on_siblings generalizing i with
  | nil => rfl
  | cons field tree rest ih =>
    obtain ⟨htree, hrest⟩ := List.forall_mem_cons.1 hf
    rw [Forest.hasError, Forest.places, List.any_append, List.any_map, htree, ih hrest (i + 1)]
    rfl

/-- A tree holds an error exactly if the node at one of its places is wrong. -/
theorem Tree.hasError_eq_any (t : Tree) :
    t.hasError = t.places.any fun p => p.node.isFlawed := by
  induction t using Tree.induction_on_children with
  | step t ih =>
    rw [Tree.hasError_eq, Tree.places_eq_cons, List.any_cons, Forest.hasError_eq_any ih 0]

theorem Tree.hasError_iff (t : Tree) :
    t.hasError = true ↔ ∃ address node, t.at? address = some node ∧ node.isFlawed = true := by
  rw [Tree.hasError_eq_any, List.any_eq_true]
  constructor
  · rintro ⟨p, hp, hflawed⟩
    exact ⟨p.address, p.node, (t.mem_places_iff p).1 hp, hflawed⟩
  · rintro ⟨address, node, hnode, hflawed⟩
    exact ⟨⟨address, node⟩, (t.mem_places_iff _).2 hnode, hflawed⟩

/-! ## The search -/

theorem Tree.firstErrorFrom?_eq (p : Position) (t : Tree) :
    t.firstErrorFrom? p =
      if t.isFlawed then some (t.startFrom p, t) else t.children.firstErrorFrom? p := by
  cases t <;> rfl

mutual

/-- The search for the first error finds nothing in a tree that holds none. -/
theorem Tree.firstErrorFrom?_eq_none {t : Tree} (h : t.hasError = false) (p : Position) :
    t.firstErrorFrom? p = none := by
  cases t with
  | leaf l => rfl
  | node kind children => exact children.firstErrorFrom?_eq_none h p
  | missing kind named => simp [Tree.hasError] at h
  | error children => simp [Tree.hasError] at h

theorem Forest.firstErrorFrom?_eq_none (f : Forest) (h : f.hasError = false) (p : Position) :
    f.firstErrorFrom? p = none := by
  cases f with
  | nil => rfl
  | cons field tree rest =>
    simp only [Forest.hasError, Bool.or_eq_false_iff] at h
    simp [Forest.firstErrorFrom?, h.1, rest.firstErrorFrom?_eq_none h.2]

end

/-- The search comes to the same as one that passes over no child. -/
theorem Forest.firstErrorFrom?_cons (field : Option String) (tree : Tree) (rest : Forest)
    (p : Position) :
    (Forest.cons field tree rest).firstErrorFrom? p =
      (tree.firstErrorFrom? p).or (rest.firstErrorFrom? (p.afterLeaves tree.leaves)) := by
  rw [Forest.firstErrorFrom?]
  cases htree : tree.hasError with
  | false => rw [Tree.firstErrorFrom?_eq_none htree]; rfl
  | true => cases tree.firstErrorFrom? p <;> rfl

/-! ## What the search comes to -/

theorem Position.afterLeaves_append (p : Position) (ls ls' : List Leaf) :
    p.afterLeaves (ls ++ ls') = (p.afterLeaves ls).afterLeaves ls' :=
  List.foldl_append

/-- Where the node at a place of a tree begins, the tree's gap being at `p`. -/
def Tree.startOf (p : Position) (t : Tree) (q : Place) : Position :=
  q.node.startFrom (p.afterLeaves (t.leavesBefore q.address))

/-- A place of a child begins where it begins in the child, behind the siblings in front. -/
theorem Tree.startOf_under {t child : Tree} {front rest : List Tree}
    (h : t.children.trees = front ++ child :: rest) (p : Position) (q : Place) :
    t.startOf p (q.under [front.length]) =
      child.startOf (p.afterLeaves (front.flatMap Tree.leaves)) q := by
  rw [startOf, startOf, Place.under, List.singleton_append, Tree.leavesBefore_cons h,
    Position.afterLeaves_append]

theorem Forest.firstErrorFrom?_eq_find? {f : Forest}
    (hf : ∀ child ∈ f.trees, ∀ p, child.firstErrorFrom? p =
      (child.places.find? fun q => q.node.isFlawed).map fun q => (child.startOf p q, q.node))
    {t : Tree} {front : List Tree} (ht : t.children.trees = front ++ f.trees) (p : Position) :
    f.firstErrorFrom? (p.afterLeaves (front.flatMap Tree.leaves)) =
      ((f.places front.length).find? fun q => q.node.isFlawed).map fun q =>
        (t.startOf p q, q.node) := by
  induction f using Forest.induction_on_siblings generalizing front with
  | nil => rfl
  | cons field tree rest ih =>
    obtain ⟨htree, hsiblings⟩ := List.forall_mem_cons.1 hf
    have hfront : t.children.trees = (front ++ [tree]) ++ rest.trees := by
      rw [ht, List.append_assoc]
      rfl
    have hrest := ih hsiblings hfront
    rw [List.flatMap_append, List.flatMap_singleton, Position.afterLeaves_append,
      List.length_append, List.length_singleton] at hrest
    have hunder : (fun q : Place => (t.startOf p q, q.node)) ∘ Place.under [front.length] =
        fun q => (tree.startOf (p.afterLeaves (front.flatMap Tree.leaves)) q, q.node) := by
      funext q
      exact congrArg (·, q.node) (Tree.startOf_under ht p q)
    rw [Forest.firstErrorFrom?_cons, htree, hrest, Forest.places, List.find?_append,
      Option.map_or, List.find?_map, Option.map_map, hunder]
    rfl

/-- The search through a tree comes to the first of its places that has a wrong node. The induction
is over all positions, since a child is searched behind the siblings in front of it. -/
theorem Tree.firstErrorFrom?_eq_find? (t : Tree) (p : Position) :
    t.firstErrorFrom? p =
      (t.places.find? fun q => q.node.isFlawed).map fun q => (t.startOf p q, q.node) := by
  induction t using Tree.induction_on_children generalizing p with
  | step t ih =>
    have hchildren := Forest.firstErrorFrom?_eq_find? ih (List.nil_append _).symm p
    rw [Tree.firstErrorFrom?_eq, Tree.places_eq_cons, List.find?_cons]
    cases hflawed : t.isFlawed with
    | true => rfl
    | false => exact hchildren

/-! ## The first error -/

/-- The node at an address is the first of a tree that is wrong: the nodes before it are not. -/
structure Tree.IsFirstError (t : Tree) (address : List ℕ) (node : Tree) : Prop where
  at_address : t.at? address = some node
  isFlawed : node.isFlawed = true
  le : ∀ a u, t.at? a = some u → u.isFlawed = true → address ≤ a

theorem Tree.isFirstError_of_find? {t : Tree} {q : Place}
    (h : t.places.find? (fun q => q.node.isFlawed) = some q) :
    t.IsFirstError q.address q.node := by
  obtain ⟨hflawed, before, after, hplaces, hbefore⟩ := List.find?_eq_some_iff_append.1 h
  have hmem : q ∈ t.places := List.mem_of_find?_eq_some h
  refine ⟨(t.mem_places_iff q).1 hmem, hflawed, fun a u hu hwrong => ?_⟩
  have hmem' : (⟨a, u⟩ : Place) ∈ before ++ q :: after := hplaces ▸ (t.mem_places_iff _).2 hu
  -- what is in front of the place found is not wrong, what is behind it has a larger address
  rcases List.mem_append.1 hmem' with hin | hin
  · have hclean := hbefore _ hin
    simp [hwrong] at hclean
  · rcases List.mem_cons.1 hin with heq | hin
    · exact (congrArg Place.address heq).ge
    · have hsorted := t.pairwise_places
      rw [hplaces] at hsorted
      have hafter := (List.pairwise_append.1 hsorted).2.1
      exact ((List.pairwise_cons.1 hafter).1 _ hin).le

/-- There is no more than one first error. -/
theorem Tree.IsFirstError.unique {t node node' : Tree} {address address' : List ℕ}
    (h : t.IsFirstError address node) (h' : t.IsFirstError address' node') :
    address = address' ∧ node = node' := by
  obtain rfl : address = address' :=
    le_antisymm (h.le _ _ h'.at_address h'.isFlawed) (h'.le _ _ h.at_address h.isFlawed)
  exact ⟨rfl, Option.some.inj (h.at_address.symm.trans h'.at_address)⟩

/-- The search finds the first error of a tree, and nothing else. -/
theorem Tree.firstError?_eq_some_iff {t node : Tree} {start : Position} :
    t.firstError? = some (start, node) ↔
      ∃ address, t.IsFirstError address node ∧ start = t.startOf {} ⟨address, node⟩ := by
  rw [Tree.firstError?, Tree.firstErrorFrom?_eq_find?, Option.map_eq_some_iff]
  constructor
  · rintro ⟨q, hq, hfound⟩
    cases hfound
    exact ⟨q.address, Tree.isFirstError_of_find? hq, rfl⟩
  · rintro ⟨address, hfirst, rfl⟩
    have hmem : (⟨address, node⟩ : Place) ∈ t.places := (t.mem_places_iff _).2 hfirst.at_address
    have hsome : (t.places.find? fun q => q.node.isFlawed).isSome = true :=
      List.find?_isSome.2 ⟨_, hmem, hfirst.isFlawed⟩
    obtain ⟨q, hq⟩ := Option.isSome_iff_exists.1 hsome
    obtain ⟨rfl, rfl⟩ := hfirst.unique (Tree.isFirstError_of_find? hq)
    exact ⟨q, hq, rfl⟩

/-- The node that the search finds is the first wrong one that a walk sees. -/
theorem Tree.map_firstError? (t : Tree) :
    t.firstError?.map Prod.snd = t.walk.find? Tree.isFlawed := by
  rw [Tree.firstError?, Tree.firstErrorFrom?_eq_find?, Tree.walk_eq_nodes, Tree.nodes_eq_map,
    List.find?_map, Option.map_map]
  rfl

/-- The search finds nothing exactly if the tree holds no error. -/
theorem Tree.firstError?_eq_none_iff (t : Tree) : t.firstError? = none ↔ t.hasError = false := by
  rw [Tree.firstError?, Tree.firstErrorFrom?_eq_find?, Option.map_eq_none_iff, List.find?_eq_none,
    Tree.hasError_eq_any, List.any_eq_false]

end Syntax

/-! ## What a source is refused with -/

namespace Harvester

open Java

variable {h : Harvester} {source path : String}

/-- A source is refused exactly if its tree has a first error, and with that. -/
theorem treeOf_eq_error_iff {e : Error} :
    h.treeOf source path = .error e ↔ ∃ address node, (h.parse source).IsFirstError address node ∧
      e = .malformedSource path ((h.parse source).startOf {} ⟨address, node⟩).line
        ((h.parse source).startOf {} ⟨address, node⟩).column node.complaint := by
  cases herror : (h.parse source).hasError with
  | false =>
    rw [treeOf_of_accepted herror]
    constructor
    · intro haccepted
      cases haccepted
    · rintro ⟨address, node, hfirst, -⟩
      have hsome := Tree.firstError?_eq_some_iff.2 ⟨address, hfirst, rfl⟩
      rw [(Tree.firstError?_eq_none_iff _).2 herror] at hsome
      cases hsome
  | true =>
    rw [treeOf_of_refused herror]
    cases hsearch : (h.parse source).firstError? with
    | none =>
      rw [(Tree.firstError?_eq_none_iff _).1 hsearch] at herror
      cases herror
    | some found =>
      obtain ⟨start, node⟩ := found
      obtain ⟨address, hfirst, rfl⟩ := Tree.firstError?_eq_some_iff.1 hsearch
      constructor
      · intro he
        cases he
        exact ⟨address, node, hfirst, rfl⟩
      · rintro ⟨address', node', hfirst', rfl⟩
        obtain ⟨rfl, rfl⟩ := hfirst.unique hfirst'
        rfl

/-- Folding a source into a context fails only with what its tree is refused with. -/
theorem harvestSource_eq_error_iff {c : Context} {e : Error} :
    h.harvestSource source path c = .error e ↔ h.treeOf source path = .error e := by
  rw [harvestSource, declarationsOf]
  cases h.treeOf source path with
  | error e' =>
    constructor
    · intro hfailed
      cases hfailed
      rfl
    · intro hrefused
      cases hrefused
      rfl
  | ok t =>
    constructor
    · intro hfailed
      cases hfailed
    · intro hrefused
      cases hrefused

/-- **The first error is found and reported.** A tree holds an error exactly if one of its nodes is
wrong. The search comes to the first of these that a walk through the whole tree sees; this is the
one at the least address, and with it comes the position at which it begins. It comes to nothing
only if no node is wrong. So a source that is parsed to the tree is refused exactly with what is
wrong at that node. It is never refused without a position, and where harvesting it fails, the error
names a line and a column, both counted from 1. -/
theorem treeOf_reports_first (t : Tree) :
    (t.hasError = true ↔ ∃ address node, t.at? address = some node ∧ node.isFlawed = true) ∧
    t.firstError?.map Prod.snd = t.walk.find? Tree.isFlawed ∧
    (∀ start node, t.firstError? = some (start, node) ↔
      ∃ address, t.IsFirstError address node ∧ start = t.startOf {} ⟨address, node⟩) ∧
    (t.firstError? = none ↔ ∀ address node, t.at? address = some node → node.isFlawed = false) ∧
    ∀ (h : Harvester) source path, h.parse source = t →
      (∀ e, h.treeOf source path = .error e ↔ ∃ address node, t.IsFirstError address node ∧
        e = .malformedSource path (t.startOf {} ⟨address, node⟩).line
          (t.startOf {} ⟨address, node⟩).column node.complaint) ∧
      h.treeOf source path ≠ .error (.ofFirstError path none) ∧
      ∀ c e, h.harvestSource source path c = .error e → ∃ line column text,
        e = .malformedSource path line column text ∧ 1 ≤ line ∧ 1 ≤ column := by
  refine ⟨t.hasError_iff, t.map_firstError?, fun start node => Tree.firstError?_eq_some_iff, ?_, ?_⟩
  · rw [Tree.firstError?_eq_none_iff, ← Bool.not_eq_true, Tree.hasError_iff]
    simp
  · rintro h source path rfl
    refine ⟨fun e => treeOf_eq_error_iff, fun hnowhere => ?_, fun c e hfailed => ?_⟩
    · obtain ⟨address, node, -, heq⟩ := treeOf_eq_error_iff.1 hnowhere
      cases heq
    · obtain ⟨address, node, -, rfl⟩ := treeOf_eq_error_iff.1 (harvestSource_eq_error_iff.1 hfailed)
      exact ⟨_, _, _, rfl, Nat.le_add_left 1 _, Nat.le_add_left 1 _⟩

/-- Input that fits nowhere, and behind it a token that is missing. -/
def misplacedSign : Tree :=
  .error (.cons none (mark " " "#") (.cons none (.missing ";" false) .nil))

/-- A class behind an import, with a misplaced sign in it and without a closing brace. -/
def unclosedClass : Tree :=
  nodeOf "program"
    [(none, nodeOf "import_declaration"
      [(none, mark "" "import"), (none, token "identifier" " " "a"), (none, mark "" ";")]),
    (none, nodeOf "class_declaration"
      [(none, mark "\n" "class"), (some "name", token "identifier" " " "É"),
      (some "body", nodeOf "class_body"
        [(none, mark " " "\x7b"), (none, misplacedSign), (none, .missing "\x7d" false)])])]

/-- Of the three errors the sign comes first, and the second is part of it. In front of it on its
line are ten characters, and one of them takes two bytes. -/
theorem treeOf_reports_first_unclosedClass :
    unclosedClass.IsFirstError [1, 2, 1] misplacedSign ∧
      ({ parse := fun _ => unclosedClass } : Harvester).treeOf "" "T.java" =
        .error (.malformedSource "T.java" 2 12 "unexpected input") := by
  have hfound : unclosedClass.places.find? (fun p => p.node.isFlawed) =
      some ⟨[1, 2, 1], misplacedSign⟩ := by rfl
  have hfirst : unclosedClass.IsFirstError [1, 2, 1] misplacedSign :=
    Tree.isFirstError_of_find? hfound
  obtain ⟨-, -, -, -, hreports⟩ := treeOf_reports_first unclosedClass
  obtain ⟨hrefused, -, -⟩ := hreports { parse := fun _ => unclosedClass } "" "T.java" rfl
  exact ⟨hfirst, (hrefused _).2 ⟨[1, 2, 1], misplacedSign, hfirst, by rfl⟩⟩

end Harvester

end PatternHarvest
