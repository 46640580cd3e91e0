import PatternHarvest.Proofs.Declarators
import Mathlib.Data.List.Forall2

/-!
# What a tree declares, place by place

`declarations_in_order` says what a walk through a tree comes to. The walk ends by itself, after
being at each place of the tree once, in the order of addresses; and the declarations that it
collects are those of the declarators among the places, in the same order. What a place declares
(`DeclaresAt`) is said of the tree alone, without a walk: the node at an address, its fields, and the
line of its first token.

Two things have to be shown beyond `Tree.exists_walks_root`. While it walks, the program counts the
lines of the leaves it has come through, and those are the leaves in front of the place
(`declaratorsFrom_tree`). And in the order of addresses all that is below a place follows it
without a gap, so that nested declarations come behind theirs and before the next sibling's
(`exists_nested_append`).
-/

namespace PatternHarvest

open Syntax

/-! ## Lines -/

namespace Syntax

/-- How often some leaves, with the gaps before them, go to a new line. -/
def linesIn : List Leaf → ℕ
  | [] => 0
  | l :: ls => Java.newlines l.gap + Java.newlines l.text + linesIn ls

theorem linesIn_nil : linesIn [] = 0 := rfl

theorem linesIn_append (ls ls' : List Leaf) : linesIn (ls ++ ls') = linesIn ls + linesIn ls' := by
  induction ls with
  | nil => rw [List.nil_append, linesIn_nil, Nat.zero_add]
  | cons l ls ih => rw [List.cons_append, linesIn, ih, linesIn, ← Nat.add_assoc]

namespace Position

theorem row_after (p : Position) (s : String) : (p.after s).row = p.row + Java.newlines s := by
  rw [after, Java.newlines]
  induction s.toList generalizing p with
  | nil => rfl
  | cons c cs ih =>
    rw [List.foldl_cons, ih, push, List.count_cons]
    by_cases hc : c = '\n'
    · simp [hc, Nat.add_comm, Nat.add_left_comm]
    · simp [hc]

theorem row_afterLeaves (p : Position) (ls : List Leaf) :
    (p.afterLeaves ls).row = p.row + linesIn ls := by
  induction ls generalizing p with
  | nil => rfl
  | cons l ls ih =>
    have hcons : p.afterLeaves (l :: ls) = ((p.after l.gap).after l.text).afterLeaves ls := rfl
    rw [hcons, ih, row_after, row_after, linesIn, ← Nat.add_assoc, ← Nat.add_assoc]

end Position

/-- The leaves in front of the node at an address. -/
def Tree.leavesBefore : Tree → List ℕ → List Leaf
  | _, [] => []
  | t, i :: address =>
    (t.children.trees.take i).flatMap Tree.leaves ++
      match t.children.trees[i]? with
      | some child => child.leavesBefore address
      | none => []

/-- The line, from 1, on which the node at a place begins. -/
def Tree.lineAt (t : Tree) (p : Place) : ℕ :=
  (p.node.startFrom (Position.afterLeaves {} (t.leavesBefore p.address))).line

theorem Tree.lineAt_eq (t : Tree) (p : Place) :
    t.lineAt p = linesIn (t.leavesBefore p.address) + Java.newlines p.node.gap + 1 := by
  rw [lineAt, startFrom, Position.line, Position.row_after, Position.row_afterLeaves]
  simp

theorem Forest.leaves_eq_flatMap (f : Forest) : f.leaves = f.trees.flatMap Tree.leaves := by
  induction f using Forest.induction_on_siblings with
  | nil => rfl
  | cons field tree rest ih => rw [Forest.leaves_cons, ih, Forest.trees, List.flatMap_cons]

/-- The lines of a tree are those of its own token, if it is one, and those of its children. -/
theorem Tree.linesIn_leaves (t : Tree) :
    linesIn t.leaves = Java.linesOf t + linesIn (t.children.trees.flatMap Tree.leaves) := by
  have hchildren (f : Forest) : linesIn f.leaves = 0 + linesIn (f.trees.flatMap Tree.leaves) := by
    rw [f.leaves_eq_flatMap, Nat.zero_add]
  cases t with
  | leaf l => rfl
  | node kind children => exact hchildren children
  | missing kind named => rfl
  | error children => exact hchildren children

theorem Tree.leavesBefore_cons {t child : Tree} {front rest : List Tree}
    (h : t.children.trees = front ++ child :: rest) (address : List ℕ) :
    t.leavesBefore (front.length :: address) =
      front.flatMap Tree.leaves ++ child.leavesBefore address := by
  simp [leavesBefore, h]

end Syntax

namespace Java

/-! ## The declarator at a place -/

/-- The declarator at a place of a tree, `line` being the number of lines before the tree. -/
def declaratorAt? (line : ℕ) (t : Tree) (p : Place) : Option Declarator :=
  declarator? (line + linesIn (t.leavesBefore p.address)) p.node

/-- Siblings are visited one after the other, behind others that are done with. -/
theorem declaratorsFrom_forest {f : Forest}
    (hf : ∀ child ∈ f.trees, ∀ line ts, declaratorsFrom line (child.nodes ++ ts) =
      child.places.filterMap (declaratorAt? line child) ++
        declaratorsFrom (line + linesIn child.leaves) ts)
    {t : Tree} {front : List Tree} (ht : t.children.trees = front ++ f.trees) (line : ℕ)
    (ts : List Tree) :
    declaratorsFrom (line + linesIn (front.flatMap Tree.leaves)) (f.nodes ++ ts) =
      (f.places front.length).filterMap (declaratorAt? line t) ++
        declaratorsFrom (line + linesIn (t.children.trees.flatMap Tree.leaves)) ts := by
  induction f using Forest.induction_on_siblings generalizing front with
  | nil =>
    rw [ht]
    simp [Forest.nodes, Forest.places, Forest.trees]
  | cons field tree rest ih =>
    obtain ⟨htree, hsiblings⟩ := List.forall_mem_cons.1 hf
    have hplaces : (tree.places.map (Place.under [front.length])).filterMap
        (declaratorAt? line t) = tree.places.filterMap
          (declaratorAt? (line + linesIn (front.flatMap Tree.leaves)) tree) := by
      rw [List.filterMap_map]
      congr 1
      funext p
      simp only [Function.comp_apply, declaratorAt?, Place.under, List.singleton_append]
      rw [Tree.leavesBefore_cons ht, linesIn_append, Nat.add_assoc]
    have hfront : t.children.trees = (front ++ [tree]) ++ rest.trees := by
      rw [ht, Forest.trees, List.append_assoc, List.singleton_append]
    have hrest := ih hsiblings hfront
    rw [Forest.nodes, Forest.places, List.append_assoc, htree, List.filterMap_append, hplaces,
      List.append_assoc]
    rw [List.flatMap_append, List.flatMap_singleton, linesIn_append, List.length_append,
      List.length_singleton, ← Nat.add_assoc] at hrest
    rw [hrest]

/-- Visiting the nodes of a tree finds the declarators at its places, and goes on behind all lines
of the tree. -/
theorem declaratorsFrom_tree (t : Tree) (line : ℕ) (ts : List Tree) :
    declaratorsFrom line (t.nodes ++ ts) =
      t.places.filterMap (declaratorAt? line t) ++
        declaratorsFrom (line + linesIn t.leaves) ts := by
  induction t using Tree.induction_on_children generalizing line ts with
  | step t ih =>
    have hroot : declaratorAt? line t ⟨[], t⟩ = declarator? line t := rfl
    have hfront : t.children.trees = [] ++ t.children.trees := rfl
    have hchildren := declaratorsFrom_forest ih hfront (line + linesOf t) ts
    rw [List.flatMap_nil, linesIn_nil, Nat.add_zero, List.length_nil] at hchildren
    -- no token of the tree is left behind but its own, if it is one
    have hplaces : (t.children.places 0).filterMap (declaratorAt? (line + linesOf t) t) =
        (t.children.places 0).filterMap (declaratorAt? line t) := by
      cases t <;> rfl
    rw [Tree.nodes_eq_cons, Tree.places_eq_cons, List.cons_append, declaratorsFrom, hchildren,
      hplaces, Tree.linesIn_leaves, List.filterMap_cons, hroot, Nat.add_assoc]
    cases declarator? line t <;> simp

/-- The declarators of a tree are those at its places. -/
theorem declarators_eq_filterMap (t : Tree) :
    declarators t = t.places.filterMap (declaratorAt? 0 t) := by
  have h := declaratorsFrom_tree t 0 []
  rwa [List.append_nil, declaratorsFrom, List.append_nil] at h

/-- What the node at an address of a tree declares: it is a declarator with a name and a value, the
declaration binds the text of the name to the reduced value, and it has the line on which the node
begins. -/
def DeclaresAt (depth : ℕ) (t : Tree) (address : List ℕ) (d : Declaration) : Prop :=
  ∃ node name value, t.at? address = some node ∧
    (node.kind = "variable_declarator" ∨ node.kind = "resource") ∧
    node.child? "name" = some name ∧ node.child? "value" = some value ∧
    d = { name := name.text, init := lower depth value, line := t.lineAt ⟨address, node⟩ }

theorem isDeclarator_iff {kind : String} :
    isDeclarator kind = true ↔ kind = "variable_declarator" ∨ kind = "resource" := by
  simp [isDeclarator]

theorem declaresAt_iff {depth : ℕ} {t : Tree} {p : Place} (hp : t.at? p.address = some p.node)
    {d : Declaration} :
    DeclaresAt depth t p.address d ↔
      (declaratorAt? 0 t p).map (Declarator.declaration depth) = some d := by
  have hline : t.lineAt ⟨p.address, p.node⟩ =
      0 + linesIn (t.leavesBefore p.address) + newlines p.node.gap + 1 := by
    rw [t.lineAt_eq, Nat.zero_add]
  have hnode : DeclaresAt depth t p.address d ↔ ∃ name value, isDeclarator p.node.kind = true ∧
      p.node.child? "name" = some name ∧ p.node.child? "value" = some value ∧
      d = { name := name.text, init := lower depth value, line := t.lineAt p } := by
    simp [DeclaresAt, hp, isDeclarator_iff]
  rw [hnode, declaratorAt?, declarator?]
  by_cases hkind : isDeclarator p.node.kind = true
  · cases hname : p.node.child? "name" <;> cases hvalue : p.node.child? "value" <;>
      simp [hkind, hline, Declarator.declaration, eq_comm]
  · simp [hkind]

/-! ## Nested declarations -/

/-- What comes between a list and one that goes on from it goes on from it too. -/
theorem isPrefix_of_lt_of_lt {outer a rest : List ℕ} (h : outer < a) (h' : a < outer ++ rest) :
    outer <+: a := by
  induction outer generalizing a with
  | nil => exact List.nil_prefix
  | cons i outer ih =>
    cases a with
    | nil => exact absurd h (List.not_lt_nil _)
    | cons j a =>
      rw [List.cons_append, List.cons_lt_cons_iff] at h'
      rw [List.cons_lt_cons_iff] at h
      obtain ⟨rfl, hlt, hlt'⟩ : i = j ∧ outer < a ∧ a < outer ++ rest := by
        rcases h with hij | ⟨rfl, hlt⟩ <;> rcases h' with hji | ⟨heq, hlt'⟩
        · omega
        · omega
        · omega
        · exact ⟨rfl, hlt, hlt'⟩
      exact List.cons_prefix_cons.2 ⟨rfl, ih hlt hlt'⟩

/-- Of increasing addresses behind one, those below it come first. -/
theorem exists_nested_append {outer : List ℕ} {addresses : List (List ℕ)}
    (hsorted : addresses.Pairwise (· < ·)) (houter : ∀ a ∈ addresses, outer < a) :
    ∃ nested rest, addresses = nested ++ rest ∧ (∀ a ∈ nested, outer <+: a) ∧
      ∀ a ∈ rest, ¬outer <+: a := by
  induction addresses with
  | nil => exact ⟨[], [], rfl, by simp, by simp⟩
  | cons a addresses ih =>
    obtain ⟨ha, hsorted⟩ := List.pairwise_cons.1 hsorted
    by_cases hbelow : outer <+: a
    · obtain ⟨nested, rest, rfl, hnested, hrest⟩ :=
        ih hsorted fun b hb => houter b (List.mem_cons_of_mem _ hb)
      refine ⟨a :: nested, rest, rfl, fun b hb => ?_, hrest⟩
      rcases List.mem_cons.1 hb with rfl | hb
      · exact hbelow
      · exact hnested b hb
    · refine ⟨[], a :: addresses, rfl, by simp, fun b hb => ?_⟩
      rcases List.mem_cons.1 hb with rfl | hb
      · exact hbelow
      · rintro ⟨more, rfl⟩
        exact hbelow (isPrefix_of_lt_of_lt (houter a List.mem_cons_self) (ha _ hb))

/-! ## All declarations -/

/-- The elements that a function is defined on, and what it makes of them, one for one. -/
theorem forall₂_filterMap {α β : Type} {f : α → Option β} {R : α → β → Prop} {as : List α}
    (h : ∀ a ∈ as, ∀ b, f a = some b → R a b) :
    List.Forall₂ R (as.filter fun a => (f a).isSome) (as.filterMap f) := by
  induction as with
  | nil => exact .nil
  | cons a as ih =>
    have has := ih fun b hb => h b (List.mem_cons_of_mem a hb)
    cases ha : f a with
    | none => simpa [ha] using has
    | some b => simpa [ha] using ⟨h a List.mem_cons_self b ha, has⟩

/-- What is declared at the places of a tree, in the order of the places. -/
theorem declarations_eq_filterMap (depth : ℕ) (t : Tree) :
    declarations depth t =
      t.places.filterMap fun p => (declaratorAt? 0 t p).map (Declarator.declaration depth) := by
  rw [declarations_eq_map, declarators_eq_filterMap, List.map_filterMap]

/-- The addresses of a tree at which something is declared, in increasing order. -/
def declaringAddresses (t : Tree) : List (List ℕ) :=
  (t.places.filter fun p => (declaratorAt? 0 t p).isSome).map Place.address

theorem pairwise_declaringAddresses (t : Tree) :
    (declaringAddresses t).Pairwise (· < ·) :=
  List.pairwise_map.2 (t.pairwise_places.filter _)

theorem mem_declaringAddresses_iff (depth : ℕ) {t : Tree} {a : List ℕ} :
    a ∈ declaringAddresses t ↔ ∃ d, DeclaresAt depth t a d := by
  simp only [declaringAddresses, List.mem_map, List.mem_filter, Option.isSome_iff_exists]
  constructor
  · rintro ⟨p, ⟨hp, d, hd⟩, rfl⟩
    exact ⟨_, (declaresAt_iff ((t.mem_places_iff p).1 hp)).2 (by rw [hd]; rfl)⟩
  · rintro ⟨d, hd⟩
    obtain ⟨node, -, -, hnode, -⟩ := id hd
    have hplace := (declaresAt_iff (p := ⟨a, node⟩) hnode).1 hd
    obtain ⟨declarator, hdeclarator, -⟩ := Option.map_eq_some_iff.1 hplace
    exact ⟨⟨a, node⟩, ⟨(t.mem_places_iff _).2 hnode, declarator, hdeclarator⟩, rfl⟩

theorem forall₂_declarations (depth : ℕ) (t : Tree) :
    List.Forall₂ (DeclaresAt depth t) (declaringAddresses t) (declarations depth t) := by
  have hdeclares : ∀ p ∈ t.places, ∀ d,
      (declaratorAt? 0 t p).map (Declarator.declaration depth) = some d →
        DeclaresAt depth t p.address d :=
    fun p hp d hd => (declaresAt_iff ((t.mem_places_iff p).1 hp)).2 hd
  have hdeclared := forall₂_filterMap hdeclares
  simp only [Option.isSome_map] at hdeclared
  rw [declarations_eq_filterMap, declaringAddresses, List.forall₂_map_left_iff]
  exact hdeclared

/-- **What a tree declares, in order.** From the root of a tree the cursor comes to an end after
being once at every address of the tree, in increasing order, and the nodes that it saw are those of
the tree's walk. The declarations of the tree are, one for one and in increasing order of addresses,
those of the places that declare something. What is declared below a place that declares something
itself follows its declaration directly, in front of all that is declared elsewhere behind it. -/
theorem declarations_in_order (depth : ℕ) (t : Tree) :
    (∃ visited, (Cursor.root t).Walks visited ∧ t.walk = visited.map Cursor.focus ∧
      (visited.map Cursor.address).Pairwise (· < ·) ∧
      ∀ address node, (∃ c ∈ visited, c.address = address ∧ c.focus = node) ↔
        t.at? address = some node) ∧
    (∃ addresses : List (List ℕ), addresses.Pairwise (· < ·) ∧
      (∀ a, a ∈ addresses ↔ ∃ d, DeclaresAt depth t a d) ∧
      List.Forall₂ (DeclaresAt depth t) addresses (declarations depth t) ∧
      ∀ before outer after, addresses = before ++ outer :: after →
        (∀ a ∈ before, ¬outer <+: a) ∧
        ∃ nested rest, after = nested ++ rest ∧ (∀ a ∈ nested, outer <+: a) ∧
          ∀ a ∈ rest, ¬outer <+: a) := by
  refine ⟨?_, ?_⟩
  · obtain ⟨visited, hwalks, hplaces, hwalk⟩ := t.exists_walks_root
    refine ⟨visited, hwalks, hwalk, ?_, fun address node => ?_⟩
    · have hsorted := t.pairwise_places
      rw [← hplaces, List.pairwise_map] at hsorted
      exact List.pairwise_map.2 hsorted
    · rw [← t.mem_places_iff ⟨address, node⟩, ← hplaces, List.mem_map]
      simp [Cursor.place]
  · have hsorted := pairwise_declaringAddresses t
    refine ⟨declaringAddresses t, hsorted, fun a => mem_declaringAddresses_iff depth,
      forall₂_declarations depth t, fun before outer after hsplit => ?_⟩
    rw [hsplit] at hsorted
    obtain ⟨-, hafter, hbefore⟩ := List.pairwise_append.1 hsorted
    obtain ⟨houter, hafter⟩ := List.pairwise_cons.1 hafter
    refine ⟨fun a ha => ?_, exists_nested_append hafter houter⟩
    rintro ⟨more, rfl⟩
    exact List.le_append_left (hbefore _ ha outer List.mem_cons_self)

/-- A field whose value holds a declaration of its own, and the field after it. -/
def nestedFields : Tree :=
  let leaf (kind gap text : String) : Tree := .leaf ⟨kind, true, false, gap, text⟩
  let declarator (gap name : String) (value : Tree) : Tree := .node "variable_declarator"
    (.cons (some "name") (leaf "identifier" gap name) (.cons (some "value") value .nil))
  let inner := declarator "\n" "inner" (leaf "string_literal" "" "\"i\"")
  .node "program"
    (.cons none (declarator "" "outer" (.node "lambda_expression" (.cons (some "body") inner .nil)))
      (.cons none (declarator "\n" "next" (leaf "string_literal" "" "\"n\"")) .nil))

/-- The declaration inside the first value stands between the two fields. -/
theorem declarations_in_order_nestedFields :
    declarations 2 nestedFields =
      [⟨"outer", .other "lambda_expression", 1⟩, ⟨"inner", .literal "i", 2⟩,
        ⟨"next", .literal "n", 3⟩] ∧
    ∃ outer nested rest,
      List.Forall₂ (DeclaresAt 2 nestedFields) (outer :: (nested ++ rest))
        (declarations 2 nestedFields) ∧
      (∀ a ∈ nested, outer <+: a) ∧ ∀ a ∈ rest, ¬outer <+: a := by
  have hthree : declarations 2 nestedFields =
      [⟨"outer", .other "lambda_expression", 1⟩, ⟨"inner", .literal "i", 2⟩,
        ⟨"next", .literal "n", 3⟩] := by
    rw [declarations_eq_filterMap]
    rfl
  refine ⟨hthree, ?_⟩
  obtain ⟨-, addresses, -, -, hdeclared, hnested⟩ := declarations_in_order 2 nestedFields
  cases addresses with
  | nil =>
    rw [hthree] at hdeclared
    cases hdeclared
  | cons outer addresses =>
    obtain ⟨-, nested, rest, rfl, hbelow, hbehind⟩ := hnested [] outer addresses rfl
    exact ⟨outer, nested, rest, hdeclared, hbelow, hbehind⟩

end Java

end PatternHarvest
