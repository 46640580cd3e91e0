import PatternHarvest.Proofs.Declarators
import PatternHarvest.Proofs.Sums
import Mathlib.Data.List.Forall2

/-!
# Comments make no difference

A comment is a leaf that stands outside the grammar. `Commented` relates a tree to the same tree
with more comments in it, wherever they are put, and `declarations_commented` says that both trees
declare the same and leave the same context behind. Only lines can differ.

A comment would come into a text that is taken from the tree if it stood inside of that text. Names
and operators are safe from this, being single tokens (`NamedByTokens`). A receiver and a string
literal are not: their texts are taken as they are written, so `Commented` keeps comments out of
receivers, and out of nodes of further kinds, which it has as a parameter. String literals have to
be among these, for an expression can stand inside of one (`declarations_commented_template`).

The two trees are held together by `Kept`, from a node to its parts: a node and its counterpart have
the same form (`Kept.rel_form`), and what is bound at the one is bound at the other, while a comment
binds nothing (`Kept.filterMap_nodes`).
-/

namespace PatternHarvest

open Syntax

namespace Java

/-! ## Trees with more comments -/

/-- Children with more comments among them; `R` says what has become of each child. -/
inductive Interspersed (R : Tree → Tree → Prop) : Forest → Forest → Prop
  | nil : Interspersed R .nil .nil
  | comment {l : Leaf} {f f' : Forest} (hextra : l.extra = true) (hrest : Interspersed R f f') :
    Interspersed R f (.cons none (.leaf l) f')
  | cons {field : Option String} {tree tree' : Tree} {f f' : Forest} (htree : R tree tree')
    (hrest : Interspersed R f f') : Interspersed R (.cons field tree f) (.cons field tree' f')

/-- The second of two trees without errors is the first one with more comments in it, and maybe with
other gaps between the tokens. Nothing has come into the text of a receiver, nor into the text of a
node whose kind is among `whole`. -/
inductive Commented (whole : List String) : Tree → Tree → Prop
  | leaf (l : Leaf) (gap : String) : Commented whole (.leaf l) (.leaf { l with gap })
  | node {kind : String} {children children' : Forest}
    (hchildren : Interspersed (Commented whole) children children')
    (hreceiver : kind = "method_invocation" →
      (Tree.child? "object" (.node kind children')).map Tree.text =
        (Tree.child? "object" (.node kind children)).map Tree.text)
    (hwhole : kind ∈ whole → Tree.text (.node kind children') = Tree.text (.node kind children)) :
    Commented whole (.node kind children) (.node kind children')

section

variable {R R' : Tree → Tree → Prop} {f f' : Forest}

theorem Interspersed.mono (h : Interspersed R f f')
    (hR : ∀ c ∈ f.trees, ∀ c', R c c' → R' c c') : Interspersed R' f f' := by
  induction h with
  | nil => exact .nil
  | comment hextra _ ih => exact .comment hextra (ih hR)
  | cons htree _ ih =>
    rw [Forest.trees, List.forall_mem_cons] at hR
    exact .cons (hR.1 _ htree) (ih hR.2)

/-- What stood under a field stands there still. -/
theorem Interspersed.rel_find? (h : Interspersed R f f') (field : String) :
    Option.Rel R ((f.toList.find? (·.1 == some field)).map (·.2))
      ((f'.toList.find? (·.1 == some field)).map (·.2)) := by
  induction h with
  | nil => exact .none
  | comment _ _ ih => exact ih
  | @cons own tree tree' f f' htree _ ih =>
    by_cases hown : own = some field
    · subst hown
      simp only [Forest.toList, List.find?_cons, beq_self_eq_true, Option.map_some]
      exact .some htree
    · have hbeq : (own == some field) = false := by simpa using hown
      simp only [Forest.toList, List.find?_cons, hbeq]
      exact ih

/-- No comment is an argument. -/
theorem Interspersed.forall₂_filter (h : Interspersed R f f')
    (hR : ∀ c c', R c c' → c'.isNamed = c.isNamed ∧ c'.isExtra = c.isExtra) :
    List.Forall₂ R (f.trees.filter fun c => c.isNamed && !c.isExtra)
      (f'.trees.filter fun c => c.isNamed && !c.isExtra) := by
  induction h with
  | nil => exact .nil
  | @comment l f f' hextra _ ih =>
    have hleaf : (Tree.leaf l).isExtra = true := hextra
    rw [Forest.trees, List.filter_cons_of_neg (by simp [hleaf])]
    exact ih
  | @cons field tree tree' f f' htree _ ih =>
    obtain ⟨hnamed, hextra⟩ := hR tree tree' htree
    rw [Forest.trees, Forest.trees, List.filter_cons, List.filter_cons, hnamed, hextra]
    split
    · exact .cons htree ih
    · exact ih

theorem Interspersed.hasError_eq_false
    (h : Interspersed (fun c c' => c.hasError = false ∧ c'.hasError = false) f f') :
    f.hasError = false ∧ f'.hasError = false := by
  induction h with
  | nil => exact ⟨rfl, rfl⟩
  | comment _ _ ih => exact ih
  | cons htree _ ih =>
    rw [Forest.hasError, Forest.hasError, htree.1, htree.2, ih.1, ih.2]
    exact ⟨rfl, rfl⟩

/-- A comment binds nothing. -/
theorem Interspersed.filterMap_nodes {depth : ℕ}
    (h : Interspersed (fun c c' =>
      c'.nodes.filterMap (binding? depth) = c.nodes.filterMap (binding? depth)) f f') :
    f'.nodes.filterMap (binding? depth) = f.nodes.filterMap (binding? depth) := by
  have hcomment (l : Leaf) : binding? depth (.leaf l) = none := by
    rw [binding?]
    split <;> rfl
  induction h with
  | nil => rfl
  | comment _ _ ih =>
    rw [Forest.nodes, List.filterMap_append, ih, Tree.nodes, List.filterMap_cons, hcomment]
    rfl
  | cons htree _ ih =>
    rw [Forest.nodes, Forest.nodes, List.filterMap_append, List.filterMap_append, htree, ih]

end

theorem Interspersed.refl {R : Tree → Tree → Prop} {f : Forest} (hR : ∀ c ∈ f.trees, R c c) :
    Interspersed R f f := by
  induction f using Forest.induction_on_siblings with
  | nil => exact .nil
  | cons field tree rest ih =>
    rw [Forest.trees, List.forall_mem_cons] at hR
    exact .cons hR.1 (ih hR.2)

/-- A tree without errors is itself with no more comments. -/
theorem Commented.refl (whole : List String) {t : Tree} (h : t.hasError = false) :
    Commented whole t t := by
  have hforest {f : Forest} (hf : f.hasError = false) : ∀ c ∈ f.trees, c.hasError = false := by
    induction f using Forest.induction_on_siblings with
    | nil => nofun
    | cons field tree rest ih =>
      rw [Forest.hasError, Bool.or_eq_false_iff] at hf
      rw [Forest.trees, List.forall_mem_cons]
      exact ⟨hf.1, ih hf.2⟩
  induction t using Tree.induction_on_children with
  | step t ih =>
    cases t with
    | leaf l => exact .leaf l l.gap
    | node kind children =>
      exact .node (.refl fun c hc => ih c hc (hforest h c hc)) (fun _ => rfl) fun _ => rfl
    | missing kind named => cases h
    | error children => cases h

/-- Comments anywhere in a node of which no text is kept. -/
theorem Commented.inside {whole : List String} {kind : String} {children children' : Forest}
    (hcall : kind ≠ "method_invocation") (hkind : kind ∉ whole)
    (h : Interspersed (Commented whole) children children') :
    Commented whole (.node kind children) (.node kind children') :=
  .node h (fun hc => absurd hc hcall) fun hk => absurd hk hkind

/-- Comments in the argument of the call in `classOf`. -/
theorem Commented.classOf {whole : List String} (hwhole : whole ⊆ ["string_literal"])
    {sum sum' : Tree} (h : Commented whole sum sum') :
    Commented whole (Java.classOf sum) (Java.classOf sum') := by
  have hkept {t : Tree} (ht : t.hasError = false) : Commented whole t t := .refl whole ht
  have hkind {kind : String} (hne : kind ≠ "string_literal") : kind ∉ whole :=
    fun hmem => hne (List.mem_singleton.1 (hwhole hmem))
  have hinside {kind : String} {children children' : Forest}
      (hne : kind ≠ "method_invocation" ∧ kind ≠ "string_literal")
      (h : Interspersed (Commented whole) children children') :
      Commented whole (.node kind children) (.node kind children') :=
    .inside hne.1 (hkind hne.2) h
  have hdeclarator : Commented whole (declaratorOf sum) (declaratorOf sum') := by
    refine hinside (by decide) (.cons (hkept rfl) (.cons (hkept rfl) (.cons ?_ .nil)))
    refine .node (.cons (hkept rfl) (.cons (hkept rfl) (.cons (hkept rfl) (.cons ?_ .nil))))
      (fun _ => rfl) fun hk => absurd hk (hkind (by decide))
    exact hinside (by decide) (.cons (hkept rfl) (.cons h (.cons (hkept rfl) .nil)))
  refine hinside (by decide) (.cons ?_ .nil)
  refine hinside (by decide) (.cons (hkept rfl) (.cons (hkept rfl) (.cons ?_ .nil)))
  refine hinside (by decide) (.cons (hkept rfl) (.cons ?_ (.cons (hkept rfl) .nil)))
  exact hinside (by decide) (.cons (hkept rfl) (.cons hdeclarator (.cons (hkept rfl) .nil)))

/-! ## Names and operators -/

/-- A single token, which no comment can be inside of. -/
def IsToken (t : Tree) : Prop :=
  ∃ l, t = .leaf l

/-- What the grammar says of a node: what is read of it as a name or as an operator is a single
token. -/
@[mk_iff]
structure NamedByTokens (t : Tree) : Prop where
  identifier : t.kind = "identifier" → IsToken t
  declared : isDeclarator t.kind = true → ∀ name ∈ t.child? "name", IsToken name
  called : t.kind = "method_invocation" → ∀ name ∈ t.child? "name", IsToken name
  operator : t.kind = "binary_expression" → ∀ operator ∈ t.child? "operator", IsToken operator

/-- What the grammar says of names and operators is so all over a tree. -/
def AllNamedByTokens (t : Tree) : Prop :=
  ∀ n ∈ t.nodes, NamedByTokens n

instance (t : Tree) : Decidable (IsToken t) :=
  match t with
  | .leaf l => .isTrue ⟨l, rfl⟩
  | .node _ _ | .missing _ _ | .error _ => .isFalse nofun

instance (t : Tree) : Decidable (NamedByTokens t) :=
  decidable_of_iff _ (namedByTokens_iff t).symm

instance (t : Tree) : Decidable (AllNamedByTokens t) :=
  inferInstanceAs (Decidable (∀ n ∈ t.nodes, NamedByTokens n))

section

variable {t c : Tree}

theorem AllNamedByTokens.self (h : AllNamedByTokens t) : NamedByTokens t := by
  apply h t
  rw [Tree.nodes_eq_cons]
  exact List.mem_cons_self

theorem AllNamedByTokens.child (h : AllNamedByTokens t) (hc : c ∈ t.children.trees) :
    AllNamedByTokens c := by
  have hnodes : ∀ n ∈ c.nodes, n ∈ t.children.nodes := by
    generalize t.children = f at hc
    induction f using Forest.induction_on_siblings with
    | nil => cases hc
    | cons field tree rest ih =>
      intro n hn
      rw [Forest.nodes, List.mem_append]
      rcases List.mem_cons.1 hc with rfl | hc
      · exact .inl hn
      · exact .inr (ih hc n hn)
  intro n hn
  apply h n
  rw [Tree.nodes_eq_cons]
  exact List.mem_cons_of_mem _ (hnodes n hn)

end

/-! ## Forms -/

/-- Two forms of the same sort with the same texts, whose parts are related one by one. -/
inductive Form.Rel (R : Tree → Tree → Prop) : Form → Form → Prop
  | literal {text : String} : Rel R (.literal text) (.literal text)
  | name {name : String} : Rel R (.name name) (.name name)
  | sum {left left' right right' : Tree} (hleft : R left left') (hright : R right right') :
    Rel R (.sum left right) (.sum left' right')
  | call {receiver : Option String} {method : String} {args args' : List Tree}
    (hargs : List.Forall₂ R args args') :
    Rel R (.call receiver method args) (.call receiver method args')
  | other {kind : String} : Rel R (.other kind) (.other kind)

theorem Form.Rel.reduce_eq {R : Tree → Tree → Prop} {f f' : Form} (h : Form.Rel R f f')
    {reduced : Tree → Expr} (hR : ∀ c c', R c c' → reduced c' = reduced c) :
    f'.reduce reduced = f.reduce reduced := by
  cases h with
  | sum hleft hright => rw [reduce, reduce, hR _ _ hleft, hR _ _ hright]
  | call hargs =>
    have hmap {args args' : List Tree} (hargs : List.Forall₂ R args args') :
        args'.map reduced = args.map reduced := by
      induction hargs with
      | nil => rfl
      | cons harg _ ih => rw [List.map_cons, List.map_cons, hR _ _ harg, ih]
    rw [reduce, reduce, hmap hargs]
  | _ => rfl

/-! ## What is kept -/

/-- Names and operators of the first tree are tokens, and the second tree is that one with more
comments. -/
structure Kept (whole : List String) (t t' : Tree) : Prop where
  commented : Commented whole t t'
  tokens : AllNamedByTokens t

namespace Kept

variable {whole : List String} {t t' : Tree}

theorem kind_eq (h : Kept whole t t') : t'.kind = t.kind := by
  obtain ⟨h, -⟩ := h
  cases h <;> rfl

theorem children (h : Kept whole t t') : Interspersed (Kept whole) t.children t'.children := by
  have hmono {f f' : Forest} (hf : Interspersed (Commented whole) f f')
      (htrees : ∀ c ∈ f.trees, AllNamedByTokens c) : Interspersed (Kept whole) f f' :=
    hf.mono fun c hc c' hcc => ⟨hcc, htrees c hc⟩
  obtain ⟨h, htokens⟩ := h
  cases h with
  | leaf l gap => exact .nil
  | node hchildren _ _ => exact hmono hchildren fun c hc => htokens.child hc

/-- What holds of a node and its counterpart whenever it holds of their children, those of comments
left aside, holds of the whole trees. -/
theorem induction_on_children {motive : Tree → Tree → Prop}
    (step : ∀ t t', Kept whole t t' → Interspersed motive t.children t'.children → motive t t')
    (h : Kept whole t t') : motive t t' := by
  induction t using Tree.induction_on_children generalizing t' with
  | step t ih => exact step t t' h (h.children.mono fun c hc c' hcc => ih c hc hcc)

theorem rel_child? (h : Kept whole t t') (field : String) :
    Option.Rel (Kept whole) (t.child? field) (t'.child? field) :=
  h.children.rel_find? field

theorem forall₂_arguments (h : Kept whole t t') :
    List.Forall₂ (Kept whole) t.arguments t'.arguments := by
  refine h.children.forall₂_filter fun c c' hc => ?_
  obtain ⟨hc, -⟩ := hc
  cases hc <;> exact ⟨rfl, rfl⟩

/-! ### Texts -/

theorem text_eq_of_mem (h : Kept whole t t') (hkind : t.kind ∈ whole) : t'.text = t.text := by
  obtain ⟨h, -⟩ := h
  cases h with
  | leaf l gap => rfl
  | node _ _ hwhole => exact hwhole hkind

theorem text_eq_of_isToken (h : Kept whole t t') (ht : IsToken t) : t'.text = t.text := by
  obtain ⟨h, -⟩ := h
  obtain ⟨l, rfl⟩ := ht
  cases h
  rfl

theorem map_receiverText (h : Kept whole t t') (hkind : t.kind = "method_invocation") :
    (t'.child? "object").map receiverText = (t.child? "object").map receiverText := by
  obtain ⟨h, -⟩ := h
  cases h with
  | leaf l gap => rfl
  | node _ hreceiver _ =>
    have htext := congrArg (Option.map fun s => String.ofList (Text.trim Text.isBlank s.toList))
      (hreceiver hkind)
    rw [Option.map_map, Option.map_map] at htext
    exact htext

/-- A token that stands under a field has the text that it had. -/
theorem map_text_child? (h : Kept whole t t') {field : String}
    (htoken : ∀ c ∈ t.child? field, IsToken c) :
    (t'.child? field).map Tree.text = (t.child? field).map Tree.text := by
  have hrel := h.rel_child? field
  generalize t.child? field = o at hrel htoken ⊢
  generalize t'.child? field = o' at hrel ⊢
  cases hrel with
  | none => rfl
  | some hc => exact congrArg some (hc.text_eq_of_isToken (htoken _ rfl))

/-! ### Expressions -/

theorem rel_sum (operator : Option String) (kind : String) {left left' right right' : Option Tree} :
    Option.Rel (Kept whole) left left' → Option.Rel (Kept whole) right right' →
    Form.Rel (Kept whole)
      (match operator, left, right with
        | some "+", some left, some right => .sum left right
        | _, _, _ => .other kind)
      (match operator, left', right' with
        | some "+", some left, some right => .sum left right
        | _, _, _ => .other kind) := by
  intro hleft hright
  by_cases hplus : operator = some "+"
  · subst hplus
    cases hleft with
    | none => exact .other
    | some hleft =>
      cases hright with
      | none => exact .other
      | some hright => exact .sum hleft hright
  · split
    next => exact absurd rfl hplus
    next =>
      split
      next => exact absurd rfl hplus
      next => exact .other

section

variable (hstring : "string_literal" ∈ whole)
include hstring

/-- A node has the form that it had, and the parts of the form are kept as well. -/
theorem rel_form (h : Kept whole t t') : Form.Rel (Kept whole) (form t) (form t') := by
  obtain ⟨identifier, -, called, operator⟩ := h.tokens.self
  rw [form, form, h.kind_eq]
  split
  next hkind =>
    rw [h.text_eq_of_mem (hkind ▸ hstring)]
    cases Literal.contents? t.text with
    | none => exact .other
    | some text => exact .literal
  next hkind =>
    rw [h.text_eq_of_isToken (identifier hkind)]
    exact .name
  next hkind =>
    rw [h.map_text_child? (operator hkind)]
    exact rel_sum _ _ (h.rel_child? "left") (h.rel_child? "right")
  next hkind =>
    rw [h.map_receiverText hkind]
    have htext := h.map_text_child? (called hkind)
    have hargs := h.rel_child? "arguments"
    generalize t.child? "name" = name at htext ⊢
    generalize t'.child? "name" = name' at htext ⊢
    generalize t.child? "arguments" = args at hargs ⊢
    generalize t'.child? "arguments" = args' at hargs ⊢
    cases name with
    | none =>
      rw [Option.map_eq_none_iff.1 htext]
      exact .other
    | some name =>
      obtain ⟨name', rfl, hname⟩ := Option.map_eq_some_iff.1 htext
      simp only [hname]
      cases hargs with
      | none => exact .call .nil
      | some hargs => exact .call hargs.forall₂_arguments
  next => exact .other

/-- Comments in an expression are passed over. -/
theorem lower_eq (depth : ℕ) (h : Kept whole t t') : lower depth t' = lower depth t := by
  induction depth generalizing t t' with
  | zero => rw [lower_zero, lower_zero, h.kind_eq]
  | succ depth ih =>
    rw [lower_succ, lower_succ]
    exact (h.rel_form hstring).reduce_eq fun c c' hc => ih hc

/-! ### Declarations -/

theorem binding?_eq (depth : ℕ) (h : Kept whole t t') : binding? depth t' = binding? depth t := by
  rw [binding?, binding?, h.kind_eq]
  split
  next hkind =>
    have htext := h.map_text_child? (h.tokens.self.declared hkind)
    have hvalue := h.rel_child? "value"
    generalize t.child? "name" = name at htext ⊢
    generalize t'.child? "name" = name' at htext ⊢
    generalize t.child? "value" = value at hvalue ⊢
    generalize t'.child? "value" = value' at hvalue ⊢
    cases name with
    | none => rw [Option.map_eq_none_iff.1 htext]
    | some name =>
      obtain ⟨name', rfl, hname⟩ := Option.map_eq_some_iff.1 htext
      cases hvalue with
      | none => rfl
      | some hvalue => simp only [hname, hvalue.lower_eq hstring depth]
  next => rfl

/-- Comments between declarations are passed over: the node of a comment binds nothing, and each
other node binds what it bound. -/
theorem filterMap_nodes (depth : ℕ) (h : Kept whole t t') :
    t'.nodes.filterMap (binding? depth) = t.nodes.filterMap (binding? depth) := by
  refine h.induction_on_children (motive := fun t t' =>
    t'.nodes.filterMap (binding? depth) = t.nodes.filterMap (binding? depth)) ?_
  intro t t' h hchildren
  rw [t'.nodes_eq_cons, t.nodes_eq_cons, List.filterMap_cons, List.filterMap_cons,
    h.binding?_eq hstring, hchildren.filterMap_nodes]

end

theorem hasError_eq_false (h : Kept whole t t') : t.hasError = false ∧ t'.hasError = false := by
  refine h.induction_on_children (motive := fun t t' => t.hasError = false ∧ t'.hasError = false) ?_
  rintro t t' ⟨h, -⟩ hchildren
  cases h with
  | leaf l gap => exact ⟨rfl, rfl⟩
  | node _ _ _ => exact hchildren.hasError_eq_false

end Kept

end Java

/-! ## Sources with comments -/

/-- Classifying takes no notice of lines. -/
theorem Classifier.classifyAll_congr (k : Classifier) {ds ds' : List Declaration}
    (h : ds'.map (fun d => (d.name, d.init)) = ds.map fun d => (d.name, d.init)) (c : Context) :
    k.classifyAll ds' c = k.classifyAll ds c := by
  have hfold (ds : List Declaration) : k.classifyAll ds c =
      (ds.map fun d => (d.name, d.init)).foldl
        (fun c binding => (k.classify { name := binding.1, init := binding.2 } c).2) c := by
    rw [List.foldl_map]
    rfl
  rw [hfold, hfold, h]

namespace Java

/-- **Comments make no difference.** Take a tree without errors in which names and operators are
tokens, and put comments into it anywhere but inside a receiver or a string literal. For every limit
the same names are declared in the same order with the same initializers, so classifying them leads
to the same context. A source that is parsed to the second tree is harvested like one that is parsed
to the first, which never fails. -/
theorem declarations_commented {t t' : Tree} (htokens : AllNamedByTokens t)
    (h : Commented ["string_literal"] t t') :
    (∀ depth, (declarations depth t').map (fun d => (d.name, d.init)) =
      (declarations depth t).map fun d => (d.name, d.init)) ∧
    (∀ depth (k : Classifier) c,
      k.classifyAll (declarations depth t') c = k.classifyAll (declarations depth t) c) ∧
    ∀ (g : Harvester) source source' path path' c, g.parse source = t → g.parse source' = t' →
      ∃ n after, g.harvestSource source path c = .ok (n, after) ∧
        g.harvestSource source' path' c = .ok (n, after) := by
  have hstring : "string_literal" ∈ ["string_literal"] := List.mem_singleton.2 rfl
  have hkept : Kept ["string_literal"] t t' := ⟨h, htokens⟩
  have hsame (depth : ℕ) : (declarations depth t').map (fun d => (d.name, d.init)) =
      (declarations depth t).map fun d => (d.name, d.init) := by
    rw [map_declarations, map_declarations, hkept.filterMap_nodes hstring]
  refine ⟨hsame, fun depth k c => k.classifyAll_congr (hsame depth) c, ?_⟩
  rintro g source source' path path' c rfl rfl
  obtain ⟨haccepted, haccepted'⟩ := hkept.hasError_eq_false
  have hlength := congrArg List.length (hsame g.maxDepth)
  rw [List.length_map, List.length_map] at hlength
  have hharvest {source path : String} (haccepted : (g.parse source).hasError = false) :
      g.harvestSource source path c =
        .ok ((declarations g.maxDepth (g.parse source)).length,
          g.classifier.classifyAll (declarations g.maxDepth (g.parse source)) c) := by
    rw [Harvester.harvestSource, Harvester.declarationsOf, Harvester.treeOf_of_accepted haccepted]
    rfl
  refine ⟨_, _, hharvest haccepted, ?_⟩
  rw [hharvest haccepted', hlength, g.classifier.classifyAll_congr (hsame g.maxDepth)]

/-- A comment. -/
def commentOf (gap text : String) : Tree :=
  .leaf ⟨"block_comment", true, true, gap, text⟩

/-- Two literals added up, with comments between them and the operator. -/
def commentedSum : Tree :=
  nodeOf "binary_expression"
    [(some "left", backslashLiteral), (none, commentOf " " "/* \" */"),
      (some "operator", mark "" "+"), (none, commentOf " " "/* + */"),
      (some "right", commentLiteral)]

/-- The comments in the sum are passed over, a quote and an operator in them notwithstanding. -/
theorem declarations_commented_sum :
    AllNamedByTokens (classOf (plusOf backslashLiteral commentLiteral)) ∧
    Commented ["string_literal"] (classOf (plusOf backslashLiteral commentLiteral))
      (classOf commentedSum) ∧
    (declarations 3 (classOf commentedSum)).map (fun d => (d.name, d.init)) =
      [("P", .call (some "Pattern") "compile"
        [.concat (.literal "\\\\") (.literal " // \x7b ")])] := by
  have htokens : AllNamedByTokens (classOf (plusOf backslashLiteral commentLiteral)) := by decide
  have hcommented : Commented ["string_literal"]
      (classOf (plusOf backslashLiteral commentLiteral)) (classOf commentedSum) := by
    refine .classOf (List.Subset.refl _) (.inside (by decide) (by decide) ?_)
    exact .cons (.refl _ rfl) (.comment rfl (.cons (.leaf _ "") (.comment rfl
      (.cons (.refl _ rfl) .nil))))
  refine ⟨htokens, hcommented, ?_⟩
  rw [(declarations_commented htokens hcommented).1, map_declarations]
  rfl

/-- A literal with an expression in it, and comments in front of the expression. -/
def templateOf (comments : List Tree) : Tree :=
  literalOf "" [token "string_fragment" "" "a", nodeOf "string_interpolation"
    ((none, mark "" "\\\x7b") :: comments.map (none, ·) ++
      [(none, token "identifier" "" "x"), (none, mark "" "\x7d")])]

/-- The text of a literal is taken as it is written, with a comment that stands inside of it. -/
theorem declarations_commented_template :
    (classOf (templateOf [])).hasError = false ∧ AllNamedByTokens (classOf (templateOf [])) ∧
    Commented [] (classOf (templateOf [])) (classOf (templateOf [commentOf "" "/* c */"])) ∧
    (declarations Expr.defaultDepth (classOf (templateOf [commentOf "" "/* c */"]))).map
        (fun d => (d.name, d.init)) ≠
      (declarations Expr.defaultDepth (classOf (templateOf []))).map fun d => (d.name, d.init) := by
  have hcommented : Commented [] (templateOf []) (templateOf [commentOf "" "/* c */"]) := by
    refine .inside (by decide) (by decide) (.cons (.refl _ rfl) (.cons (.refl _ rfl) (.cons ?_
      (.cons (.refl _ rfl) .nil))))
    exact .inside (by decide) (by decide) (.cons (.refl _ rfl) (.comment rfl
      (.cons (.refl _ rfl) (.cons (.refl _ rfl) .nil))))
  have hwith : (classOf (templateOf [commentOf "" "/* c */"])).nodes.filterMap
      (binding? Expr.defaultDepth) =
        [("P", .call (some "Pattern") "compile" [.literal "a\\\x7b/* c */x\x7d"])] := rfl
  have hwithout : (classOf (templateOf [])).nodes.filterMap (binding? Expr.defaultDepth) =
      [("P", .call (some "Pattern") "compile" [.literal "a\\\x7bx\x7d"])] := rfl
  refine ⟨rfl, by decide, .classOf (List.nil_subset _) hcommented, ?_⟩
  rw [map_declarations, map_declarations, hwith, hwithout]
  simp

end Java

end PatternHarvest
