import PatternHarvest.Harvest
import PatternHarvest.Proofs.Literals
import PatternHarvest.Proofs.Preorder
import PatternHarvest.Proofs.Resolution
import Mathlib.Data.List.Induction

/-!
# A pattern spelled as a sum of literals

A pattern may be spread over any number of string literals that are added up. What is reported is
then the text that the literals stand for, put together and without the spaces around it
(`Harvester.report_of_written_sum`): the doubled backslashes that the literals need are made single
again only at the very end, after the concatenation, and still no pair forms across two literals.

The parser comes in through one assumption on the tree of the source, `DeclaresSum`: it holds no
error, its only declarator is given the call, and the argument is a chain of `+` that groups to the
left, with the literals as its leaves. The rest is followed through every stage: from the tree to an
expression (`lower_of_isSum`), from the expression to a text (`Expr.resolve_sumOf`), and from the
text to its normal form.
-/

namespace PatternHarvest

open Syntax

/-! ## Sums of literals as expressions -/

namespace Expr

/-- String literals added up, grouped to the left. -/
def sumOf : List String → Expr
  | [] => .literal ""
  | s :: rest => rest.foldl (fun e t => .concat e (.literal t)) (.literal s)

theorem sumOf_singleton (s : String) : sumOf [s] = .literal s := rfl

theorem sumOf_concat {ss : List String} (hss : ss ≠ []) (s : String) :
    sumOf (ss ++ [s]) = .concat (sumOf ss) (.literal s) := by
  cases ss with
  | nil => exact absurd rfl hss
  | cons t ss =>
    rw [List.cons_append, sumOf, List.foldl_append]
    rfl

/-- A sum of literals stands for their texts put together, if no more than the limit are added. The
induction is on the literals from the end, where the outermost `+` stands. -/
theorem resolve_sumOf (constant? : String → Option String) {ss : List String} (hss : ss ≠ [])
    {depth : Nat} (hdepth : ss.length ≤ depth) :
    (sumOf ss).resolve constant? depth = .ok (String.join ss) := by
  induction ss using List.reverseRecOn generalizing depth with
  | nil => exact absurd rfl hss
  | append_singleton ss s ih =>
    rw [List.length_append, List.length_singleton] at hdepth
    obtain ⟨depth, rfl⟩ : ∃ m, depth = m + 1 := ⟨depth - 1, by omega⟩
    by_cases hnil : ss = []
    · subst hnil
      simp [sumOf_singleton, resolve]
    · have hpos : 0 < ss.length := List.length_pos_iff.2 hnil
      obtain ⟨m, rfl⟩ : ∃ m, depth = m + 1 := ⟨depth - 1, by omega⟩
      rw [sumOf_concat hnil, resolve_concat_eq_ok_iff]
      exact ⟨String.join ss, s, ih hnil (by omega), rfl, by simp [String.join_append]⟩

end Expr

/-! ## Sums of literals as trees -/

namespace Java

/-- A tree of string literals joined by `+`, grouped to the left. The literals are listed as they
stand in the source. -/
inductive IsSum : Tree → List String → Prop
  | literal {t : Tree} : t.kind = "string_literal" → IsSum t [t.text]
  | plus {t left operator right : Tree} {written : List String} :
      t.kind = "binary_expression" → t.child? "left" = some left →
      t.child? "operator" = some operator → operator.text = "+" →
      t.child? "right" = some right → right.kind = "string_literal" →
      IsSum left written → IsSum t (written ++ [right.text])

/-- The tree of a call of a method on a receiver, with one argument. -/
structure IsCall (t : Tree) (receiver method : String) (arg : Tree) : Prop where
  kind : t.kind = "method_invocation"
  object : ∃ object, t.child? "object" = some object ∧ object.text = receiver
  name : ∃ name, t.child? "name" = some name ∧ name.text = method
  arguments : ∃ args, t.child? "arguments" = some args ∧ args.arguments = [arg]

/-- The tree of a source without errors whose only declarator gives a name a call of a method on a
receiver, with a sum of string literals as the only argument. -/
structure DeclaresSum (t : Tree) (name receiver method : String) (written : List String) :
    Prop where
  accepted : t.hasError = false
  declared : ∃ declarator ident call arg,
    t.nodes.filter (fun n => isDeclarator n.kind) = [declarator] ∧
    declarator.child? "name" = some ident ∧ ident.text = name ∧
    declarator.child? "value" = some call ∧ IsCall call receiver method arg ∧ IsSum arg written

theorem IsSum.ne_nil {t : Tree} {written : List String} (h : IsSum t written) : written ≠ [] := by
  cases h <;> simp

/-- A literal is reduced to what its quotes enclose. -/
theorem lower_string_literal {t : Tree} (hkind : t.kind = "string_literal") {text : String}
    (htext : Literal.contents? t.text = some text) (depth : Nat) :
    lower (depth + 1) t = .literal text := by
  simp [lower, hkind, htext]

/-- A sum of literals is reduced to the sum of what their quotes enclose, if no more than the limit
are added. -/
theorem lower_of_isSum {t : Tree} {written : List String} (h : IsSum t written)
    {contents : String → String}
    (hcontents : ∀ w ∈ written, Literal.contents? w = some (contents w)) {depth : Nat}
    (hdepth : written.length ≤ depth) :
    lower depth t = Expr.sumOf (written.map contents) := by
  induction h generalizing depth with
  | @literal t hkind =>
    obtain ⟨depth, rfl⟩ : ∃ m, depth = m + 1 := ⟨depth - 1, by simp at hdepth; omega⟩
    exact lower_string_literal hkind (hcontents t.text (by simp)) depth
  | @plus t left operator right written hkind hleft hop hplus hright hlit hsum ih =>
    rw [List.length_append, List.length_singleton] at hdepth
    have hpos : 0 < written.length := List.length_pos_iff.2 hsum.ne_nil
    obtain ⟨depth, rfl⟩ : ∃ m, depth = m + 2 := ⟨depth - 2, by omega⟩
    have hlower : lower (depth + 2) t =
        .concat (lower (depth + 1) left) (lower (depth + 1) right) := by
      rw [lower]
      simp [hkind, hleft, hop, hplus, hright]
    have hne : written.map contents ≠ [] := by simpa using hsum.ne_nil
    rw [hlower, List.map_append, List.map_singleton, Expr.sumOf_concat hne,
      ih (fun w hw => hcontents w (List.mem_append_left _ hw)) (by omega),
      lower_string_literal hlit (hcontents right.text (by simp)) depth]

theorem lower_of_isCall {t arg : Tree} {receiver method : String}
    (h : IsCall t receiver method arg)
    (hreceiver : Text.trim Text.isBlank receiver.toList = receiver.toList) (depth : Nat) :
    lower (depth + 1) t = .call (some receiver) method [lower depth arg] := by
  obtain ⟨hkind, ⟨object, hobject, rfl⟩, ⟨name, hname, rfl⟩, ⟨args, hargs, harg⟩⟩ := h
  rw [lower]
  simp [hkind, hobject, hname, hargs, harg, receiverText, hreceiver]

/-! ## The declarations of a tree, without their lines -/

/-- The name and the initializer that a node binds, if it is a declarator that has both. -/
def binding? (depth : Nat) (t : Tree) : Option (String × Expr) :=
  if isDeclarator t.kind then
    match t.child? "name", t.child? "value" with
    | some name, some value => some (name.text, lower depth value)
    | _, _ => none
  else none

theorem map_declaration? (depth line : Nat) (t : Tree) :
    (declaration? depth line t).map (fun d => (d.name, d.init)) = binding? depth t := by
  unfold declaration? binding?
  split
  · cases t.child? "name" <;> cases t.child? "value" <;> rfl
  · rfl

/-- What a tree declares, apart from the lines, is what its nodes bind, in their order. -/
theorem map_declarations (depth : Nat) (t : Tree) :
    (declarations depth t).map (fun d => (d.name, d.init)) =
      t.nodes.filterMap (binding? depth) := by
  have hcollect (ts : List Tree) (found : Nat × List Declaration) :
      (ts.foldl (collect depth) found).2.reverse.map (fun d => (d.name, d.init)) =
        found.2.reverse.map (fun d => (d.name, d.init)) ++ ts.filterMap (binding? depth) := by
    induction ts generalizing found with
    | nil => simp
    | cons t ts ih =>
      rw [List.foldl_cons, ih, List.filterMap_cons, ← map_declaration? depth found.1 t, collect]
      cases declaration? depth found.1 t <;> simp
  rw [declarations, hcollect, Tree.walk_eq_nodes]
  rfl

/-- Only declarators bind anything. -/
theorem filterMap_binding? (depth : Nat) (ts : List Tree) :
    ts.filterMap (binding? depth) =
      (ts.filter fun n => isDeclarator n.kind).filterMap (binding? depth) := by
  rw [List.filterMap_filter]
  refine List.filterMap_congr fun t _ => ?_
  unfold binding?
  split <;> rfl

/-- A source whose only declarator is given a call has that one declaration. -/
theorem declarations_of_declaresSum {t : Tree} {name receiver method : String}
    {written : List String} (h : DeclaresSum t name receiver method written)
    (hreceiver : Text.trim Text.isBlank receiver.toList = receiver.toList)
    {contents : String → String}
    (hcontents : ∀ w ∈ written, Literal.contents? w = some (contents w)) {depth : Nat}
    (hdepth : written.length ≤ depth) :
    ∃ line, declarations (depth + 1) t =
      [⟨name, .call (some receiver) method [Expr.sumOf (written.map contents)], line⟩] := by
  obtain ⟨declarator, ident, call, arg, hfilter, hident, rfl, hvalue, hcall, hsum⟩ := h.declared
  have hdeclarator : isDeclarator declarator.kind = true := by
    have hmem : declarator ∈ t.nodes.filter fun n => isDeclarator n.kind := by simp [hfilter]
    simpa using (List.mem_filter.1 hmem).2
  have hbinding : binding? (depth + 1) declarator =
      some (ident.text, .call (some receiver) method [Expr.sumOf (written.map contents)]) := by
    simp only [binding?, hdeclarator, if_true, hident, hvalue]
    rw [lower_of_isCall hcall hreceiver, lower_of_isSum hsum hcontents hdepth]
  have hmap := map_declarations (depth + 1) t
  rw [filterMap_binding?, hfilter] at hmap
  simp only [List.filterMap_cons, hbinding, List.filterMap_nil] at hmap
  obtain ⟨d, hd, heq⟩ := List.map_eq_singleton_iff.1 hmap
  cases d
  cases heq
  exact ⟨_, hd⟩

end Java

/-! ## The report on a sum of literals -/

/-- The source of a class whose only field is a pattern, compiled from literals that are added
up. -/
def patternSource (written : List String) : String :=
  "class T \x7b Pattern P = Pattern.compile(" ++ " + ".intercalate written ++ "); \x7d"

/-- The texts of literals put together are doubled as a whole: no pair of backslashes is cut or made
where two literals meet. -/
theorem toList_join_escape (texts : List String) :
    (String.join (texts.map fun s => String.ofList (Normal.escape s.toList))).toList =
      Normal.escape (String.join texts).toList := by
  rw [String.toList_join, String.toList_join, List.flatMap_map, Normal.escape, List.flatMap_assoc]
  simp [Normal.escape]

theorem normalize_join_escape {texts : List String}
    (hplain : ∀ s ∈ texts, ∀ c ∈ s.toList, ' ' ≤ c) :
    Normal.normalize (String.join (texts.map fun s => String.ofList (Normal.escape s.toList))) =
      String.ofList (Normal.trimSpaces (String.join texts).toList) := by
  rw [Normal.normalize, toList_join_escape, Normal.normalizeChars_escape]
  intro c hc
  rw [String.toList_join] at hc
  obtain ⟨s, hs, hcs⟩ := List.mem_flatMap.1 hc
  exact hplain s hs c hcs

/-- A pattern whose argument resolves is all that an otherwise empty report shows. -/
theorem report_of_pattern {k : Classifier} {name text : String} {arg : Expr} (line : Nat)
    (harg : arg.resolve Context.empty.constant? k.maxDepth = .ok text) :
    Report.ofContext (k.classifyAll
        [⟨name, .call (some k.call.receiver) k.call.method [arg], line⟩] .empty) =
      ⟨Table.empty.insert name (Normal.normalize text)⟩ := by
  have haccepts : k.call.accepts (some k.call.receiver) k.call.method = true := by
    simp [CompileCall.accepts]
  simp only [Classifier.classifyAll, List.foldl_cons, List.foldl_nil, Classifier.classify,
    Classifier.find, haccepts, if_true, harg, Classifier.record]
  rfl

namespace Harvester

/-- **Written sums are read back.** Take any texts, at least one and fewer than the limit on
nesting, with no quote and no character below the space, write each as a string literal with its
backslashes doubled, and let a field be the pattern compiled from their sum. A fresh harvester finds
one declaration in that source, and its report is the field with the texts put together, without
the spaces around them. -/
theorem report_of_written_sum (parse : String → Tree) (path : String) (texts : List String)
    (hpos : 1 ≤ texts.length) (hlimit : texts.length < Expr.defaultDepth)
    (hplain : ∀ s ∈ texts, ∀ c ∈ s.toList, c ≠ '"' ∧ ' ' ≤ c)
    (hparse : Java.DeclaresSum (parse (patternSource (texts.map Java.Literal.written)))
      "P" "Pattern" "compile" (texts.map Java.Literal.written)) :
    ∃ c, ({ parse } : Harvester).harvestSource
        (patternSource (texts.map Java.Literal.written)) path .empty = .ok (1, c) ∧
      Report.ofContext c =
        ⟨Table.empty.insert "P" (String.ofList (Normal.trimSpaces (String.join texts).toList))⟩ := by
  set source := patternSource (texts.map Java.Literal.written) with hsource
  have hquote : ∀ s ∈ texts, '"' ∉ s.toList := by
    intro s hs hmem
    exact (hplain s hs '"' hmem).1 rfl
  let contents (w : String) : String := (Java.Literal.contents? w).getD ""
  have hcontents : ∀ w ∈ texts.map Java.Literal.written,
      Java.Literal.contents? w = some (contents w) := by
    intro w hw
    obtain ⟨s, hs, rfl⟩ := List.mem_map.1 hw
    simp [contents, Java.Literal.contents?_written (hquote s hs)]
  have hmap : (texts.map Java.Literal.written).map contents =
      texts.map fun s => String.ofList (Normal.escape s.toList) := by
    rw [List.map_map]
    apply List.map_congr_left
    intro s hs
    simp [contents, Java.Literal.contents?_written (hquote s hs)]
  have hlength : (texts.map Java.Literal.written).length ≤ 9999 := by
    rw [List.length_map]
    exact Nat.le_of_lt_succ hlimit
  -- the argument stands one level below the call
  obtain ⟨line, hdeclarations⟩ :=
    Java.declarations_of_declaresSum hparse (by decide) hcontents hlength
  rw [hmap] at hdeclarations
  have hds : ({ parse } : Harvester).declarationsOf source path =
      .ok (Java.declarations (9999 + 1) (parse source)) := by
    rw [declarationsOf, treeOf_of_accepted hparse.accepted]
    rfl
  refine ⟨({ parse } : Harvester).classifier.classifyAll
    (Java.declarations (9999 + 1) (parse source)) .empty, ?_, ?_⟩
  · simp only [harvestSource, hds, bind, Except.bind, pure, Except.pure]
    rw [hdeclarations]
    rfl
  · rw [hdeclarations, ← normalize_join_escape fun s hs c hc => (hplain s hs c hc).2]
    have hne : (texts.map fun s => String.ofList (Normal.escape s.toList)) ≠ [] := by
      simpa using List.length_pos_iff.1 hpos
    have hlength' : (texts.map fun s => String.ofList (Normal.escape s.toList)).length ≤
        Expr.defaultDepth := by
      rw [List.length_map]
      exact Nat.le_of_lt hlimit
    exact report_of_pattern line (Expr.resolve_sumOf Context.empty.constant? hne hlength')

end Harvester

/-! ## A source with three literals -/

namespace Java

/-- A token that stands for itself. -/
def mark (gap text : String) : Tree :=
  .leaf ⟨text, false, false, gap, text⟩

/-- A token of a kind. -/
def token (kind gap text : String) : Tree :=
  .leaf ⟨kind, true, false, gap, text⟩

/-- A node of a kind over children, each with its field. -/
def nodeOf (kind : String) (children : List (Option String × Tree)) : Tree :=
  .node kind (children.foldr (fun child rest => .cons child.1 child.2 rest) .nil)

/-- A string literal after a gap, with the tokens between its quotes. -/
def literalOf (gap : String) (contents : List Tree) : Tree :=
  nodeOf "string_literal"
    ((none, mark gap "\"") :: contents.map (none, ·) ++ [(none, mark "" "\"")])

/-- Two trees joined by `+`. -/
def plusOf (left right : Tree) : Tree :=
  nodeOf "binary_expression"
    [(some "left", left), (some "operator", mark " " "+"), (some "right", right)]

/-- A literal of one backslash. -/
def backslashLiteral : Tree :=
  literalOf "" [token "escape_sequence" "" "\\\\"]

/-- A literal whose text looks like the start of a comment and of a block. -/
def commentLiteral : Tree :=
  literalOf " " [token "string_fragment" "" " // \x7b "]

/-- The two literals with an empty one between them. -/
def sumOfThree : Tree :=
  plusOf (plusOf backslashLiteral (literalOf " " [])) commentLiteral

/-- The declarator of the pattern that is compiled from a sum. -/
def declaratorOf (sum : Tree) : Tree :=
  nodeOf "variable_declarator"
    [(some "name", token "identifier" " " "P"), (none, mark " " "="),
      (some "value", nodeOf "method_invocation"
        [(some "object", token "identifier" " " "Pattern"), (none, mark "" "."),
          (some "name", token "identifier" "" "compile"),
          (some "arguments", nodeOf "argument_list"
            [(none, mark "" "("), (none, sum), (none, mark "" ")")])])]

/-- The tree of the class whose only field is that pattern. -/
def classOf (sum : Tree) : Tree :=
  nodeOf "program"
    [(none, nodeOf "class_declaration"
      [(none, mark "" "class"), (some "name", token "identifier" " " "T"),
        (some "body", nodeOf "class_body"
          [(none, mark " " "\x7b"),
            (none, nodeOf "field_declaration"
              [(some "type", token "type_identifier" " " "Pattern"),
                (some "declarator", declaratorOf sum), (none, mark "" ";")]),
            (none, mark " " "\x7d")])])]

theorem isSum_sumOfThree :
    IsSum sumOfThree (["\\", "", " // \x7b "].map Literal.written) := by
  have hone : IsSum backslashLiteral [backslashLiteral.text] := .literal rfl
  have htwo : IsSum (plusOf backslashLiteral (literalOf " " []))
      ([backslashLiteral.text] ++ [(literalOf " " []).text]) :=
    .plus rfl rfl rfl rfl rfl rfl hone
  have hthree : IsSum sumOfThree
      ([backslashLiteral.text] ++ [(literalOf " " []).text] ++ [commentLiteral.text]) :=
    .plus rfl rfl rfl rfl rfl rfl htwo
  exact hthree

theorem declaresSum_classOf_sumOfThree :
    DeclaresSum (classOf sumOfThree) "P" "Pattern" "compile"
      (["\\", "", " // \x7b "].map Literal.written) where
  accepted := rfl
  declared :=
    ⟨declaratorOf sumOfThree, _, _, sumOfThree, rfl, rfl, rfl, rfl,
      ⟨rfl, ⟨_, rfl, rfl⟩, ⟨_, rfl, rfl⟩, ⟨_, rfl, rfl⟩⟩, isSum_sumOfThree⟩

end Java

/-- The backslash, the empty text and the text of a comment come back as one pattern. -/
theorem Harvester.report_of_written_sum_three :
    ∃ c, ({ parse := fun _ => Java.classOf Java.sumOfThree } : Harvester).harvestSource
        "class T \x7b Pattern P = Pattern.compile(\"\\\\\" + \"\" + \" // \x7b \"); \x7d"
        "T.java" .empty = .ok (1, c) ∧
      Report.ofContext c = ⟨Table.empty.insert "P" "\\ // \x7b"⟩ := by
  have hplain : ∀ s ∈ ["\\", "", " // \x7b "], ∀ c ∈ s.toList, c ≠ '"' ∧ ' ' ≤ c := by
    have hall : (["\\", "", " // \x7b "].all fun s =>
        s.toList.all fun c => c != '"' && decide (' ' ≤ c)) = true := rfl
    simpa only [List.all_eq_true, Bool.and_eq_true, bne_iff_ne, decide_eq_true_eq] using hall
  exact report_of_written_sum (fun _ => Java.classOf Java.sumOfThree) "T.java"
    ["\\", "", " // \x7b "] (by decide) (by decide) hplain Java.declaresSum_classOf_sumOfThree

end PatternHarvest
