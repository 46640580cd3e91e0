import PatternHarvest.Proofs.Declarators
import PatternHarvest.Proofs.Sums

/-!
# The limit on nesting

One limit holds for two recursions. Reducing an initializer counts from the initializer itself, and
what lies too deep becomes an expression of no use; resolving counts from the argument of a call,
and refuses what lies too deep. Because the argument stands one level below its call, the reduction
always cuts first: no declaration of a source is ever refused for its depth by the resolver
(`Harvester.depthExceeded_unreachable`), and a sum becomes a pattern exactly if its height is below
the limit, although the resolver alone would take a sum as high as the limit.

Raising the limit therefore changes little (`Harvester.context_mono_maxDepth`): constants stay what
they are as soon as there is a limit to speak of, patterns stay, and some names that were unresolved
become patterns.
-/

namespace PatternHarvest

open Syntax

/-! ## Sums of texts -/

namespace Expr

variable {constant? : String → Option String}

/-- The number of nodes on the longest way from the root of a sum to one of its leaves. -/
def height : Expr → ℕ
  | concat left right => max left.height right.height + 1
  | literal _ | name _ | call _ _ _ | other _ => 1

/-- A sum of texts: its leaves are literals, and names that have a constant. -/
def IsTextSum (constant? : String → Option String) : Expr → Prop
  | literal _ => True
  | name n => (constant? n).isSome
  | concat left right => left.IsTextSum constant? ∧ right.IsTextSum constant?
  | call _ _ _ | other _ => False

theorem height_pos (e : Expr) : 0 < e.height := by
  cases e <;> simp [height]

theorem resolve_other_ne_ok (kind text : String) (depth : ℕ) :
    (other kind).resolve constant? depth ≠ .ok text := by
  cases depth <;> simp [resolve]

/-- A sum has some text exactly if both operands have some. -/
theorem exists_resolve_concat_iff (left right : Expr) (depth : ℕ) :
    (∃ text, (concat left right).resolve constant? (depth + 1) = .ok text) ↔
      (∃ l, left.resolve constant? depth = .ok l) ∧
        ∃ r, right.resolve constant? depth = .ok r := by
  constructor
  · rintro ⟨text, h⟩
    obtain ⟨l, r, hl, hr, -⟩ := (resolve_concat_eq_ok_iff depth left right text).1 h
    exact ⟨⟨l, hl⟩, ⟨r, hr⟩⟩
  · rintro ⟨⟨l, hl⟩, ⟨r, hr⟩⟩
    exact ⟨l ++ r, (resolve_concat_eq_ok_iff depth left right _).2 ⟨l, r, hl, hr, rfl⟩⟩

/-- The resolver takes a sum of texts exactly if it is no higher than the limit. -/
theorem exists_resolve_iff {e : Expr} (h : e.IsTextSum constant?) (depth : ℕ) :
    (∃ text, e.resolve constant? depth = .ok text) ↔ e.height ≤ depth := by
  induction depth generalizing e with
  | zero =>
    have hpos := e.height_pos
    simp [resolve]
    omega
  | succ depth ih =>
    cases e with
    | literal text => simp [resolve, height]
    | name n =>
      obtain ⟨text, htext⟩ := Option.isSome_iff_exists.1 h
      simp [resolve, height, htext]
    | concat left right =>
      rw [exists_resolve_concat_iff, ih h.1, ih h.2, height]
      omega
    | call receiver method args => exact h.elim
    | other kind => exact h.elim

end Expr

namespace Java

variable {constant? : String → Option String}

/-! ## Two limits that need not be the same -/

/-- What resolves under a limit on the reduction and one on resolving resolves to the same text when
either of them is raised. -/
theorem resolve_lower_mono {depth depth' n n' : ℕ} (hdepth : depth ≤ depth') (hn : n ≤ n')
    {t : Tree} {text : String} (h : (lower depth t).resolve constant? n = .ok text) :
    (lower depth' t).resolve constant? n' = .ok text := by
  induction depth generalizing depth' n n' t text with
  | zero => exact absurd h (Expr.resolve_other_ne_ok t.kind text n)
  | succ depth ih =>
    obtain ⟨depth', rfl⟩ : ∃ m, depth' = m + 1 := ⟨depth' - 1, by omega⟩
    cases n with
    | zero => simp [Expr.resolve] at h
    | succ n =>
      obtain ⟨n', rfl⟩ : ∃ m, n' = m + 1 := ⟨n' - 1, by omega⟩
      rw [lower_succ] at h ⊢
      cases hform : form t with
      | literal s => simpa [hform, Form.reduce, Expr.resolve] using h
      | name s => simpa [hform, Form.reduce, Expr.resolve] using h
      | sum left right =>
        rw [hform, Form.reduce, Expr.resolve_concat_eq_ok_iff] at h
        rw [Form.reduce, Expr.resolve_concat_eq_ok_iff]
        obtain ⟨l, r, hl, hr, htext⟩ := h
        exact ⟨l, r, ih (by omega) (by omega) hl, ih (by omega) (by omega) hr, htext⟩
      | call receiver method args => simp [hform, Form.reduce, Expr.resolve] at h
      | other kind => simp [hform, Form.reduce, Expr.resolve] at h

/-- If the reduction cuts at a lower level than the resolver, the resolver never meets its limit. -/
theorem resolve_lower_ne_depthExceeded {depth n : ℕ} (hdepth : depth < n) (t : Tree) :
    (lower depth t).resolve constant? n ≠ .error .depthExceeded := by
  induction depth generalizing n t with
  | zero =>
    obtain ⟨n, rfl⟩ : ∃ m, n = m + 1 := ⟨n - 1, by omega⟩
    simp [lower_zero, Expr.resolve]
  | succ depth ih =>
    obtain ⟨n, rfl⟩ : ∃ m, n = m + 1 := ⟨n - 1, by omega⟩
    rw [lower_succ]
    cases form t with
    | literal s => simp [Form.reduce, Expr.resolve]
    | name s =>
      rw [Form.reduce, Expr.resolve]
      cases constant? s <;> simp
    | sum left right =>
      have hleft := ih (Nat.lt_of_succ_lt_succ hdepth) left
      have hright := ih (Nat.lt_of_succ_lt_succ hdepth) right
      rw [Form.reduce, Expr.resolve]
      cases hl : (lower depth left).resolve constant? n with
      | error reason => simpa [hl] using hleft
      | ok l =>
        cases hr : (lower depth right).resolve constant? n with
        | error reason => simpa [hr] using hright
        | ok r => simp
    | call receiver method args => simp [Form.reduce, Expr.resolve]
    | other kind => simp [Form.reduce, Expr.resolve]

/-! ## Sums as trees -/

/-- The tree of a sum of string literals and names, and the expression that it spells. There is no
limit here: every `+` of the tree is one of the expression. -/
inductive Spells : Tree → Expr → Prop
  | literal {t : Tree} {text : String} : t.kind = "string_literal" →
      Literal.contents? t.text = some text → Spells t (.literal text)
  | name {t : Tree} : t.kind = "identifier" → Spells t (.name t.text)
  | plus {t left operator right : Tree} {l r : Expr} : t.kind = "binary_expression" →
      t.child? "left" = some left → t.child? "operator" = some operator → operator.text = "+" →
      t.child? "right" = some right → Spells left l → Spells right r → Spells t (.concat l r)

theorem form_of_string_literal {t : Tree} (hkind : t.kind = "string_literal") {text : String}
    (htext : Literal.contents? t.text = some text) : form t = .literal text := by
  simp [form, hkind, htext]

theorem form_of_identifier {t : Tree} (hkind : t.kind = "identifier") :
    form t = .name t.text := by
  simp [form, hkind]

theorem form_of_plus {t left operator right : Tree} (hkind : t.kind = "binary_expression")
    (hleft : t.child? "left" = some left) (hoperator : t.child? "operator" = some operator)
    (hplus : operator.text = "+") (hright : t.child? "right" = some right) :
    form t = .sum left right := by
  simp [form, hkind, hleft, hoperator, hplus, hright]

/-- A reduced sum of texts resolves exactly if it fits both limits. The induction is on the limit of
the reduction; where either limit is nothing, both sides are false. -/
theorem Spells.exists_resolve_lower_iff {t : Tree} {e : Expr} (h : Spells t e)
    (hsum : e.IsTextSum constant?) (depth n : ℕ) :
    (∃ text, (lower depth t).resolve constant? n = .ok text) ↔
      e.height ≤ depth ∧ e.height ≤ n := by
  have hpos := e.height_pos
  induction depth generalizing t e n with
  | zero =>
    have hnone : ¬ ∃ text, (lower 0 t).resolve constant? n = .ok text := by
      rintro ⟨text, htext⟩
      exact Expr.resolve_other_ne_ok t.kind text n htext
    exact iff_of_false hnone (by omega)
  | succ depth ih =>
    cases n with
    | zero =>
      have hnone : ¬ ∃ text, (lower (depth + 1) t).resolve constant? 0 = .ok text := by
        simp [Expr.resolve]
      exact iff_of_false hnone (by omega)
    | succ n =>
      rw [lower_succ]
      cases h with
      | literal hkind htext =>
        rw [form_of_string_literal hkind htext]
        simp [Form.reduce, Expr.resolve, Expr.height]
      | name hkind =>
        obtain ⟨text, htext⟩ := Option.isSome_iff_exists.1 hsum
        rw [form_of_identifier hkind]
        simp [Form.reduce, Expr.resolve, Expr.height, htext]
      | @plus _ left operator right l r hkind hleft hoperator hplus hright hl hr =>
        have hleftiff : (∃ text, (lower depth left).resolve constant? n = .ok text) ↔
            l.height ≤ depth ∧ l.height ≤ n := ih hl hsum.1 n l.height_pos
        have hrightiff : (∃ text, (lower depth right).resolve constant? n = .ok text) ↔
            r.height ≤ depth ∧ r.height ≤ n := ih hr hsum.2 n r.height_pos
        rw [form_of_plus hkind hleft hoperator hplus hright, Form.reduce,
          Expr.exists_resolve_concat_iff, hleftiff, hrightiff, Expr.height]
        omega

/-! ## Calls that compile a pattern -/

/-- The tree of a call that compiles a pattern, with its first argument. -/
structure IsCompileCall (call : CompileCall) (t arg : Tree) : Prop where
  kind : t.kind = "method_invocation"
  object : ∃ object, t.child? "object" = some object ∧ receiverText object = call.receiver
  name : ∃ name, t.child? "name" = some name ∧ name.text = call.method
  arguments : ∃ args rest, t.child? "arguments" = some args ∧ args.arguments = arg :: rest

theorem IsCompileCall.exists_form {call : CompileCall} {t arg : Tree}
    (h : IsCompileCall call t arg) :
    ∃ rest, form t = .call (some call.receiver) call.method (arg :: rest) := by
  obtain ⟨object, hobject, hreceiver⟩ := h.object
  obtain ⟨name, hname, hmethod⟩ := h.name
  obtain ⟨args, rest, hargs, harg⟩ := h.arguments
  refine ⟨rest, ?_⟩
  simp [form, h.kind, hobject, hreceiver, hname, hmethod, hargs, harg]

end Java

/-! ## One declaration -/

namespace Classifier

open Java

variable {constant? : String → Option String}

/-- What a classifier finds in the tree of an initializer, its limit holding for the reduction
too. -/
def findIn (k : Classifier) (constant? : String → Option String) (t : Tree) : Finding :=
  k.find constant? (lower k.maxDepth t)

theorem findIn_of_maxDepth_eq_zero {k : Classifier} (hdepth : k.maxDepth = 0)
    (constant? : String → Option String) (t : Tree) :
    k.findIn constant? t = .unresolved .unsupportedExpression := by
  rw [findIn, hdepth, lower_zero, find]

/-- What is found in a node, by its form: the arguments of a call stand one level deeper. -/
theorem findIn_of_maxDepth_eq_succ {k : Classifier} {depth : ℕ} (hdepth : k.maxDepth = depth + 1)
    (constant? : String → Option String) (t : Tree) :
    k.findIn constant? t = k.find constant? ((form t).reduce (lower depth)) := by
  rw [findIn, hdepth, lower_succ]

/-- A call that compiles a pattern amounts to what its first argument resolves to. -/
theorem find_compile (k : Classifier) (constant? : String → Option String) (arg : Expr)
    (rest : List Expr) :
    k.find constant? (.call (some k.call.receiver) k.call.method (arg :: rest)) =
      match arg.resolve constant? k.maxDepth with
      | .ok text => .pattern text
      | .error reason => .unresolved reason := by
  have haccepts : k.call.accepts (some k.call.receiver) k.call.method = true :=
    (k.call.accepts_iff _ _).2 ⟨rfl, rfl⟩
  cases hresolve : arg.resolve constant? k.maxDepth <;>
    simp only [find, if_pos haccepts, hresolve]

/-- A call that compiles a sum of texts amounts to a pattern exactly if the sum is lower than the
limit: the call itself takes one level. -/
theorem exists_findIn_eq_pattern_iff (k : Classifier) {t arg : Tree} {e : Expr}
    (hcall : IsCompileCall k.call t arg) (hspells : Spells arg e)
    (hsum : e.IsTextSum constant?) :
    (∃ text, k.findIn constant? t = .pattern text) ↔ e.height < k.maxDepth := by
  cases hdepth : k.maxDepth with
  | zero => simp [findIn_of_maxDepth_eq_zero hdepth]
  | succ depth =>
    obtain ⟨rest, hform⟩ := hcall.exists_form
    have hiff := hspells.exists_resolve_lower_iff hsum depth k.maxDepth
    rw [findIn_of_maxDepth_eq_succ hdepth, hform, Form.reduce, List.map_cons, find_compile]
    have hpattern : (∃ text, (match (lower depth arg).resolve constant? k.maxDepth with
        | .ok text => Finding.pattern text
        | .error reason => .unresolved reason) = .pattern text) ↔
        ∃ text, (lower depth arg).resolve constant? k.maxDepth = .ok text := by
      cases (lower depth arg).resolve constant? k.maxDepth <;> simp
    rw [hpattern, hiff, hdepth]
    omega

/-- No initializer is refused for its depth, the reduction having cut it before. -/
theorem findIn_ne_depthExceeded (k : Classifier) (t : Tree) :
    k.findIn constant? t ≠ .unresolved .depthExceeded := by
  cases hdepth : k.maxDepth with
  | zero => simp [findIn_of_maxDepth_eq_zero hdepth]
  | succ depth =>
    rw [findIn_of_maxDepth_eq_succ hdepth]
    cases form t with
    | literal text => simp [Form.reduce, find]
    | name n => simp [Form.reduce, find]
    | sum left right => simp [Form.reduce, find]
    | other kind => simp [Form.reduce, find]
    | call receiver method args =>
      cases args with
      | nil =>
        rw [Form.reduce, List.map_nil, find]
        split <;> simp
      | cons arg rest =>
        have harg : (lower depth arg).resolve constant? k.maxDepth ≠ .error .depthExceeded :=
          resolve_lower_ne_depthExceeded (by omega) arg
        rw [Form.reduce, List.map_cons, find]
        split
        · cases hresolve : (lower depth arg).resolve constant? k.maxDepth with
          | ok text => simp
          | error reason => simpa [hresolve] using harg
        · simp

theorem Finding.declClass_eq_pattern_iff (f : Finding) :
    f.declClass = .pattern ↔ ∃ text, f = .pattern text := by
  cases f <;> simp [Finding.declClass]

theorem Finding.declClass_eq_unresolved_iff (f : Finding) (reason : Reason) :
    f.declClass = .unresolved reason ↔ f = .unresolved reason := by
  cases f <;> simp [Finding.declClass]

/-- With a higher limit the same is found in an initializer, unless the lower one has left it
unresolved. Then it may have become a pattern; a limit of nothing may have hidden anything. -/
theorem entries_findIn_mono {k k' : Classifier} (hcall : k'.call = k.call)
    (hdepth : k.maxDepth ≤ k'.maxDepth) (t : Tree) :
    (k'.findIn constant? t).entries = (k.findIn constant? t).entries ∨
      (k.findIn constant? t).entries = .onlyUnresolved ∧
        (k.maxDepth = 0 ∨ ∃ text, (k'.findIn constant? t).entries = .onlyPattern text) := by
  cases hk : k.maxDepth with
  | zero =>
    rw [findIn_of_maxDepth_eq_zero hk]
    exact .inr ⟨rfl, .inl rfl⟩
  | succ depth =>
    obtain ⟨depth', hk'⟩ : ∃ m, k'.maxDepth = m + 1 := ⟨k'.maxDepth - 1, by omega⟩
    rw [findIn_of_maxDepth_eq_succ hk, findIn_of_maxDepth_eq_succ hk']
    cases form t with
    | literal text => exact .inl rfl
    | name n => exact .inl rfl
    | sum left right => exact .inl rfl
    | other kind => exact .inl rfl
    | call receiver method args =>
      by_cases haccepts : k.call.accepts receiver method = true
      · cases args with
        | nil => exact .inl (by simp [Form.reduce, find, hcall, haccepts])
        | cons arg rest =>
          obtain ⟨rfl, rfl⟩ := (k.call.accepts_iff receiver method).1 haccepts
          have hhigh := k'.find_compile constant? (lower depth' arg) (rest.map (lower depth'))
          rw [hcall] at hhigh
          rw [Form.reduce, Form.reduce, List.map_cons, List.map_cons, find_compile, hhigh]
          cases hlow : (lower depth arg).resolve constant? k.maxDepth with
          | ok text =>
            have hresolve : (lower depth' arg).resolve constant? k'.maxDepth = .ok text :=
              resolve_lower_mono (by omega) hdepth hlow
            rw [hresolve]
            exact .inl rfl
          | error reason =>
            cases (lower depth' arg).resolve constant? k'.maxDepth with
            | ok text => exact .inr ⟨rfl, .inr ⟨text, rfl⟩⟩
            | error reason' => exact .inl rfl
      · cases args <;> exact .inl (by simp [Form.reduce, find, hcall, haccepts])

/-! ## A run -/

/-- What declarators leave when they are classified in order, the limit of the classifier holding
for the reduction too. -/
def classifyDeclarators (k : Classifier) (ds : List Declarator) (c : Context) : Context :=
  k.classifyAll (ds.map (Declarator.declaration k.maxDepth)) c

/-- Whether an initializer is a literal does not depend on the limit, as long as there is one. -/
theorem literalText?_lower_succ (depth depth' : ℕ) (t : Tree) :
    (lower (depth + 1) t).literalText? = (lower (depth' + 1) t).literalText? := by
  rw [lower_succ, lower_succ]
  cases form t <;> rfl

theorem constantsAfter_declarations (before : String → Option String) (depth depth' : ℕ)
    (ds : List Declarator) :
    constantsAfter before (ds.map (Declarator.declaration (depth + 1))) =
      constantsAfter before (ds.map (Declarator.declaration (depth' + 1))) := by
  funext name
  induction ds using List.reverseRecOn with
  | nil => rfl
  | append_singleton ds d ih =>
    rw [List.map_append, List.map_append, List.map_singleton, List.map_singleton,
      constantsAfter_concat, constantsAfter_concat]
    exact if_congr Iff.rfl (literalText?_lower_succ depth depth' d.value) ih

/-- Limits above zero lead to the same constants. -/
theorem constant?_classifyDeclarators {k k' : Classifier} (hk : 0 < k.maxDepth)
    (hk' : 0 < k'.maxDepth) (ds : List Declarator) (c : Context) :
    (k'.classifyDeclarators ds c).constant? = (k.classifyDeclarators ds c).constant? := by
  obtain ⟨depth, hdepth⟩ : ∃ m, k.maxDepth = m + 1 := ⟨k.maxDepth - 1, by omega⟩
  obtain ⟨depth', hdepth'⟩ : ∃ m, k'.maxDepth = m + 1 := ⟨k'.maxDepth - 1, by omega⟩
  rw [classifyDeclarators, classifyDeclarators, constant?_classifyAll, constant?_classifyAll,
    hdepth, hdepth', constantsAfter_declarations]

theorem entries_classifyDeclarators_last (k : Classifier) (before : List Declarator)
    (d : Declarator) {after : List Declarator} (hlast : ∀ e ∈ after, e.name ≠ d.name)
    (c : Context) :
    (k.classifyDeclarators (before ++ d :: after) c).entries d.name =
      (k.findIn (k.classifyDeclarators before c).constant? d.value).entries := by
  rw [classifyDeclarators, List.map_append, List.map_cons]
  refine k.entries_classifyAll_last _ (d.declaration k.maxDepth) ?_ c
  intro declaration hdeclaration
  obtain ⟨e, he, rfl⟩ := List.mem_map.1 hdeclaration
  exact hlast e he

theorem entries_classifyDeclarators_of_undeclared (k : Classifier) {ds : List Declarator}
    {name : String} (h : ∀ d ∈ ds, d.name ≠ name) (c : Context) :
    (k.classifyDeclarators ds c).entries name = c.entries name := by
  refine k.entries_classifyAll_of_undeclared ?_ c
  intro declaration hdeclaration
  obtain ⟨d, hd, rfl⟩ := List.mem_map.1 hdeclaration
  exact h d hd

/-- With a higher limit every name ends where it ended with the lower one, unless it ended
unresolved there. The lower limit leaves the same constants to every initializer on the way, and so
the names that are settled by one initializer differ by that initializer alone. -/
theorem entries_classifyDeclarators_mono {k k' : Classifier} (hcall : k'.call = k.call)
    (hdepth : k.maxDepth ≤ k'.maxDepth) (ds : List Declarator) (c : Context) (name : String) :
    (k'.classifyDeclarators ds c).entries name = (k.classifyDeclarators ds c).entries name ∨
      (k.classifyDeclarators ds c).entries name = .onlyUnresolved ∧
        (k.maxDepth = 0 ∨
          ∃ text, (k'.classifyDeclarators ds c).entries name = .onlyPattern text) := by
  by_cases hname : ∃ d ∈ ds, d.name = name
  · obtain ⟨before, d, after, rfl, rfl, hafter⟩ := exists_last_of_exists hname
    rw [k.entries_classifyDeclarators_last before d hafter,
      k'.entries_classifyDeclarators_last before d hafter]
    by_cases hzero : k.maxDepth = 0
    · rw [findIn_of_maxDepth_eq_zero hzero]
      exact .inr ⟨rfl, .inl hzero⟩
    · rw [constant?_classifyDeclarators (k := k) (by omega) (by omega)]
      exact entries_findIn_mono hcall hdepth d.value
  · have hne : ∀ d ∈ ds, d.name ≠ name := fun d hd h => hname ⟨d, hd, h⟩
    rw [k.entries_classifyDeclarators_of_undeclared hne,
      k'.entries_classifyDeclarators_of_undeclared hne]
    exact .inl rfl

end Classifier

/-! ## A sum of three literals -/

namespace Java

/-- The expression that the sum of three literals spells. -/
def exprOfThree : Expr :=
  .concat (.concat (.literal "\\\\") (.literal "")) (.literal " // \x7b ")

theorem spells_sumOfThree : Spells sumOfThree exprOfThree := by
  have hone : Spells backslashLiteral (.literal "\\\\") := .literal rfl rfl
  have htwo : Spells (literalOf " " []) (.literal "") := .literal rfl rfl
  have hthree : Spells commentLiteral (.literal " // \x7b ") := .literal rfl rfl
  exact .plus rfl rfl rfl rfl rfl (.plus rfl rfl rfl rfl rfl hone htwo) hthree

/-- A harvester with a limit that finds the class with the sum of three literals in every source. -/
def threeUnder (limit : ℕ) : Harvester :=
  { maxDepth := limit, parse := fun _ => classOf sumOfThree }

theorem isCompileCall_classOf_sumOfThree :
    ∃ d ∈ declarators (classOf sumOfThree), d.name = "P" ∧
      IsCompileCall .standard d.value sumOfThree := by
  refine ⟨_, List.mem_singleton.2 rfl, rfl, ?_⟩
  exact ⟨rfl, ⟨_, rfl, rfl⟩, ⟨_, rfl, rfl⟩, ⟨_, _, rfl, rfl⟩⟩

end Java

/-! ## Declarations of a source -/

namespace Harvester

open Java

theorem declarationsOf_eq_ok {h : Harvester} {source path : String} {ds : List Declaration}
    (hds : h.declarationsOf source path = .ok ds) :
    ds = (declarators (h.parse source)).map (Declarator.declaration h.maxDepth) := by
  rw [declarationsOf] at hds
  cases htree : h.treeOf source path with
  | error e =>
    rw [htree] at hds
    cases hds
  | ok t =>
    obtain ⟨-, rfl⟩ := treeOf_eq_ok_iff.1 htree
    rw [htree] at hds
    cases hds
    exact declarations_eq_map h.maxDepth (h.parse source)

/-- **The reduction meets the limit first.** Whatever limit a harvester has, no declaration of a
source that it accepts is ever classified as too deep. A declarator that is given a call that
compiles a sum of string literals and names with constants becomes a pattern exactly if the height
of the sum is below the limit, whereas the resolver alone takes the sum up to the limit itself. -/
theorem depthExceeded_unreachable (h : Harvester) {source path : String} {ds : List Declaration}
    (hds : h.declarationsOf source path = .ok ds) (c : Context) :
    (∀ d ∈ ds, (h.classifier.classify d c).1 ≠ .unresolved .depthExceeded) ∧
    (∀ d ∈ declarators (h.parse source), ∀ arg e,
      IsCompileCall h.classifier.call d.value arg → Spells arg e → e.IsTextSum c.constant? →
      d.declaration h.maxDepth ∈ ds ∧
      ((h.classifier.classify (d.declaration h.maxDepth) c).1 = .pattern ↔
        e.height < h.maxDepth) ∧
      ((∃ text, e.resolve c.constant? h.maxDepth = .ok text) ↔ e.height ≤ h.maxDepth)) := by
  cases declarationsOf_eq_ok hds
  refine ⟨?_, ?_⟩
  · intro declaration hdeclaration hclass
    obtain ⟨d, -, rfl⟩ := List.mem_map.1 hdeclaration
    have hfound := (Classifier.Finding.declClass_eq_unresolved_iff _ _).1 hclass
    exact h.classifier.findIn_ne_depthExceeded d.value hfound
  · intro d hd arg e hcall hspells hsum
    refine ⟨List.mem_map_of_mem hd, ?_, Expr.exists_resolve_iff hsum h.maxDepth⟩
    have hpattern := h.classifier.exists_findIn_eq_pattern_iff hcall hspells hsum
    exact (Classifier.Finding.declClass_eq_pattern_iff _).trans hpattern

/-- A sum of three literals is too high for the limit three, although the resolver would take it. -/
theorem depthExceeded_unreachable_three :
    ∃ ds, ∃ d : Declarator, (threeUnder 3).declarationsOf "" "T.java" = .ok ds ∧ d.declaration 3 ∈ ds ∧
      (∀ e ∈ ds, ((threeUnder 3).classifier.classify e .empty).1 ≠ .unresolved .depthExceeded) ∧
      ((threeUnder 3).classifier.classify (d.declaration 3) .empty).1 ≠ .pattern ∧
      ∃ text, exprOfThree.resolve Context.empty.constant? 3 = .ok text := by
  obtain ⟨d, hd, -, hcall⟩ := isCompileCall_classOf_sumOfThree
  have hds : (threeUnder 3).declarationsOf "" "T.java" =
      .ok (declarations 3 (classOf sumOfThree)) := by rfl
  have hsum : exprOfThree.IsTextSum Context.empty.constant? := ⟨⟨trivial, trivial⟩, trivial⟩
  obtain ⟨hreason, hpatterns⟩ := (threeUnder 3).depthExceeded_unreachable hds .empty
  obtain ⟨hmem, hpattern, hresolver⟩ :=
    hpatterns d hd sumOfThree exprOfThree hcall spells_sumOfThree hsum
  refine ⟨_, d, hds, hmem, hreason, ?_, hresolver.2 (by decide)⟩
  intro hclass
  exact absurd (hpattern.1 hclass) (by decide)

/-! ## Two runs over the same files -/

/-- Harvesters that differ in their limit alone classify the same declarators. -/
theorem context_foldl_step (h : Harvester) (m : ℕ) (files : Files.FileTree) (paths : List String)
    (c : Context) :
    (paths.foldl ({ h with maxDepth := m }.step files) { context := c }).context =
      ({ maxDepth := m } : Classifier).classifyDeclarators (h.declaratorsIn files paths) c := by
  rw [foldl_step, declarationsIn_eq_map]
  rfl

/-- **Raising the limit.** Two harvesters that differ in their limit go over the same files, from
the same context. Every pattern that the lower limit finds is found by the higher one, with the same
text, and every name that the higher limit leaves unresolved is left unresolved by the lower one. If
the lower limit is not zero, both find the same constants. -/
theorem context_mono_maxDepth (h : Harvester) {m m' : ℕ} (hm : m ≤ m') (files : Files.FileTree)
    (paths : List String) (c : Context) :
    let low := (paths.foldl ({ h with maxDepth := m }.step files) { context := c }).context
    let high := (paths.foldl ({ h with maxDepth := m' }.step files) { context := c }).context
    (∀ name text, low.pattern? name = some text → high.pattern? name = some text) ∧
    (∀ name, high.isUnresolved name = true → low.isUnresolved name = true) ∧
    (1 ≤ m → low.constants = high.constants) := by
  intro low high
  have hentries (name : String) : high.entries name = low.entries name ∨
      low.entries name = .onlyUnresolved ∧
        (m = 0 ∨ ∃ text, high.entries name = .onlyPattern text) := by
    have hlow : low = _ := h.context_foldl_step m files paths c
    have hhigh : high = _ := h.context_foldl_step m' files paths c
    rw [hlow, hhigh]
    refine Classifier.entries_classifyDeclarators_mono ?_ hm _ c name
    rfl
  refine ⟨?_, ?_, ?_⟩
  · intro name text hpattern
    rcases hentries name with heq | ⟨hlow, -⟩
    · exact (congrArg Entries.pattern? heq).trans hpattern
    · cases (congrArg Entries.pattern? hlow).symm.trans hpattern
  · intro name hunresolved
    rcases hentries name with heq | ⟨hlow, -⟩
    · exact (congrArg Entries.unresolved heq).symm.trans hunresolved
    · exact congrArg Entries.unresolved hlow
  · intro hpos
    refine Table.ext_find? fun name => ?_
    rcases hentries name with heq | ⟨hlow, hzero | ⟨text, hhigh⟩⟩
    · exact (congrArg Entries.constant? heq).symm
    · omega
    · exact (congrArg Entries.constant? hlow).trans (congrArg Entries.constant? hhigh).symm

/-- The sum of three literals is left unresolved under the limit three and found under four. -/
theorem context_mono_maxDepth_three :
    let low := (["src/B.java"].foldl ((threeUnder 3).step braceAndClass)
      { context := .empty }).context
    let high := (["src/B.java"].foldl ((threeUnder 4).step braceAndClass)
      { context := .empty }).context
    low.isUnresolved "P" = true ∧ high.pattern? "P" = some "\\\\ // \x7b " ∧
      (∀ name, high.isUnresolved name = true → low.isUnresolved name = true) ∧
      low.constants = high.constants := by
  intro low high
  have hlow : low = _ := (threeUnder 0).context_foldl_step 3 braceAndClass ["src/B.java"] .empty
  have hhigh : high = _ := (threeUnder 0).context_foldl_step 4 braceAndClass ["src/B.java"] .empty
  obtain ⟨-, hunresolved, hconstants⟩ :=
    (threeUnder 0).context_mono_maxDepth (show 3 ≤ 4 by decide) braceAndClass ["src/B.java"] .empty
  refine ⟨?_, ?_, hunresolved, hconstants (by decide)⟩
  · rw [hlow]
    rfl
  · rw [hhigh]
    rfl

end Harvester

end PatternHarvest
