import PatternHarvest.Declaration
import Mathlib.Data.List.Induction

/-!
# Where a declared name ends

Classifying declarations in order takes names out of tables and puts them back elsewhere, and each
call that compiles a pattern reads the constants that all earlier declarations have left.
`classifyAll_entries` says in closed form what comes of it: a name that is not declared keeps what
it had, and a declared name is settled by its last declaration alone, its argument being resolved
against the last declarations before that one (`constantsAfter`).

What is known of a name is one value, its `Entries`: what the three tables hold under it. Every
operation on a context is described by one equation through `Context.entries`, and
`Context.ext_entries` turns such equations into equations between contexts.
-/

namespace PatternHarvest

/-! ## What a context holds under a name -/

/-- What the three tables of a context hold under one name. -/
structure Entries where
  constant? : Option String := none
  pattern? : Option String := none
  unresolved : Bool := false
  deriving DecidableEq, Repr

namespace Entries

/-- A constant, and nothing in the other tables. -/
def onlyConstant (text : String) : Entries := { constant? := some text }

/-- A pattern, and nothing in the other tables. -/
def onlyPattern (text : String) : Entries := { pattern? := some text }

/-- Among the unresolved names, and nothing in the other tables. -/
def onlyUnresolved : Entries := { unresolved := true }

end Entries

namespace Context

/-- What a context holds under a name. -/
def entries (c : Context) (name : String) : Entries :=
  ⟨c.constant? name, c.pattern? name, c.isUnresolved name⟩

/-- Contexts that hold the same under every name are equal. -/
theorem ext_entries {c c' : Context} (h : ∀ name, c.entries name = c'.entries name) : c = c' := by
  obtain ⟨constants, patterns, unresolved⟩ := c
  obtain ⟨constants', patterns', unresolved'⟩ := c'
  have hconstants : constants = constants' :=
    Table.ext_find? fun name => congrArg Entries.constant? (h name)
  have hpatterns : patterns = patterns' :=
    Table.ext_find? fun name => congrArg Entries.pattern? (h name)
  have hunresolved : unresolved = unresolved' := by
    refine Table.ext_find? fun name => ?_
    have hsome : (unresolved.find? name).isSome = (unresolved'.find? name).isSome :=
      congrArg Entries.unresolved (h name)
    cases hl : unresolved.find? name <;> cases hr : unresolved'.find? name <;> simp_all
  rw [hconstants, hpatterns, hunresolved]

theorem entries_recordConstant (c : Context) (name text n : String) :
    (c.recordConstant name text).entries n =
      if n = name then .onlyConstant text else c.entries n := by
  simp only [entries, constant?_recordConstant, pattern?_recordConstant,
    isUnresolved_recordConstant]
  split <;> rfl

theorem entries_recordPattern (c : Context) (name text n : String) :
    (c.recordPattern name text).entries n =
      if n = name then .onlyPattern text else c.entries n := by
  simp only [entries, constant?_recordPattern, pattern?_recordPattern, isUnresolved_recordPattern]
  split <;> rfl

theorem entries_recordUnresolved (c : Context) (name n : String) :
    (c.recordUnresolved name).entries n =
      if n = name then .onlyUnresolved else c.entries n := by
  simp only [entries, constant?_recordUnresolved, pattern?_recordUnresolved,
    isUnresolved_recordUnresolved]
  split <;> rfl

end Context

/-! ## What an initializer amounts to -/

/-- The text of a string literal; no other expression has one. -/
def Expr.literalText? : Expr → Option String
  | .literal text => some text
  | _ => none

theorem CompileCall.accepts_iff (call : CompileCall) (receiver : Option String)
    (method : String) :
    call.accepts receiver method = true ↔ receiver = some call.receiver ∧ method = call.method := by
  simp [accepts, and_comm]

namespace Classifier

/-- An initializer compiles a pattern: it is a call with exactly the receiver and the method that
are looked for, and its first argument resolves to a text. -/
def Compiles (k : Classifier) (constant? : String → Option String) (init : Expr)
    (text : String) : Prop :=
  ∃ arg rest, init = .call (some k.call.receiver) k.call.method (arg :: rest) ∧
    arg.resolve constant? k.maxDepth = .ok text

/-- What a finding leaves under its name. -/
def Finding.entries : Finding → Entries
  | .constant text => .onlyConstant text
  | .pattern text => .onlyPattern text
  | .unresolved _ => .onlyUnresolved

theorem find_eq_constant_iff (k : Classifier) (constant? : String → Option String) (init : Expr)
    (text : String) : k.find constant? init = .constant text ↔ init = .literal text := by
  cases init with
  | literal t => simp [find]
  | name n => simp [find]
  | concat l r => simp [find]
  | other kind => simp [find]
  | call receiver method args =>
    simp only [find, reduceCtorEq, iff_false]
    split
    · split
      · simp
      · split <;> simp
    · simp

theorem find_eq_pattern_iff (k : Classifier) (constant? : String → Option String) (init : Expr)
    (text : String) : k.find constant? init = .pattern text ↔ k.Compiles constant? init text := by
  cases init with
  | literal t => simp [find, Compiles]
  | name n => simp [find, Compiles]
  | concat l r => simp [find, Compiles]
  | other kind => simp [find, Compiles]
  | call receiver method args =>
    simp only [find, Compiles, Expr.call.injEq]
    by_cases h : k.call.accepts receiver method = true
    · obtain ⟨hreceiver, hmethod⟩ := (k.call.accepts_iff receiver method).1 h
      rw [if_pos h]
      cases args with
      | nil => simp
      | cons arg rest =>
        have hfirst : (∃ a r, (receiver = some k.call.receiver ∧ method = k.call.method ∧
            arg :: rest = a :: r) ∧ a.resolve constant? k.maxDepth = .ok text) ↔
            arg.resolve constant? k.maxDepth = .ok text := by
          simp [hreceiver, hmethod]
        rw [hfirst]
        cases hresolve : arg.resolve constant? k.maxDepth <;> simp [hresolve]
    · have hnot : ¬ (receiver = some k.call.receiver ∧ method = k.call.method) :=
        fun hc => h ((k.call.accepts_iff receiver method).2 hc)
      rw [if_neg h]
      simp only [reduceCtorEq, false_iff]
      rintro ⟨arg, rest, ⟨hreceiver, hmethod, -⟩, -⟩
      exact hnot ⟨hreceiver, hmethod⟩

/-- Only a literal is a constant, whatever the constants before it. -/
theorem entries_find_constant? (k : Classifier) (constant? : String → Option String)
    (init : Expr) : (k.find constant? init).entries.constant? = init.literalText? := by
  cases hf : k.find constant? init with
  | constant text =>
    rw [(k.find_eq_constant_iff constant? init text).1 hf]
    rfl
  | pattern text =>
    obtain ⟨arg, rest, rfl, -⟩ := (k.find_eq_pattern_iff constant? init text).1 hf
    rfl
  | unresolved reason =>
    cases init with
    | literal text => simp [find] at hf
    | _ => rfl

/-! ## One declaration -/

theorem entries_record (c : Context) (name : String) (f : Finding) (n : String) :
    (record c name f).entries n = if n = name then f.entries else c.entries n := by
  cases f with
  | constant text => exact c.entries_recordConstant name text n
  | pattern text => exact c.entries_recordPattern name text n
  | unresolved reason => exact c.entries_recordUnresolved name n

/-- Classifying a declaration settles its name and leaves every other name alone. -/
theorem entries_classify (k : Classifier) (d : Declaration) (c : Context) (n : String) :
    (k.classify d c).2.entries n =
      if n = d.name then (k.find c.constant? d.init).entries else c.entries n :=
  entries_record c d.name _ n

theorem constant?_classify (k : Classifier) (d : Declaration) (c : Context) (n : String) :
    (k.classify d c).2.constant? n =
      if n = d.name then d.init.literalText? else c.constant? n := by
  have h := congrArg Entries.constant? (k.entries_classify d c n)
  rw [apply_ite Entries.constant?, entries_find_constant?] at h
  exact h

/-! ## All declarations of a run -/

@[simp] theorem classifyAll_nil (k : Classifier) (c : Context) : k.classifyAll [] c = c := rfl

theorem classifyAll_cons (k : Classifier) (d : Declaration) (ds : List Declaration)
    (c : Context) : k.classifyAll (d :: ds) c = k.classifyAll ds (k.classify d c).2 := rfl

theorem classifyAll_append (k : Classifier) (ds es : List Declaration) (c : Context) :
    k.classifyAll (ds ++ es) c = k.classifyAll es (k.classifyAll ds c) :=
  List.foldl_append

/-- A name that no declaration binds keeps what it had. -/
theorem entries_classifyAll_of_undeclared (k : Classifier) {ds : List Declaration} {name : String}
    (h : ∀ d ∈ ds, d.name ≠ name) (c : Context) :
    (k.classifyAll ds c).entries name = c.entries name := by
  induction ds generalizing c with
  | nil => rfl
  | cons d ds ih =>
    have hd : name ≠ d.name := (h d List.mem_cons_self).symm
    rw [classifyAll_cons, ih (fun e he => h e (List.mem_cons_of_mem _ he)), entries_classify,
      if_neg hd]

/-- The last declaration of a name settles it, with the constants that stand before it. -/
theorem entries_classifyAll_last (k : Classifier) (before : List Declaration) (d : Declaration)
    {after : List Declaration} (hlast : ∀ e ∈ after, e.name ≠ d.name) (c : Context) :
    (k.classifyAll (before ++ d :: after) c).entries d.name =
      (k.find (k.classifyAll before c).constant? d.init).entries := by
  rw [classifyAll_append, classifyAll_cons, entries_classifyAll_of_undeclared k hlast,
    entries_classify, if_pos rfl]

end Classifier

/-! ## The constants before a declaration -/

/-- Among the elements of a list that have a property one is the last. -/
theorem exists_last_of_exists {α : Type} {p : α → Prop} {xs : List α} (h : ∃ x ∈ xs, p x) :
    ∃ before x after, xs = before ++ x :: after ∧ p x ∧ ∀ y ∈ after, ¬ p y := by
  induction xs using List.reverseRecOn with
  | nil => simp at h
  | append_singleton xs x ih =>
    by_cases hx : p x
    · exact ⟨xs, x, [], rfl, hx, by simp⟩
    · have hxs : ∃ y ∈ xs, p y := by
        obtain ⟨y, hy, hpy⟩ := h
        rcases List.mem_append.1 hy with hy | hy
        · exact ⟨y, hy, hpy⟩
        · exact absurd (List.mem_singleton.1 hy ▸ hpy) hx
      obtain ⟨before, y, after, rfl, hpy, hafter⟩ := ih hxs
      refine ⟨before, y, after ++ [x], by simp, hpy, ?_⟩
      intro z hz
      rcases List.mem_append.1 hz with hz | hz
      · exact hafter z hz
      · exact List.mem_singleton.1 hz ▸ hx

/-- The last of some declarations that binds a name. -/
def lastOf? (name : String) (ds : List Declaration) : Option Declaration :=
  (ds.filter fun d => d.name = name).getLast?

/-- The constants after some declarations: a name has the text of its last declaration if that is a
string literal, nothing if it is anything else, and what it had before if there is none. -/
def constantsAfter (before : String → Option String) (ds : List Declaration) (name : String) :
    Option String :=
  match lastOf? name ds with
  | some d => d.init.literalText?
  | none => before name

theorem constantsAfter_concat (before : String → Option String) (ds : List Declaration)
    (d : Declaration) (name : String) :
    constantsAfter before (ds ++ [d]) name =
      if name = d.name then d.init.literalText? else constantsAfter before ds name := by
  by_cases h : d.name = name
  · have hlast : lastOf? name (ds ++ [d]) = some d := by
      simp [lastOf?, List.filter_append, h]
    rw [constantsAfter, hlast, if_pos h.symm]
  · have hlast : lastOf? name (ds ++ [d]) = lastOf? name ds := by
      simp [lastOf?, List.filter_append, h]
    rw [constantsAfter, hlast, if_neg (Ne.symm h), constantsAfter]

/-- A class names the table that holds something, which is the only one that does. -/
def DeclClass.Names (entries : Entries) : DeclClass → Prop
  | constant => ∃ text, entries = .onlyConstant text
  | pattern => ∃ text, entries = .onlyPattern text
  | unresolved _ => entries = .onlyUnresolved

namespace Classifier

theorem Finding.names_declClass (f : Finding) : f.declClass.Names f.entries := by
  cases f with
  | constant text => exact ⟨text, rfl⟩
  | pattern text => exact ⟨text, rfl⟩
  | unresolved reason => rfl

/-- The class of a declaration names the table that has taken its name. -/
theorem names_classify (k : Classifier) (d : Declaration) (c : Context) :
    (k.classify d c).1.Names ((k.classify d c).2.entries d.name) := by
  rw [entries_classify, if_pos rfl]
  exact (k.find c.constant? d.init).names_declClass

/-- The table of constants of a run, read off the declarations themselves. The induction is on the
declarations from the end, since the last one decides. -/
theorem constant?_classifyAll (k : Classifier) (ds : List Declaration) (c : Context) :
    (k.classifyAll ds c).constant? = constantsAfter c.constant? ds := by
  funext name
  induction ds using List.reverseRecOn with
  | nil => rfl
  | append_singleton ds d ih =>
    rw [constantsAfter_concat, ← ih, classifyAll_append, classifyAll_cons, classifyAll_nil,
      constant?_classify]

/-- **Where names end.** After some declarations, a name that none of them binds has kept what it
had. A name that one of them binds is in exactly one table, the one that its last declaration asks
for: a string literal is a constant, a call that compiles a pattern from an argument that resolves
against the constants before it is a pattern, and anything else is unresolved. At every step the
class of a declaration is that of the table which has taken its name. -/
theorem classifyAll_entries (k : Classifier) (c : Context) (ds : List Declaration) :
    (∀ name, (∀ d ∈ ds, d.name ≠ name) → (k.classifyAll ds c).entries name = c.entries name) ∧
    (∀ before d after, ds = before ++ d :: after → (∀ e ∈ after, e.name ≠ d.name) →
      (∀ text, d.init = .literal text →
        (k.classifyAll ds c).entries d.name = .onlyConstant text) ∧
      (∀ text, k.Compiles (constantsAfter c.constant? before) d.init text →
        (k.classifyAll ds c).entries d.name = .onlyPattern text) ∧
      ((∀ text, d.init ≠ .literal text) →
        (∀ text, ¬ k.Compiles (constantsAfter c.constant? before) d.init text) →
        (k.classifyAll ds c).entries d.name = .onlyUnresolved)) ∧
    (∀ before d after, ds = before ++ d :: after →
      (k.classify d (k.classifyAll before c)).1.Names
        ((k.classifyAll (before ++ [d]) c).entries d.name)) := by
  refine ⟨?_, ?_, ?_⟩
  · intro name h
    exact k.entries_classifyAll_of_undeclared h c
  · rintro before d after rfl hlast
    rw [k.entries_classifyAll_last before d hlast, constant?_classifyAll]
    refine ⟨?_, ?_, ?_⟩
    · intro text hinit
      rw [(k.find_eq_constant_iff _ _ text).2 hinit]
      rfl
    · intro text hcompiles
      rw [(k.find_eq_pattern_iff _ _ text).2 hcompiles]
      rfl
    · intro hliteral hcompiles
      cases hf : k.find (constantsAfter c.constant? before) d.init with
      | constant text => exact absurd ((k.find_eq_constant_iff _ _ text).1 hf) (hliteral text)
      | pattern text => exact absurd ((k.find_eq_pattern_iff _ _ text).1 hf) (hcompiles text)
      | unresolved reason => rfl
  · rintro before d after -
    rw [classifyAll_append, classifyAll_cons, classifyAll_nil]
    exact k.names_classify d _

/-- A sum of a name declared before and one known from earlier is a pattern, also when the first
name is bound to something else afterwards. -/
theorem classifyAll_entries_redeclared :
    (({} : Classifier).classifyAll
      [⟨"A", .literal "x", 1⟩,
        ⟨"P", .call (some "Pattern") "compile" [.concat (.name "A") (.name "B")], 2⟩,
        ⟨"A", .other "null_literal", 3⟩]
      (Context.empty.recordConstant "B" "y")).entries "P" = .onlyPattern "xy" := by
  refine ((classifyAll_entries {} (Context.empty.recordConstant "B" "y") _).2.1
    [⟨"A", .literal "x", 1⟩] _ [⟨"A", .other "null_literal", 3⟩] rfl ?_).2.1 "xy" ?_
  · simp
  · exact ⟨_, [], rfl, by decide⟩

end Classifier

end PatternHarvest
