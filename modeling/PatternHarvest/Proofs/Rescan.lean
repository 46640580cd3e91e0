import PatternHarvest.Proofs.Resolution
import PatternHarvest.Proofs.Runs
import Mathlib.Logic.Function.Iterate

/-!
# Scanning the same files again

A second run over unchanged files need not leave the context of the first: a name that is used
before it is declared is known to the second run, from the first. But the constants of the declared
names depend on the declarations alone, so they are the same after every run, and all that a
declaration can see from the second run on is settled by the first. `Session.rerun_stabilises` says
so for any session, and compares the first two runs of a fresh one.

The argument is about one list of declarations that is classified over and over; that a run is such
a pass, whatever its root and its files, is `Session.exists_context_rerun`.
-/

namespace PatternHarvest

open Files

/-! ## The constants of declared names -/

/-- Going over the same declarations again changes no constant. -/
theorem constantsAfter_constantsAfter (before : String → Option String) (ds : List Declaration) :
    constantsAfter (constantsAfter before ds) ds = constantsAfter before ds := by
  funext name
  unfold constantsAfter
  cases lastOf? name ds <;> rfl

theorem constantsAfter_mono {before before' : String → Option String}
    (hext : Extends before' before) (ds : List Declaration) :
    Extends (constantsAfter before' ds) (constantsAfter before ds) := by
  intro name text h
  unfold constantsAfter at h ⊢
  cases hlast : lastOf? name ds with
  | some d => simpa [hlast] using h
  | none =>
    rw [hlast] at h
    exact hext name text h

namespace Classifier

/-! ## One pass after another -/

/-- A declared name ends alike from contexts with the same constants. -/
theorem entries_classifyAll_congr (k : Classifier) {ds : List Declaration} {name : String}
    (hname : ∃ d ∈ ds, d.name = name) {c c' : Context} (hc : c.constant? = c'.constant?) :
    (k.classifyAll ds c).entries name = (k.classifyAll ds c').entries name := by
  obtain ⟨before, d, after, rfl, rfl, hafter⟩ := exists_last_of_exists hname
  rw [k.entries_classifyAll_last before d hafter, k.entries_classifyAll_last before d hafter,
    constant?_classifyAll, constant?_classifyAll, hc]

theorem constant?_classifyAll_twice (k : Classifier) (ds : List Declaration) (c : Context) :
    (k.classifyAll ds (k.classifyAll ds c)).constant? = (k.classifyAll ds c).constant? := by
  rw [constant?_classifyAll, constant?_classifyAll, constantsAfter_constantsAfter]

/-- The second pass over the same declarations is the last that changes anything. -/
theorem classifyAll_thrice (k : Classifier) (ds : List Declaration) (c : Context) :
    k.classifyAll ds (k.classifyAll ds (k.classifyAll ds c)) =
      k.classifyAll ds (k.classifyAll ds c) := by
  apply Context.ext_entries
  intro name
  by_cases hname : ∃ d ∈ ds, d.name = name
  · exact k.entries_classifyAll_congr hname (k.constant?_classifyAll_twice ds c)
  · have hne : ∀ d ∈ ds, d.name ≠ name := fun d hd h => hname ⟨d, hd, h⟩
    exact k.entries_classifyAll_of_undeclared hne _

/-- With more constants, an initializer amounts to the same, unless it was unresolved and is a
pattern now. -/
theorem entries_find_mono (k : Classifier) {constant? constant'? : String → Option String}
    (hext : Extends constant'? constant?) (init : Expr) :
    (k.find constant'? init).entries = (k.find constant? init).entries ∨
      (k.find constant? init).entries = .onlyUnresolved ∧
        ∃ text, (k.find constant'? init).entries = .onlyPattern text := by
  cases hf : k.find constant? init with
  | constant text =>
    have hinit := (k.find_eq_constant_iff constant? init text).1 hf
    rw [(k.find_eq_constant_iff constant'? init text).2 hinit]
    exact .inl rfl
  | pattern text =>
    obtain ⟨arg, rest, hinit, harg⟩ := (k.find_eq_pattern_iff constant? init text).1 hf
    have hcompiles : k.Compiles constant'? init text :=
      ⟨arg, rest, hinit, Expr.resolve_mono hext harg⟩
    rw [(k.find_eq_pattern_iff constant'? init text).2 hcompiles]
    exact .inl rfl
  | unresolved reason =>
    cases hf' : k.find constant'? init with
    | constant text =>
      have hinit := (k.find_eq_constant_iff constant'? init text).1 hf'
      rw [(k.find_eq_constant_iff constant? init text).2 hinit] at hf
      cases hf
    | pattern text => exact .inr ⟨rfl, text, rfl⟩
    | unresolved reason' => exact .inl rfl

/-- From an empty context, the second pass leaves every name where the first has put it, or turns
it from an unresolved name into a pattern. -/
theorem entries_classifyAll_twice_empty (k : Classifier) (ds : List Declaration) (name : String) :
    (k.classifyAll ds (k.classifyAll ds .empty)).entries name =
        (k.classifyAll ds .empty).entries name ∨
      (k.classifyAll ds .empty).entries name = .onlyUnresolved ∧
        ∃ text, (k.classifyAll ds (k.classifyAll ds .empty)).entries name = .onlyPattern text := by
  by_cases hname : ∃ d ∈ ds, d.name = name
  · obtain ⟨before, d, after, hds, rfl, hafter⟩ := exists_last_of_exists hname
    -- the first pass starts with no constants at all, so the second one sees at least as many
    have hext : Extends (k.classifyAll ds .empty).constant? Context.empty.constant? := by
      intro name text h
      cases h
    have hlast (c : Context) : (k.classifyAll ds c).entries d.name =
        (k.find (constantsAfter c.constant? before) d.init).entries := by
      rw [hds, k.entries_classifyAll_last before d hafter, constant?_classifyAll]
    rw [hlast, hlast]
    exact k.entries_find_mono (constantsAfter_mono hext before) d.init
  · have hne : ∀ d ∈ ds, d.name ≠ name := fun d hd h => hname ⟨d, hd, h⟩
    exact .inl (k.entries_classifyAll_of_undeclared hne _)

end Classifier

/-! ## One run after another -/

namespace Session

/-- What a session is after one more run over a root, whether or not the run failed. -/
def rerun (h : Harvester) (files : FileTree) (root : String) (s : Session) : Session :=
  (s.run h files root).2

/-- Every run over a root of unchanged files is a pass over the same declarations. -/
theorem exists_context_rerun (h : Harvester) (files : FileTree) (root : String) :
    ∃ ds, ∀ s : Session, (s.rerun h files root).context = h.classifier.classifyAll ds s.context := by
  cases hsources : h.sources files root with
  | ok paths =>
    refine ⟨h.declarationsIn files paths, ?_⟩
    intro s
    rw [rerun, run_of_sources_ok hsources]
  | error e =>
    refine ⟨[], ?_⟩
    intro s
    rw [rerun, run_of_sources_error hsources]
    rfl

/-- **Scanning again.** From the second run on, all runs of a session over a root of unchanged
files leave the same context. In a fresh session the constants are settled after the first run, the
second keeps every pattern, and it changes no name except from unresolved to a pattern. -/
theorem rerun_stabilises (h : Harvester) (files : FileTree) (root : String) :
    (∀ (s : Session) (n : Nat), ((rerun h files root)^[n + 2] s).context =
      ((rerun h files root)^[2] s).context) ∧
    (let first : Session := rerun h files root {}
      let second : Session := rerun h files root first
      second.context.constants = first.context.constants ∧
      (∀ name text, first.context.pattern? name = some text →
        second.context.pattern? name = some text) ∧
      (∀ name, second.context.entries name = first.context.entries name ∨
        first.context.entries name = .onlyUnresolved ∧
          ∃ text, second.context.entries name = .onlyPattern text)) := by
  obtain ⟨ds, hds⟩ := exists_context_rerun h files root
  refine ⟨?_, ?_⟩
  · intro s n
    have hpass : Function.Semiconj context (rerun h files root) (h.classifier.classifyAll ds) := hds
    have hcontext (n : Nat) : ((rerun h files root)^[n] s).context =
        (h.classifier.classifyAll ds)^[n] s.context := hpass.iterate_right n s
    rw [hcontext, hcontext, Function.iterate_add_apply]
    exact Function.iterate_fixed (h.classifier.classifyAll_thrice ds s.context) n
  · simp only [hds]
    have hentries := h.classifier.entries_classifyAll_twice_empty ds
    refine ⟨?_, ?_, hentries⟩
    · exact Table.ext_find? fun name =>
        congrFun (h.classifier.constant?_classifyAll_twice ds .empty) name
    · intro name text hfirst
      rcases hentries name with heq | ⟨hfirst', -⟩
      · exact (congrArg Entries.pattern? heq).trans hfirst
      · have hnone := congrArg Entries.pattern? hfirst'
        rw [show ((h.classifier.classifyAll ds .empty).entries name).pattern? = some text
          from hfirst] at hnone
        cases hnone

end Session

end PatternHarvest
