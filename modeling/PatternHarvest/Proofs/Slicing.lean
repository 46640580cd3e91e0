import PatternHarvest.Proofs.Dependence

/-!
# What a name owes to other declarations

Of all the declarations of a run, in whatever files they stand, only few have a say in what becomes
of a name: its last declaration and, if that compiles a pattern, the last declaration before it of
each name that it looks up (`Classifier.slice`). Classified alone, from the same context, these few
leave the name as the whole run does, and so does every report (`Classifier.classifyAll_slice`).

A declaration that is dropped may have written a name that is looked up, but then another one has
written it later; so the constants of the names that are looked up are the same in front of the last
declaration, whether or not the others were there (`constantsAfter_lastOfEach`).
-/

namespace PatternHarvest

/-! ## The last declarations of some names -/

/-- The last declaration of each of some names, in the order in which they stand. -/
def lastOfEach (names : List String) : List Declaration → List Declaration
  | [] => []
  | d :: ds =>
    if d.name ∈ names ∧ ∀ e ∈ ds, e.name ≠ d.name then d :: lastOfEach names ds
    else lastOfEach names ds

theorem lastOf?_cons (name : String) (d : Declaration) (ds : List Declaration) :
    lastOf? name (d :: ds) = (lastOf? name ds).or (if d.name = name then some d else none) := by
  by_cases h : d.name = name
  · simp only [lastOf?, List.filter_cons, h, decide_true, if_true, List.getLast?_cons]
    cases (ds.filter fun e => e.name = name).getLast? <;> rfl
  · simp [lastOf?, h]

theorem exists_lastOf?_eq_some {name : String} {ds : List Declaration}
    (h : ∃ d ∈ ds, d.name = name) : ∃ d, lastOf? name ds = some d := by
  obtain ⟨before, d, after, rfl, hname, hafter⟩ := exists_last_of_exists h
  have hnone : after.filter (fun e => e.name = name) = [] := by
    simpa [List.filter_eq_nil_iff] using hafter
  exact ⟨d, by simp [lastOf?, List.filter_append, hname, hnone]⟩

theorem lastOf?_lastOfEach {names : List String} {name : String} (hname : name ∈ names)
    (ds : List Declaration) : lastOf? name (lastOfEach names ds) = lastOf? name ds := by
  induction ds with
  | nil => rfl
  | cons d ds ih =>
    rw [lastOfEach]
    split
    next => rw [lastOf?_cons, lastOf?_cons, ih]
    next hdropped =>
      rw [lastOf?_cons, ih]
      by_cases hd : d.name = name
      · -- one of the name that was dropped has another one behind it
        have hlater : ∃ e ∈ ds, e.name = name := by
          subst hd
          by_contra hnone
          exact hdropped ⟨hname, fun e he heq => hnone ⟨e, he, heq⟩⟩
        obtain ⟨e, he⟩ := exists_lastOf?_eq_some hlater
        rw [he]
        rfl
      · rw [if_neg hd, Option.or_none]

/-- The last declarations of some names leave these names the same constants as all of them. -/
theorem constantsAfter_lastOfEach (constant? : String → Option String) {names : List String}
    {name : String} (hname : name ∈ names) (ds : List Declaration) :
    constantsAfter constant? (lastOfEach names ds) name = constantsAfter constant? ds name := by
  rw [constantsAfter, constantsAfter, lastOf?_lastOfEach hname]

namespace Classifier

/-! ## The slice of a name -/

/-- What a declaration depends on, and the declaration itself: of the declarations before it, the
last one of each name that it looks up. -/
def slice (k : Classifier) (before : List Declaration) (d : Declaration) : List Declaration :=
  lastOfEach (k.reads d.init) before ++ [d]

theorem entries_classifyAll_slice (k : Classifier) (c : Context) (before : List Declaration)
    (d : Declaration) {after : List Declaration} (hlast : ∀ e ∈ after, e.name ≠ d.name) :
    (k.classifyAll (k.slice before d) c).entries d.name =
      (k.classifyAll (before ++ d :: after) c).entries d.name := by
  have hfind : k.find (constantsAfter c.constant? (lastOfEach (k.reads d.init) before)) d.init =
      k.find (constantsAfter c.constant? before) d.init :=
    k.find_congr fun _ hread => constantsAfter_lastOfEach c.constant? hread before
  have hnone : ∀ e ∈ ([] : List Declaration), e.name ≠ d.name := by simp
  rw [slice, k.entries_classifyAll_last _ d hnone, k.entries_classifyAll_last before d hlast,
    constant?_classifyAll, constant?_classifyAll, hfind]

end Classifier

/-- What a report shows for a name is settled by what the context holds under it. -/
theorem Report.find?_ofContext_congr {c c' : Context} {name : String}
    (h : c.entries name = c'.entries name) :
    (Report.ofContext c).patterns.find? name = (Report.ofContext c').patterns.find? name := by
  have hpattern : c.pattern? name = c'.pattern? name := congrArg Entries.pattern? h
  simp only [Report.ofContext, Report.ofPatterns, Table.find?_map]
  exact congrArg (Option.map Normal.normalize) hpattern

namespace Classifier

/-- **A name is settled by its slice.** Take any declarations and one of them that is the last of
its name. That one, with the last declarations before it of the names that it looks up, leaves the
name in the same table with the same text as all of them do, from every context. So when files are
read one after the other, what the report shows for the name depends on no other declaration in
any of them. -/
theorem classifyAll_slice (before : List Declaration) (d : Declaration) (after : List Declaration)
    (hlast : ∀ e ∈ after, e.name ≠ d.name) :
    (∀ (k : Classifier) (c : Context),
      (k.classifyAll (k.slice before d) c).entries d.name =
        (k.classifyAll (before ++ d :: after) c).entries d.name) ∧
    (∀ (h : Harvester) (files : Files.FileTree) (paths : List String) (r : Run),
      h.declarationsIn files paths = before ++ d :: after →
      (Report.ofContext (paths.foldl (h.step files) r).context).patterns.find? d.name =
        (Report.ofContext (h.classifier.classifyAll (h.classifier.slice before d)
          r.context)).patterns.find? d.name) := by
  refine ⟨?_, ?_⟩
  · intro k c
    exact k.entries_classifyAll_slice c before d hlast
  · intro h files paths r hdeclarations
    rw [h.foldl_step, hdeclarations]
    exact (Report.find?_ofContext_congr
      (h.classifier.entries_classifyAll_slice r.context before d hlast)).symm

/-- A pattern that is compiled from a constant and from what its own name was before: an older text
of the constant, other names and all that comes later make no difference. -/
theorem classifyAll_slice_selfReference :
    (({} : Classifier).classifyAll
      [⟨"A", .literal "x", 2⟩, ⟨"P", .literal "y", 4⟩,
        ⟨"P", .call (some "Pattern") "compile" [.concat (.name "A") (.name "P")], 5⟩]
      .empty).entries "P" =
    (({} : Classifier).classifyAll
      [⟨"A", .literal "old", 1⟩, ⟨"A", .literal "x", 2⟩, ⟨"B", .name "A", 3⟩,
        ⟨"P", .literal "y", 4⟩,
        ⟨"P", .call (some "Pattern") "compile" [.concat (.name "A") (.name "P")], 5⟩,
        ⟨"A", .other "null_literal", 6⟩]
      .empty).entries "P" := by
  have hlast : ∀ e ∈ [(⟨"A", .other "null_literal", 6⟩ : Declaration)], e.name ≠ "P" := by decide
  exact (classifyAll_slice
    [⟨"A", .literal "old", 1⟩, ⟨"A", .literal "x", 2⟩, ⟨"B", .name "A", 3⟩, ⟨"P", .literal "y", 4⟩]
    ⟨"P", .call (some "Pattern") "compile" [.concat (.name "A") (.name "P")], 5⟩
    [⟨"A", .other "null_literal", 6⟩] hlast).1 {} .empty

end Classifier

end PatternHarvest
