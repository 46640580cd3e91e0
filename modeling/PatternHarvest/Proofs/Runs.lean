import PatternHarvest.Harvest
import PatternHarvest.Proofs.Classification
import PatternHarvest.Proofs.Sums

/-!
# What a run makes of its files

A run goes over a list of files with one accumulator, and every file either adds its declarations
or leaves a diagnostic. `Harvester.foldl_step` gives the accumulator after any list of files: the
context is what comes of classifying all declarations of the files that can be used, one after the
other, and the other components are counts and a filter of the same list. The run of a session
follows (`Session.run_isolates_failures`): a file that fails is passed over whole, and a root that
leads nowhere changes nothing.
-/

namespace PatternHarvest

open Files

namespace Harvester

/-! ## One file -/

/-- The declarations of the file at a path, or the reason why it has none to offer: it cannot be
read, or it does not follow the grammar. -/
def declarationsAt (h : Harvester) (files : FileTree) (path : String) :
    Except Error (List Declaration) :=
  match files.read path with
  | .error fault => .error (.readFailed path fault)
  | .ok bytes => h.declarationsOf (Text.Utf8.text bytes) path

/-- The diagnostic of a file that has no declarations to offer. -/
def diagnosticAt? (h : Harvester) (files : FileTree) (path : String) : Option Diagnostic :=
  match h.declarationsAt files path with
  | .ok _ => none
  | .error e => some ⟨path, e.message⟩

/-- The declarations of those files of a list that can be read and follow the grammar, in order. -/
def declarationsIn (h : Harvester) (files : FileTree) (paths : List String) : List Declaration :=
  (paths.filterMap fun path => (h.declarationsAt files path).toOption).flatten

variable {h : Harvester} {files : FileTree} {path : String}

/-- Folding a file into a context is classifying its declarations. Whether there are any does not
depend on the context. -/
theorem harvestFile_eq (h : Harvester) (files : FileTree) (path : String) (c : Context) :
    h.harvestFile files path c =
      (h.declarationsAt files path).map fun ds => (ds.length, h.classifier.classifyAll ds c) := by
  unfold harvestFile declarationsAt
  cases files.read path with
  | error fault => rfl
  | ok bytes =>
    simp only [harvestSource]
    cases h.declarationsOf (Text.Utf8.text bytes) path <;> rfl

theorem step_of_ok {ds : List Declaration} (hds : h.declarationsAt files path = .ok ds) (r : Run) :
    h.step files r path =
      { context := h.classifier.classifyAll ds r.context
        summary :=
          { scanned := r.summary.scanned + 1
            failed := r.summary.failed
            declarations := r.summary.declarations + ds.length }
        diagnostics := r.diagnostics } := by
  rw [step, harvestFile_eq, hds]
  rfl

theorem step_of_error {e : Error} (he : h.declarationsAt files path = .error e) (r : Run) :
    h.step files r path =
      { context := r.context
        summary :=
          { scanned := r.summary.scanned
            failed := r.summary.failed + 1
            declarations := r.summary.declarations }
        diagnostics := r.diagnostics ++ [⟨path, e.message⟩] } := by
  rw [step, harvestFile_eq, he]
  rfl

/-! ## A list of files -/

theorem declarationsIn_append (h : Harvester) (files : FileTree) (paths paths' : List String) :
    h.declarationsIn files (paths ++ paths') =
      h.declarationsIn files paths ++ h.declarationsIn files paths' := by
  simp [declarationsIn, List.filterMap_append]

theorem declarationsIn_cons_of_ok {ds : List Declaration}
    (hds : h.declarationsAt files path = .ok ds) (paths : List String) :
    h.declarationsIn files (path :: paths) = ds ++ h.declarationsIn files paths := by
  simp [declarationsIn, hds, Except.toOption]

theorem declarationsIn_cons_of_error {e : Error} (he : h.declarationsAt files path = .error e)
    (paths : List String) :
    h.declarationsIn files (path :: paths) = h.declarationsIn files paths := by
  simp [declarationsIn, he, Except.toOption]

/-- What a run is after a list of files, from what it was before. The induction carries the whole
accumulator, since each file adds to all of it. -/
theorem foldl_step (h : Harvester) (files : FileTree) (paths : List String) (r : Run) :
    paths.foldl (h.step files) r =
      { context := h.classifier.classifyAll (h.declarationsIn files paths) r.context
        summary :=
          { scanned := r.summary.scanned +
              (paths.filter fun p => (h.diagnosticAt? files p).isNone).length
            failed := r.summary.failed + (paths.filterMap (h.diagnosticAt? files)).length
            declarations := r.summary.declarations + (h.declarationsIn files paths).length }
        diagnostics := r.diagnostics ++ paths.filterMap (h.diagnosticAt? files) } := by
  induction paths generalizing r with
  | nil => simp [declarationsIn]
  | cons path paths ih =>
    rw [List.foldl_cons, ih]
    cases hds : h.declarationsAt files path with
    | ok ds =>
      have hnone : h.diagnosticAt? files path = none := by rw [diagnosticAt?, hds]
      rw [step_of_ok hds, declarationsIn_cons_of_ok hds]
      simp only [List.filter_cons, List.filterMap_cons, hnone, Option.isNone_none, if_true,
        List.length_cons, List.length_append, Classifier.classifyAll_append]
      congr 2 <;> omega
    | error e =>
      have hsome : h.diagnosticAt? files path = some ⟨path, e.message⟩ := by
        rw [diagnosticAt?, hds]
      rw [step_of_error hds, declarationsIn_cons_of_error hds]
      simp only [List.filter_cons, List.filterMap_cons, hsome, Option.isNone_some,
        Bool.false_eq_true, if_false, List.length_cons, List.append_assoc, List.singleton_append]
      congr 2
      omega

/-- Every file of a list is used or leaves a diagnostic, and none does both. -/
theorem length_used_add_length_diagnostics (h : Harvester) (files : FileTree)
    (paths : List String) :
    (paths.filter fun p => (h.diagnosticAt? files p).isNone).length +
      (paths.filterMap (h.diagnosticAt? files)).length = paths.length := by
  induction paths with
  | nil => rfl
  | cons path paths ih =>
    cases hd : h.diagnosticAt? files path <;> simp [hd] <;> omega

/-- A file that leaves a diagnostic offers no declarations to the files around it. -/
theorem declarationsIn_of_diagnostic (hfail : (h.diagnosticAt? files path).isSome)
    (before after : List String) :
    h.declarationsIn files (before ++ path :: after) =
      h.declarationsIn files (before ++ after) := by
  cases hds : h.declarationsAt files path with
  | ok ds => simp [diagnosticAt?, hds] at hfail
  | error e => rw [declarationsIn_append, declarationsIn_append, declarationsIn_cons_of_error hds]

/-! ## The files below a root -/

theorem sources_of_nodeAt_error {root : String} {fault : Fault}
    (hroot : files.nodeAt root = .error fault) (h : Harvester) :
    h.sources files root = .error (.directoryNotFound root) := by
  unfold sources FileTree.sources
  unfold FileTree.nodeAt at hroot
  cases hplace : files.resolve root with
  | error fault => rfl
  | ok place =>
    rw [hplace] at hroot
    cases hnode : files.node? place with
    | none => simp [bind, Except.bind, hnode, Except.mapError]
    | some node => simp [bind, Except.bind, hnode] at hroot

theorem sources_of_nodeAt_ok {root : String} {node : Node} (hroot : files.nodeAt root = .ok node)
    (h : Harvester) :
    ∃ paths, files.sources h.extension root = .ok paths ∧ h.sources files root = .ok paths := by
  have hpaths : ∃ paths, files.sources h.extension root = .ok paths := by
    unfold FileTree.sources
    unfold FileTree.nodeAt at hroot
    cases hplace : files.resolve root with
    | error fault => simp [bind, Except.bind, hplace] at hroot
    | ok place =>
      rw [hplace] at hroot
      cases hnode : files.node? place with
      | none => simp [bind, Except.bind, hnode] at hroot
      | some node => cases node <;> simp [bind, Except.bind, hnode]
  obtain ⟨paths, hpaths⟩ := hpaths
  exact ⟨paths, hpaths, by rw [sources, hpaths]; rfl⟩

end Harvester

/-! ## Runs of a session -/

namespace Session

variable {h : Harvester} {files : FileTree} {root : String}

theorem run_of_sources_error {e : Error} (he : h.sources files root = .error e) (s : Session) :
    s.run h files root = (.error e, s) := by
  simp [Session.run, Harvester.run, he, bind, Except.bind]

theorem run_of_sources_ok {paths : List String} (hpaths : h.sources files root = .ok paths)
    (s : Session) :
    s.run h files root =
      (.ok
        { scanned := (paths.filter fun p => (h.diagnosticAt? files p).isNone).length
          failed := (paths.filterMap (h.diagnosticAt? files)).length
          declarations := (h.declarationsIn files paths).length },
        { context := h.classifier.classifyAll (h.declarationsIn files paths) s.context
          log := s.log ++ paths.filterMap (h.diagnosticAt? files) }) := by
  simp only [Session.run, Harvester.run, hpaths, bind, Except.bind, pure, Except.pure]
  rw [Harvester.foldl_step]
  simp

/-- **Failures stay with their files.** A run over a root that exists leaves the context that comes
of classifying, from where the session stood, all declarations of the files that can be read and
follow the grammar, in the order of the walk. Each other file leaves one diagnostic, with its path
and what was wrong, and nothing else: without it the context would be the same. The counts add up
to the files, and to the declarations of those that were used. A run over a root that leads nowhere
fails and leaves the session as it was. -/
theorem run_isolates_failures (h : Harvester) (files : FileTree) (root : String) (s : Session) :
    (∀ fault, files.nodeAt root = .error fault →
      s.run h files root = (.error (.directoryNotFound root), s)) ∧
    (∀ node, files.nodeAt root = .ok node → ∃ paths summary s',
      files.sources h.extension root = .ok paths ∧ s.run h files root = (.ok summary, s') ∧
      s'.context = h.classifier.classifyAll (h.declarationsIn files paths) s.context ∧
      s'.log = s.log ++ paths.filterMap (h.diagnosticAt? files) ∧
      summary.scanned + summary.failed = paths.length ∧
      summary.failed = (paths.filterMap (h.diagnosticAt? files)).length ∧
      summary.declarations = (h.declarationsIn files paths).length ∧
      ∀ before path after, paths = before ++ path :: after →
        (h.diagnosticAt? files path).isSome →
        ((before ++ after).foldl (h.step files) { context := s.context }).context =
          s'.context) := by
  refine ⟨?_, ?_⟩
  · intro fault hroot
    exact run_of_sources_error (Harvester.sources_of_nodeAt_error hroot h) s
  · intro node hroot
    obtain ⟨paths, hfiles, hpaths⟩ := Harvester.sources_of_nodeAt_ok hroot h
    refine ⟨paths, _, _, hfiles, run_of_sources_ok hpaths s, rfl, rfl, ?_, rfl, rfl, ?_⟩
    · exact h.length_used_add_length_diagnostics files paths
    · rintro before path after rfl hfail
      rw [Harvester.foldl_step, Harvester.declarationsIn_of_diagnostic hfail]

end Session

/-! ## A run that passes over a file -/

/-- A directory with a source that is a lone closing brace and one that is a class. -/
def braceAndClass : FileTree where
  nodes :=
    [(["src"], .directory), (["A.java", "src"], .file [0x7d]),
      (["B.java", "src"], .file (Text.Utf8.bytes (Java.classOf Java.sumOfThree).text))]

/-- A harvester that finds the class in its text and the grammar in no other. -/
def classOnly : Harvester where
  parse source :=
    if source = (Java.classOf Java.sumOfThree).text then Java.classOf Java.sumOfThree
    else .error (.cons none (Java.mark "" source) .nil)

theorem sources_braceAndClass :
    braceAndClass.sources "java" "src" = .ok ["src/A.java", "src/B.java"] := by
  have htrails : (FileTree.fileTrails (braceAndClass.entries "src" ["src"])).filter
      (FileTree.trailHasExtension "java") = [["A.java"], ["B.java"]] := rfl
  have hnames : braceAndClass.sourceNames "java" "src" ["src"] = [["A.java"], ["B.java"]] := by
    rw [FileTree.sourceNames, htrails]
    exact List.mergeSort_of_pairwise (by decide)
  have hsources : braceAndClass.sources "java" "src" =
      .ok ((braceAndClass.sourceNames "java" "src" ["src"]).map fun names =>
        names.foldl Path.join "src") := rfl
  rw [hsources, hnames]
  rfl

/-- Of the two files the brace is passed over, and the context is that of the class alone, with its
one pattern. -/
theorem Session.run_isolates_failures_brace :
    ∃ summary s', Session.run classOnly braceAndClass "src" {} = (.ok summary, s') ∧
      summary.failed = 1 ∧ summary.scanned + summary.failed = 2 ∧ summary.declarations = 1 ∧
      s'.log =
        [⟨"src/A.java", "syntax error in src/A.java at line 1, column 1: unexpected input"⟩] ∧
      s'.context.pattern? "P" = some "\\\\ // \x7b " ∧
      (["src/B.java"].foldl (classOnly.step braceAndClass) { context := .empty }).context =
        s'.context := by
  have hfailed : ["src/A.java", "src/B.java"].filterMap (classOnly.diagnosticAt? braceAndClass) =
      [⟨"src/A.java", "syntax error in src/A.java at line 1, column 1: unexpected input"⟩] := by
    rfl
  have hdeclared :
      (classOnly.declarationsIn braceAndClass ["src/A.java", "src/B.java"]).length = 1 := by
    decide +kernel
  have hpattern : (classOnly.classifier.classifyAll
      (classOnly.declarationsIn braceAndClass ["src/A.java", "src/B.java"]) .empty).pattern? "P" =
        some "\\\\ // \x7b " := by
    decide +kernel
  obtain ⟨paths, summary, s', hpaths, hrun, hcontext, hlog, hcount, hfailures, hdeclarations,
    hisolated⟩ := (Session.run_isolates_failures classOnly braceAndClass "src" {}).2 .directory rfl
  cases sources_braceAndClass.symm.trans hpaths
  rw [hfailed] at hlog hfailures
  rw [hdeclared] at hdeclarations
  refine ⟨summary, s', hrun, hfailures, hcount, hdeclarations, hlog, ?_,
    hisolated [] "src/A.java" ["src/B.java"] rfl rfl⟩
  rw [hcontext]
  exact hpattern

end PatternHarvest
