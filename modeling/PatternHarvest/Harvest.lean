import PatternHarvest.Error
import PatternHarvest.Files.Walk
import PatternHarvest.Java.Lowering
import PatternHarvest.Java.Parser
import PatternHarvest.Report
import PatternHarvest.Text.Utf8

/-!
# Harvesting sources

A `Harvester` reads sources and folds their declarations into a context. A source that does not
follow the grammar contributes nothing. A run goes over the files below a root in order and passes
over those that cannot be read or parsed; each of them leaves a diagnostic.
-/

namespace PatternHarvest

open Files

/-- How sources are found and read: the extension of their names, the limit on nesting, which holds
for reducing initializers and for resolving them alike, and the parser, which is that of Java unless
another one takes its place. -/
structure Harvester where
  extension : String := "java"
  maxDepth : Nat := Expr.defaultDepth
  parse : String → Syntax.Tree := Java.parse
  deriving Inhabited

/-- What a run counts. -/
structure Summary where
  scanned : Nat := 0
  failed : Nat := 0
  declarations : Nat := 0
  deriving DecidableEq, Inhabited, Repr

/-- What a run leaves. -/
structure Run where
  context : Context
  summary : Summary := {}
  /-- The files passed over, in order. -/
  diagnostics : List Diagnostic := []
  deriving Inhabited

namespace Harvester

/-- The classifier of a harvester. -/
def classifier (h : Harvester) : Classifier :=
  { maxDepth := h.maxDepth }

/-- The tree of a source, which must not have errors; `path` names the source in errors. -/
def treeOf (h : Harvester) (source path : String) : Except Error Syntax.Tree :=
  let tree := h.parse source
  if tree.hasError then .error (.ofFirstError path tree.firstError?) else .ok tree

theorem treeOf_of_accepted {h : Harvester} {source : String}
    (haccepted : (h.parse source).hasError = false) (path : String) :
    h.treeOf source path = .ok (h.parse source) := by
  rw [treeOf, haccepted]
  rfl

theorem treeOf_of_refused {h : Harvester} {source : String}
    (hrefused : (h.parse source).hasError = true) (path : String) :
    h.treeOf source path = .error (.ofFirstError path (h.parse source).firstError?) := by
  rw [treeOf, hrefused]
  rfl

/-- A source has a tree exactly if it is parsed without errors. -/
theorem treeOf_eq_ok_iff {h : Harvester} {source path : String} {t : Syntax.Tree} :
    h.treeOf source path = .ok t ↔ (h.parse source).hasError = false ∧ h.parse source = t := by
  cases hparse : (h.parse source).hasError with
  | false => rw [treeOf_of_accepted hparse]; simp
  | true => rw [treeOf_of_refused hparse]; simp

/-- The declarations of a source; `path` names it in errors. -/
def declarationsOf (h : Harvester) (source path : String) : Except Error (List Declaration) := do
  let tree ← h.treeOf source path
  return Java.declarations h.maxDepth tree

/-- Fold a source into a context; the count of its declarations comes with the context. -/
def harvestSource (h : Harvester) (source path : String) (c : Context) :
    Except Error (Nat × Context) := do
  let ds ← h.declarationsOf source path
  return (ds.length, h.classifier.classifyAll ds c)

/-- Fold the file at a path into a context. -/
def harvestFile (h : Harvester) (files : FileTree) (path : String) (c : Context) :
    Except Error (Nat × Context) :=
  match files.read path with
  | .error fault => .error (.readFailed path fault)
  | .ok bytes => h.harvestSource (Text.Utf8.text bytes) path c

/-- Go on with one more file of a run. -/
def step (h : Harvester) (files : FileTree) (r : Run) (path : String) : Run :=
  match h.harvestFile files path r.context with
  | .ok (n, context) =>
    { r with
      context
      summary := { r.summary with
        scanned := r.summary.scanned + 1
        declarations := r.summary.declarations + n } }
  | .error e =>
    { r with
      summary := { r.summary with failed := r.summary.failed + 1 }
      diagnostics := r.diagnostics ++ [⟨path, e.message⟩] }

/-- The files below a root that a run reads, in order. -/
def sources (h : Harvester) (files : FileTree) (root : String) : Except Error (List String) :=
  (files.sources h.extension root).mapError fun _ => .directoryNotFound root

/-- Fold the files below a root into a context. Only a root that leads nowhere fails the run. -/
def run (h : Harvester) (files : FileTree) (root : String) (c : Context) : Except Error Run := do
  let paths ← h.sources files root
  return paths.foldl (h.step files) { context := c }

/-- The report on the files below a root. -/
def report (h : Harvester) (files : FileTree) (root : String) : Except Error Report := do
  let r ← h.run files root .empty
  return .ofContext r.context

end Harvester

/-! ## Several runs -/

/-- A harvester at work: what it has learnt, and all diagnostics that it has left. -/
structure Session where
  context : Context := .empty
  log : List Diagnostic := []
  deriving Inhabited

/-- One more run. The context goes on from the runs before; a run that fails leaves nothing. -/
def Session.run (h : Harvester) (files : FileTree) (root : String) (s : Session) :
    Except Error Summary × Session :=
  match h.run files root s.context with
  | .error e => (.error e, s)
  | .ok r => (.ok r.summary, { context := r.context, log := s.log ++ r.diagnostics })

end PatternHarvest
