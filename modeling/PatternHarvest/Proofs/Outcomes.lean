import PatternHarvest.CommandLine.Program
import PatternHarvest.Proofs.LoggingFlags
import PatternHarvest.Proofs.Omission

/-!
# What a command line comes to

Settings come out in one of four ways (`CommandLine.ComesTo`): the root is refused, the document is
printed, the output file cannot be written, or it is. Which of them it is, and what is left, depends
on the files, the root, the output file and the format, and on nothing else: neither on how much is
logged nor on files that cannot be parsed (`CommandLine.run_outcome`).
-/

namespace PatternHarvest.CommandLine

open Files

variable {files : FileTree} {root : String} {a : Arguments}

/-- The document for settings: the report on the sources, with a line break behind it. -/
def documentOf (files : FileTree) (a : Arguments) : Except Error String := do
  let report ← ({} : Harvester).report files a.root
  return report.format a.format a.compact ++ "\n"

/-- Settings that can be carried out: the root is accepted, and the output file can be written. -/
structure Succeeds (files : FileTree) (a : Arguments) : Prop where
  root : rootFault? files a.root = none
  output : ∀ path, a.outputFile = some path → ∃ document files',
    documentOf files a = .ok document ∧
      files.write path (Text.Utf8.bytes document) = .ok files'

/-! ## Roots -/

/-- A root is accepted if it leads to a file, or to a directory that may be listed. -/
theorem rootFault?_eq_none_iff : rootFault? files root = none ↔
    (∃ bytes, files.nodeAt root = .ok (.file bytes)) ∨ files.nodeAt root = .ok .directory := by
  unfold rootFault? rootCauses
  split
  next hnode => simp [hnode]
  next hnode => simp [hnode]
  next hnode => simp [hnode]
  next hnode => simp [hnode]
  next hfile hdirectory _ hnode => simpa [hnode] using And.intro hfile hdirectory

/-- What is said of a directory that may not be listed. -/
example : errorReport "Invalid arguments" (rootCauses { nodes := [(["src"], .closed)] } "src") =
    ["Error: Invalid arguments", "", "Caused by:", "    0: Cannot read directory: src",
      "    1: Permission denied (os error 13)"] := by decide +kernel

theorem exists_nodeAt_of_rootFault? (hroot : rootFault? files root = none) :
    ∃ node, files.nodeAt root = .ok node := by
  obtain ⟨bytes, hnode⟩ | hnode := rootFault?_eq_none_iff.1 hroot
  · exact ⟨_, hnode⟩
  · exact ⟨_, hnode⟩

/-- A run over a root that was accepted does not fail. -/
theorem exists_run (hroot : rootFault? files root = none) (h : Harvester) (c : Context) :
    ∃ r, h.run files root c = .ok r := by
  obtain ⟨node, hnode⟩ := exists_nodeAt_of_rootFault? hroot
  obtain ⟨paths, -, hpaths⟩ := Harvester.sources_of_nodeAt_ok hnode h
  refine ⟨paths.foldl (h.step files) { context := c }, ?_⟩
  rw [Harvester.run, hpaths]
  rfl

theorem exists_documentOf (hroot : rootFault? files a.root = none) :
    ∃ document, documentOf files a = .ok document := by
  obtain ⟨r, hrun⟩ := exists_run hroot {} .empty
  refine ⟨(Report.ofContext r.context).format a.format a.compact ++ "\n", ?_⟩
  simp only [documentOf, Harvester.report, hrun, bind, Except.bind, pure, Except.pure]

theorem bytes_documentOf_ne_nil {document : String} (h : documentOf files a = .ok document) :
    Text.Utf8.bytes document ≠ [] := by
  obtain ⟨s, rfl⟩ : ∃ s, document = s ++ "\n" := by
    obtain ⟨report, -, h⟩ := bind_eq_ok_iff.1 h
    exact ⟨_, (Except.ok.inj h).symm⟩
  simp [Text.Utf8.bytes, Text.Utf8.encode, String.utf8EncodeChar]

/-! ## How settings come out -/

/-- How settings come out: the exit code, what is printed, and the files that are left. -/
inductive ComesTo (files : FileTree) (a : Arguments) : Nat → String → FileTree → Prop
  | refused {fault : String} : rootFault? files a.root = some fault → ComesTo files a 1 "" files
  | printed {document : String} : rootFault? files a.root = none →
      documentOf files a = .ok document → a.outputFile = none → ComesTo files a 0 document files
  | unwritable {document path : String} {fault : Fault} : rootFault? files a.root = none →
      documentOf files a = .ok document → a.outputFile = some path →
      files.write path (Text.Utf8.bytes document) = .error fault → ComesTo files a 1 "" files
  | written {document path : String} {files' : FileTree} : rootFault? files a.root = none →
      documentOf files a = .ok document → a.outputFile = some path →
      files.write path (Text.Utf8.bytes document) = .ok files' →
      ComesTo files a 0 (if files.isStdout path then document else "") files'

theorem comesTo_planFor (files : FileTree) (a : Arguments) :
    ComesTo files a ((planFor files a).carryOut files).code
      ((planFor files a).carryOut files).stdout ((planFor files a).carryOut files).files := by
  unfold planFor
  cases hcauses : rootCauses files a.root with
  | cons cause causes =>
    have hroot : rootFault? files a.root = some cause := by
      rw [rootFault?, hcauses, List.head?_cons]
    exact .refused hroot
  | nil =>
    have hroot : rootFault? files a.root = none := by rw [rootFault?, hcauses, List.head?_nil]
    obtain ⟨r, hrun⟩ := exists_run hroot {} .empty
    have hdocument : documentOf files a =
        .ok ((Report.ofContext r.context).format a.format a.compact ++ "\n") := by
      simp only [documentOf, Harvester.report, hrun, bind, Except.bind, pure, Except.pure]
    simp only [hrun]
    cases houtput : a.outputFile with
    | none => exact .printed hroot hdocument houtput
    | some path =>
      simp only [Plan.carryOut]
      split
      next files' hwrite => exact .written hroot hdocument houtput hwrite
      next fault hwrite => exact .unwritable hroot hdocument houtput hwrite

/-- Settings come out in one way. -/
theorem ComesTo.unique {code code' : Nat} {stdout stdout' : String} {left left' : FileTree}
    (h : ComesTo files a code stdout left) (h' : ComesTo files a code' stdout' left') :
    code = code' ∧ stdout = stdout' ∧ left = left' := by
  cases h <;> cases h' <;> simp_all

/-! ## What does not matter -/

/-- What a program leaves, the log left aside. -/
def Outcome.silent (o : Outcome) : Outcome :=
  { o with stderr := [] }

/-- How settings come out does not depend on how much is logged. -/
theorem ComesTo.of_silent {code : Nat} {stdout : String} {left : FileTree} {a' : Arguments}
    (h : ComesTo files a code stdout left) (hsilent : a'.silent = a.silent) :
    ComesTo files a' code stdout left := by
  simp only [Arguments.silent, Arguments.mk.injEq, and_true] at hsilent
  obtain ⟨hroot, houtput, hformat, hcompact⟩ := hsilent
  have hdocument : documentOf files a' = documentOf files a := by
    rw [documentOf, documentOf, hroot, hformat, hcompact]
  cases h with
  | refused hfault => exact .refused (hroot ▸ hfault)
  | printed hfault hdoc hout =>
    exact .printed (hroot ▸ hfault) (hdocument.trans hdoc) (houtput.trans hout)
  | unwritable hfault hdoc hout hwrite =>
    exact .unwritable (hroot ▸ hfault) (hdocument.trans hdoc) (houtput.trans hout) hwrite
  | written hfault hdoc hout hwrite =>
    exact .written (hroot ▸ hfault) (hdocument.trans hdoc) (houtput.trans hout) hwrite

section

variable {gone : List Place}
  (hgone : ∀ place ∈ gone, ∃ bytes,
    files.node? place = some (.file bytes) ∧ ({} : Harvester).Rejects bytes)
  (hwf : files.WellFormed)

include hgone hwf

theorem documentOf_without (hroot : rootFault? (files.without gone) a.root = none) :
    documentOf (files.without gone) a = documentOf files a := by
  obtain ⟨node, hnode⟩ := exists_nodeAt_of_rootFault? hroot
  rw [documentOf, documentOf, Harvester.report_without hgone hwf hnode]

/-- How settings come out does not depend on files that cannot be parsed. -/
theorem ComesTo.without {code : Nat} {stdout : String} {left : FileTree}
    (h : ComesTo files a code stdout left)
    (hroot : rootFault? (files.without gone) a.root = rootFault? files a.root) :
    ∃ left', ComesTo (files.without gone) a code stdout left' ∧
      (code = 0 → ∀ path, a.outputFile = some path → left'.read path = left.read path) := by
  have hdiffer : files.DifferInFiles (files.without gone) :=
    FileTree.differInFiles_without hgone
  cases h with
  | refused hfault =>
    exact ⟨_, .refused (hroot.trans hfault), fun hcode => absurd hcode (by decide)⟩
  | printed hfault hdoc hout =>
    have hdocument := documentOf_without hgone hwf (hroot.trans hfault)
    refine ⟨_, .printed (hroot.trans hfault) (hdocument.trans hdoc) hout, fun _ path hpath => ?_⟩
    cases hout.symm.trans hpath
  | @unwritable document path fault hfault hdoc hout hwrite =>
    have hdocument := documentOf_without hgone hwf (hroot.trans hfault)
    cases hwrite' : (files.without gone).write path (Text.Utf8.bytes document) with
    | error fault' =>
      exact ⟨_, .unwritable (hroot.trans hfault) (hdocument.trans hdoc) hout hwrite',
        fun hcode => absurd hcode (by decide)⟩
    | ok left' =>
      obtain ⟨left, hleft⟩ := hdiffer.write_ok_iff.2 ⟨left', hwrite'⟩
      cases hwrite.symm.trans hleft
  | @written document path left hfault hdoc hout hwrite =>
    have hdocument := documentOf_without hgone hwf (hroot.trans hfault)
    obtain ⟨left', hwrite'⟩ := hdiffer.write_ok_iff.1 ⟨left, hwrite⟩
    have hcomes := ComesTo.written (hroot.trans hfault) (hdocument.trans hdoc) hout hwrite'
    rw [← hdiffer.isStdout_eq] at hcomes
    refine ⟨left', hcomes, fun _ path' hpath' => ?_⟩
    cases hout.symm.trans hpath'
    exact hdiffer.read_eq_of_write hwrite hwrite'

end

/-! ## The outcome -/

theorem comesTo_run {argv : List String} {rootVariable : Option String}
    (hparse : Arguments.parse argv rootVariable = .ok a) (files : FileTree) :
    ComesTo files a (run files argv rootVariable).code (run files argv rootVariable).stdout
      (run files argv rootVariable).files := by
  have hplan : run files argv rootVariable = (planFor files a).carryOut files := by
    rw [run, plan, hparse]
  rw [hplan]
  exact comesTo_planFor files a

/-- What success and failure leave. -/
theorem ComesTo.code_eq {code : Nat} {stdout : String} {left : FileTree}
    (h : ComesTo files a code stdout left) :
    (code = 0 ↔ Succeeds files a) ∧
      (¬Succeeds files a → code = 1 ∧ stdout = "" ∧ left = files) := by
  cases h with
  | refused hfault =>
    have hnot : ¬Succeeds files a := fun hs => by
      cases hfault.symm.trans hs.root
    exact ⟨⟨fun hcode => absurd hcode (by decide), fun hs => absurd hs hnot⟩, by simp⟩
  | printed hfault hdoc hout =>
    have hs : Succeeds files a := ⟨hfault, fun path hpath => by cases hout.symm.trans hpath⟩
    exact ⟨⟨fun _ => hs, fun _ => rfl⟩, fun hnot => absurd hs hnot⟩
  | @unwritable document path fault hfault hdoc hout hwrite =>
    have hnot : ¬Succeeds files a := fun hs => by
      obtain ⟨document', files', hdoc', hwrite'⟩ := hs.output path hout
      cases hdoc.symm.trans hdoc'
      cases hwrite.symm.trans hwrite'
    exact ⟨⟨fun hcode => absurd hcode (by decide), fun hs => absurd hs hnot⟩, by simp⟩
  | @written document path left hfault hdoc hout hwrite =>
    have hs : Succeeds files a := by
      refine ⟨hfault, fun path' hpath' => ?_⟩
      cases hout.symm.trans hpath'
      exact ⟨document, left, hdoc, hwrite⟩
    exact ⟨⟨fun _ => hs, fun _ => rfl⟩, fun hnot => absurd hs hnot⟩

/-- What success prints and writes. -/
theorem ComesTo.document_eq {code : Nat} {stdout : String} {left : FileTree}
    (h : ComesTo files a code stdout left) (hs : Succeeds files a) :
    ∃ document, documentOf files a = .ok document ∧
      (a.outputFile = none → stdout = document ∧ left = files) ∧
      ∀ path, a.outputFile = some path →
        (files.nodeAt path = .ok (.device .stdout) → stdout = document) ∧
        (files.nodeAt path ≠ .ok (.device .stdout) → stdout = "") ∧
        ((∀ device, files.nodeAt path ≠ .ok (.device device)) →
          left.read path = .ok (Text.Utf8.bytes document)) ∧
        ∀ place, left.node? place = files.node? place ∨ left.resolve path = .ok place := by
  cases h with
  | refused hfault => cases hfault.symm.trans hs.root
  | printed hfault hdoc hout =>
    refine ⟨_, hdoc, fun _ => ⟨rfl, rfl⟩, fun path hpath => ?_⟩
    cases hout.symm.trans hpath
  | @unwritable document path fault hfault hdoc hout hwrite =>
    obtain ⟨document', files', hdoc', hwrite'⟩ := hs.output path hout
    cases hdoc.symm.trans hdoc'
    cases hwrite.symm.trans hwrite'
  | @written document path left hfault hdoc hout hwrite =>
    refine ⟨document, hdoc, fun hnone => ?_, fun path' hpath' => ?_⟩
    · cases hout.symm.trans hnone
    · cases hout.symm.trans hpath'
      exact ⟨fun hstdout => if_pos (FileTree.isStdout_iff.2 hstdout),
        fun hstdout => if_neg (mt FileTree.isStdout_iff.1 hstdout),
        FileTree.read_of_write hwrite, FileTree.node?_of_write hwrite⟩

/-- Settings that agree but for the log leave the same, but for the log. -/
theorem run_silent {argv argv' : List String} {rootVariable rootVariable' : Option String}
    {a' : Arguments} (hparse : Arguments.parse argv rootVariable = .ok a)
    (hparse' : Arguments.parse argv' rootVariable' = .ok a') (hsilent : a'.silent = a.silent)
    (files : FileTree) :
    (run files argv' rootVariable').silent = (run files argv rootVariable).silent := by
  obtain ⟨hcode, hstdout, hfiles⟩ :=
    ((comesTo_run hparse' files).of_silent hsilent.symm).unique (comesTo_run hparse files)
  rw [Outcome.silent, Outcome.silent, hcode, hstdout, hfiles]

/-- **What a command line comes to.** A command line that gives settings ends with success exactly
if the root is accepted and the output file, if there is one, can be written; otherwise it ends with
code 1, nothing is printed, and the files are as they were.

On success the document, which is the report on the root and a line break, is printed and no file
changes; or else it goes to the output file, and no other file changes. The output file then holds
these very bytes, unless it is a device, which takes them; and nothing is printed, unless it is the
output of the program itself, which then prints just the document.

A root that was accepted fails no run. What is logged does not matter: settings that agree but for
the flags for the log, and so the command line without these flags, come to the same. Nor do files
matter that cannot be parsed, as long as the root is not one of them: without them the code, what is
printed, and what the output file holds are the same. -/
theorem run_outcome {argv : List String} {rootVariable : Option String}
    (hparse : Arguments.parse argv rootVariable = .ok a) (files : FileTree) :
    ((run files argv rootVariable).code = 0 ↔ Succeeds files a) ∧
    (¬Succeeds files a → (run files argv rootVariable).code = 1 ∧
      (run files argv rootVariable).stdout = "" ∧ (run files argv rootVariable).files = files) ∧
    (Succeeds files a → ∃ document, documentOf files a = .ok document ∧
      (a.outputFile = none → (run files argv rootVariable).stdout = document ∧
        (run files argv rootVariable).files = files) ∧
      ∀ path, a.outputFile = some path →
        (files.nodeAt path = .ok (.device .stdout) →
          (run files argv rootVariable).stdout = document) ∧
        (files.nodeAt path ≠ .ok (.device .stdout) → (run files argv rootVariable).stdout = "") ∧
        ((∀ device, files.nodeAt path ≠ .ok (.device device)) →
          (run files argv rootVariable).files.read path = .ok (Text.Utf8.bytes document)) ∧
        ∀ place, (run files argv rootVariable).files.node? place = files.node? place ∨
          (run files argv rootVariable).files.resolve path = .ok place) ∧
    (rootFault? files a.root = none →
      ∀ (h : Harvester) (c : Context), ∃ r, h.run files a.root c = .ok r) ∧
    (∀ argv' rootVariable' a', Arguments.parse argv' rootVariable' = .ok a' →
      a'.silent = a.silent →
      (run files argv' rootVariable').silent = (run files argv rootVariable).silent) ∧
    (run files (unlogged argv) rootVariable).silent = (run files argv rootVariable).silent ∧
    (files.WellFormed → ∀ gone : List Place,
      (∀ place ∈ gone, ∃ bytes,
        files.node? place = some (.file bytes) ∧ ({} : Harvester).Rejects bytes) →
      rootFault? (files.without gone) a.root = rootFault? files a.root →
      (run (files.without gone) argv rootVariable).code = (run files argv rootVariable).code ∧
      (run (files.without gone) argv rootVariable).stdout =
        (run files argv rootVariable).stdout ∧
      ((run files argv rootVariable).code = 0 → ∀ path, a.outputFile = some path →
        (run (files.without gone) argv rootVariable).files.read path =
          (run files argv rootVariable).files.read path)) := by
  have hcomes := comesTo_run hparse files
  have hsilent : ∀ argv' rootVariable' a', Arguments.parse argv' rootVariable' = .ok a' →
      a'.silent = a.silent →
      (run files argv' rootVariable').silent = (run files argv rootVariable).silent :=
    fun _ _ _ hparse' hsilent => run_silent hparse hparse' hsilent files
  refine ⟨hcomes.code_eq.1, hcomes.code_eq.2, hcomes.document_eq, exists_run, hsilent, ?_, ?_⟩
  · obtain ⟨a', hparse', hsame⟩ := Arguments.parse_unlogged hparse
    exact hsilent _ _ a' hparse' hsame
  · intro hwf gone hgone hroot
    obtain ⟨left', hleft', hread⟩ := hcomes.without hgone hwf hroot
    obtain ⟨hcode, hstdout, hleft⟩ := (comesTo_run hparse (files.without gone)).unique hleft'
    exact ⟨hcode, hstdout, hleft ▸ hread⟩

/-- The document is written, and it does not matter that logging is off. -/
theorem run_outcome_linkedSources :
    let argv := ["src", "-vq", "-O", "out.json"]
    let a : Arguments := {
      root := "src", outputFile := some "out.json", verbose := 1, quiet := true }
    Arguments.parse argv none = .ok a ∧ (run linkedSources argv none).code = 0 ∧
      (∃ document, documentOf linkedSources a = .ok document ∧
        (run linkedSources argv none).stdout = "" ∧
        (run linkedSources argv none).files.read "out.json" = .ok (Text.Utf8.bytes document)) ∧
      (run linkedSources ["src", "-O", "out.json"] none).silent =
        (run linkedSources argv none).silent := by
  intro argv a
  have hparse : Arguments.parse argv none = .ok a := by decide +kernel
  have hroot : rootFault? linkedSources a.root = none := by decide +kernel
  obtain ⟨document, hdocument⟩ := exists_documentOf hroot
  have hwrite : linkedSources.write "out.json" (Text.Utf8.bytes document) =
      .ok (linkedSources.put ["out.json"] (.file (Text.Utf8.bytes document))) := rfl
  have hs : Succeeds linkedSources a := by
    refine ⟨hroot, fun path hpath => ?_⟩
    cases hpath
    exact ⟨document, _, hdocument, hwrite⟩
  obtain ⟨hcode, -, hdoc, -, -, hunlogged, -⟩ := run_outcome hparse linkedSources
  obtain ⟨document', hdocument', -, hwritten⟩ := hdoc hs
  obtain ⟨-, hstdout, hread, -⟩ := hwritten "out.json" rfl
  have hnone : linkedSources.nodeAt "out.json" = .error .notFound := by decide +kernel
  have hdevice (device : Device) : linkedSources.nodeAt "out.json" ≠ .ok (.device device) := by
    rw [hnone]
    exact nofun
  exact ⟨hparse, hcode.2 hs, ⟨document', hdocument', hstdout (hdevice .stdout), hread hdevice⟩,
    hunlogged⟩

/-- The files of a system with nothing but two devices that take everything. -/
def devices : FileTree where
  nodes := [(["dev"], .directory), (["null", "dev"], .device .null),
    (["stdout", "dev"], .device .stdout)]

/-- Writing to a device succeeds, and it holds nothing then. -/
theorem run_to_device {path document : String} {device : Device}
    (hparse : Arguments.parse ["-O", path] none = .ok { root := ".", outputFile := some path })
    (hdocument : documentOf devices { root := ".", outputFile := some path } = .ok document)
    (hwrite : devices.write path (Text.Utf8.bytes document) = .ok devices)
    (hdevice : devices.nodeAt path = .ok (.device device)) :
    (run devices ["-O", path] none).code = 0 ∧
      (run devices ["-O", path] none).stdout = (if devices.isStdout path then document else "") ∧
      (run devices ["-O", path] none).files.read path = .ok [] := by
  have hroot : rootFault? devices "." = none := by decide +kernel
  obtain ⟨hcode, hstdout, hfiles⟩ :=
    (comesTo_run hparse devices).unique (.written hroot hdocument rfl hwrite)
  refine ⟨hcode, hstdout, ?_⟩
  rw [hfiles]
  exact FileTree.read_of_write_device hwrite hdevice

/-- A device takes the document and does not hold it, and the output of the program shows it. -/
theorem run_devices :
    let a (path : String) : Arguments := { root := ".", outputFile := some path }
    Arguments.parse ["-O", "/dev/null"] none = .ok (a "/dev/null") ∧
      Arguments.parse ["-O", "/dev/stdout"] none = .ok (a "/dev/stdout") ∧
      ∃ document, Text.Utf8.bytes document ≠ [] ∧
        documentOf devices (a "/dev/null") = .ok document ∧
        (run devices ["-O", "/dev/null"] none).code = 0 ∧
        (run devices ["-O", "/dev/null"] none).files.read "/dev/null" = .ok [] ∧
        documentOf devices (a "/dev/stdout") = .ok document ∧
        (run devices ["-O", "/dev/stdout"] none).code = 0 ∧
        (run devices ["-O", "/dev/stdout"] none).stdout = document := by
  intro a
  have hnull : Arguments.parse ["-O", "/dev/null"] none = .ok (a "/dev/null") := by
    decide +kernel
  have hstdout : Arguments.parse ["-O", "/dev/stdout"] none = .ok (a "/dev/stdout") := by
    decide +kernel
  have hroot : rootFault? devices (a "/dev/null").root = none := by decide +kernel
  obtain ⟨document, hdocument⟩ := exists_documentOf hroot
  have hnullAt : devices.nodeAt "/dev/null" = .ok (.device .null) := by decide +kernel
  have hstdoutAt : devices.nodeAt "/dev/stdout" = .ok (.device .stdout) := by decide +kernel
  obtain ⟨hcode, -, hread⟩ := run_to_device hnull hdocument rfl hnullAt
  obtain ⟨hcode', hprinted, -⟩ := run_to_device hstdout hdocument rfl hstdoutAt
  rw [if_pos (FileTree.isStdout_iff.2 hstdoutAt)] at hprinted
  exact ⟨hnull, hstdout, document, bytes_documentOf_ne_nil hdocument, hdocument, hcode, hread,
    hdocument, hcode', hprinted⟩

end PatternHarvest.CommandLine
