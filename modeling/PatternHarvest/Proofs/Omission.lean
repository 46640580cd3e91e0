import PatternHarvest.Proofs.Discovery
import PatternHarvest.Proofs.Writing

/-!
# Leaving files out

A file that does not follow the grammar offers no declarations, so the report is the same without
it. This takes more than passing it over once it is read: without the file the walk must find the
other sources, each with the same text, and no more of them. What a path leads to does not depend on
files (`FileTree.DifferInFiles`), so the sources of the smaller tree are those of the larger one,
but for paths that offer nothing (`Harvester.report_without`).
-/

namespace PatternHarvest

open Files

namespace Files.FileTree

variable {t t' : FileTree} {root extension path : String} {place : Place} {trail above : Trail}
  {name : String}

/-! ## Sources of trees that differ in files -/

namespace DifferInFiles

theorem resolve_of_nodeAt (h : DifferInFiles t t') {node : Node}
    (hnode : isFree (some node) = false) (hpath : t.nodeAt path = .ok node) :
    t'.resolve path = t.resolve path := by
  obtain ⟨place, hplace, hplacenode⟩ := nodeAt_eq_ok_iff.1 hpath
  have hsome : t'.node? place ≠ none := by
    rw [(h.node?_iff hnode).1 hplacenode]
    exact Option.some_ne_none _
  rw [hplace, h.resolve_eq_ok hplace hsome]

/-- What stands at the end of a trail below a directory, if it is no file. -/
theorem entryAt?_iff (h : DifferInFiles t t') {node : Node} (hnode : isFree (some node) = false)
    (hdir : t.nodeAt (pathOf root above) = .ok .directory) :
    t'.entryAt? root (name :: above) = some node ↔ t.entryAt? root (name :: above) = some node := by
  obtain ⟨place, hplace, -⟩ := nodeAt_eq_ok_iff.1 hdir
  rw [entryAt?, entryAt?, h.resolve_of_nodeAt rfl hdir, hplace]
  exact (h.node?_iff hnode).symm

/-- A source of one tree is a source of the other if the file at its end is there. -/
theorem isSource (h : DifferInFiles t t') (hsource : t.IsSource extension root trail)
    (hfile : ∃ bytes, t'.nodeAt (pathOf root trail) = .ok (.file bytes) ∨
      pathLimit < (pathOf root trail).utf8ByteSize ∧ t'.entryAt? root trail = some (.file bytes)) :
    t'.IsSource extension root trail := by
  constructor
  case names => exact hsource.names
  case directories =>
    intro above habove hne
    exact (h.nodeAt_iff rfl).1 (hsource.directories above habove hne)
  case no_loop =>
    intro link target hlink hentry above habove hne heq
    have hdir {above : Trail} (habove : above <:+ link) (hne : above ≠ link) :
        t.nodeAt (pathOf root above) = .ok .directory := by
      refine hsource.directories above (habove.trans hlink) fun heq => hne ?_
      subst heq
      exact habove.eq_of_length (Nat.le_antisymm habove.length_le hlink.length_le)
    have hentry' : t.entryAt? root link = some (.link target) := by
      cases link with
      | nil => cases hentry
      | cons name higher =>
        have hhigher : higher ≠ name :: higher := fun heq => by
          simpa using congrArg List.length heq
        rwa [← h.entryAt?_iff rfl (hdir (List.suffix_cons _ _) hhigher)]
    have hplace := h.resolve_of_nodeAt rfl (hdir habove hne)
    obtain ⟨place, hresolve, hnode⟩ := nodeAt_eq_ok_iff.1 (hdir habove hne)
    have hback : t.resolve (pathOf root link) = .ok place := by
      refine h.symm.resolve_eq_ok ?_ (by rw [hnode]; exact Option.some_ne_none _)
      rw [← heq, hplace, hresolve]
    exact hsource.no_loop link target hlink hentry' above habove hne (hresolve.trans hback.symm)
  case file => exact hfile
  case named => exact hsource.named

end DifferInFiles

/-! ## Leaving nodes out -/

/-- A tree without the nodes at some places. -/
def without (t : FileTree) (gone : List Place) : FileTree :=
  { t with nodes := t.nodes.filter fun e => !gone.contains e.1 }

theorem node?_without (t : FileTree) (gone : List Place) (hplace : place ≠ []) :
    (t.without gone).node? place = if place ∈ gone then none else t.node? place := by
  rw [node?, if_neg hplace, node?, if_neg hplace, without]
  induction t.nodes with
  | nil => simp
  | cons e nodes ih =>
    obtain ⟨p, node⟩ := e
    by_cases hp : p ∈ gone
    · have hfilter : ((p, node) :: nodes).filter (fun e => !gone.contains e.1) =
          nodes.filter fun e => !gone.contains e.1 := by
        simp [hp]
      rw [hfilter, ih, List.lookup_cons]
      by_cases heq : place = p
      · rw [if_pos (heq ▸ hp), if_pos (heq ▸ hp)]
      · have hne : (place == p) = false := by simpa using heq
        rw [hne]
    · have hfilter : ((p, node) :: nodes).filter (fun e => !gone.contains e.1) =
          (p, node) :: nodes.filter fun e => !gone.contains e.1 := by
        simp [hp]
      rw [hfilter, List.lookup_cons, List.lookup_cons, ih]
      by_cases heq : place = p
      · subst heq
        simp [hp]
      · have hne : (place == p) = false := by simpa using heq
        rw [hne]

end Files.FileTree

/-! ## What files offer -/

namespace Harvester

variable {files : FileTree} {root path : String}

/-- A harvester can make nothing of the bytes of a file, wherever it is. -/
def Rejects (h : Harvester) (bytes : List UInt8) : Prop :=
  ∀ path, (h.declarationsOf (Text.Utf8.text bytes) path).toOption = none

theorem declarationsAt_of_file {bytes : List UInt8}
    (hpath : files.nodeAt path = .ok (.file bytes)) (h : Harvester) :
    h.declarationsAt files path = h.declarationsOf (Text.Utf8.text bytes) path := by
  rw [declarationsAt, FileTree.read, hpath]
  rfl

theorem declarationsAt_of_tooLong (hpath : FileTree.pathLimit < path.utf8ByteSize)
    (h : Harvester) : (h.declarationsAt files path).toOption = none := by
  cases hresolve : files.resolve path with
  | error fault =>
    have hread : files.read path = .error fault := by
      rw [FileTree.read, FileTree.nodeAt, hresolve]
      rfl
    rw [declarationsAt, hread]
    rfl
  | ok place =>
    obtain ⟨hcheck, -⟩ := FileTree.resolve_eq_ok_iff.1 hresolve
    exact absurd (FileTree.checkPath_eq_ok_iff.1 hcheck).2.2 (Nat.not_le.2 hpath)

/-- The report is on the declarations of the sources. -/
theorem report_of_sources {h : Harvester} {paths : List String}
    (hpaths : h.sources files root = .ok paths) :
    h.report files root =
      .ok (.ofContext (h.classifier.classifyAll (h.declarationsIn files paths) .empty)) := by
  simp only [report, run, hpaths, bind, Except.bind, pure, Except.pure]
  rw [foldl_step]

/-- Paths that offer nothing in one tree can be passed over in another that offers the same else. -/
theorem declarationsIn_filter {h : Harvester} {files' : FileTree} {paths : List String}
    {p : String → Bool}
    (hsame : ∀ path ∈ paths, p path = true →
      (h.declarationsAt files' path).toOption = (h.declarationsAt files path).toOption)
    (hnone : ∀ path ∈ paths, p path = false → (h.declarationsAt files path).toOption = none) :
    h.declarationsIn files' (paths.filter p) = h.declarationsIn files paths := by
  rw [declarationsIn, declarationsIn, List.filterMap_filter]
  congr 1
  refine List.filterMap_congr fun path hpath => ?_
  cases hp : p path with
  | true => simp [hsame path hpath hp]
  | false => simp [hnone path hpath hp]

end Harvester

/-! ## Leaving out what is rejected -/

section

variable {h : Harvester} {t : FileTree} {gone : List Place}
  (hgone : ∀ place ∈ gone, ∃ bytes, t.node? place = some (.file bytes) ∧ h.Rejects bytes)

include hgone

namespace Files.FileTree

variable {root extension path : String} {place : Place} {trail : Trail}

theorem node?_without_of_files (place : Place) :
    (t.without gone).node? place = if place ∈ gone then none else t.node? place := by
  by_cases hplace : place = []
  · subst hplace
    rw [if_neg fun hmem => ?_]
    · rfl
    · obtain ⟨bytes, hnode, -⟩ := hgone [] hmem
      cases hnode
  · exact node?_without t gone hplace

theorem differInFiles_without : DifferInFiles t (t.without gone) where
  home := rfl
  node place := by
    rw [node?_without_of_files hgone]
    split
    next hmem =>
      obtain ⟨bytes, hnode, -⟩ := hgone place hmem
      exact .inr ⟨by rw [hnode]; rfl, rfl⟩
    next => exact .inl rfl

theorem node?_of_without {node : Node} (hnode : (t.without gone).node? place = some node) :
    t.node? place = some node := by
  rw [node?_without_of_files hgone] at hnode
  split at hnode
  next => cases hnode
  next => exact hnode

theorem nodeAt_of_without {node : Node} (hpath : (t.without gone).nodeAt path = .ok node) :
    t.nodeAt path = .ok node := by
  obtain ⟨place, hplace, hnode⟩ := nodeAt_eq_ok_iff.1 hpath
  have hnode' : t.node? place = some node := node?_of_without hgone hnode
  have hsome : t.node? place ≠ none := by
    rw [hnode']
    exact Option.some_ne_none _
  exact nodeAt_eq_ok_iff.2
    ⟨place, (differInFiles_without hgone).symm.resolve_eq_ok hplace hsome, hnode'⟩

theorem WellFormed.without (hwf : t.WellFormed) : (t.without gone).WellFormed :=
  hwf.of_subset (hwf.nodup.sublist (List.filter_sublist.map _)) (List.filter_subset_self _)
    (fun place => ((differInFiles_without hgone).isDirectory_eq place).symm) rfl

/-- The sources of the smaller tree are sources of the larger one. -/
theorem isSource_of_without (hsource : (t.without gone).IsSource extension root trail) :
    t.IsSource extension root trail := by
  have hdiffer := (differInFiles_without hgone).symm
  refine hdiffer.isSource hsource ?_
  obtain ⟨bytes, hfile | ⟨hlong, hentry⟩⟩ := hsource.file
  · exact ⟨bytes, .inl (nodeAt_of_without hgone hfile)⟩
  · refine ⟨bytes, .inr ⟨hlong, ?_⟩⟩
    cases trail with
    | nil => cases hentry
    | cons name above =>
      have hne : above ≠ name :: above := fun heq => by
        simpa using congrArg List.length heq
      have hdir := hsource.directories above (List.suffix_cons _ _) hne
      rw [entryAt?, hdiffer.resolve_of_nodeAt rfl hdir]
      rw [entryAt?] at hentry
      split at hentry
      next => exact node?_of_without hgone hentry
      next => cases hentry

end Files.FileTree

namespace Harvester

variable {root path : String} {trail : Trail}

/-- A source of the smaller tree offers the same in both. -/
theorem declarationsAt_without
    (hsource : (t.without gone).IsSource h.extension root trail) :
    (h.declarationsAt (t.without gone) (FileTree.pathOf root trail)).toOption =
      (h.declarationsAt t (FileTree.pathOf root trail)).toOption := by
  obtain ⟨bytes, hfile | ⟨hlong, -⟩⟩ := hsource.file
  · rw [declarationsAt_of_file hfile,
      declarationsAt_of_file (FileTree.nodeAt_of_without hgone hfile)]
  · rw [declarationsAt_of_tooLong hlong, declarationsAt_of_tooLong hlong]

/-- A source of the larger tree alone offers nothing. -/
theorem declarationsAt_of_not_isSource (hsource : t.IsSource h.extension root trail)
    (hnot : ¬(t.without gone).IsSource h.extension root trail) :
    (h.declarationsAt t (FileTree.pathOf root trail)).toOption = none := by
  obtain ⟨bytes, hfile | ⟨hlong, -⟩⟩ := hsource.file
  · obtain ⟨place, hplace, hnode⟩ := FileTree.nodeAt_eq_ok_iff.1 hfile
    by_cases hmem : place ∈ gone
    · obtain ⟨bytes', hnode', hrejects⟩ := hgone place hmem
      cases hnode.symm.trans hnode'
      rw [declarationsAt_of_file hfile]
      exact hrejects _
    · have hdiffer := FileTree.differInFiles_without hgone
      have hnode' : (t.without gone).node? place = some (.file bytes) := by
        rw [FileTree.node?_without_of_files hgone, if_neg hmem, hnode]
      have hplace' : (t.without gone).resolve (FileTree.pathOf root trail) = .ok place :=
        hdiffer.resolve_eq_ok hplace (by rw [hnode']; exact Option.some_ne_none _)
      have hfile' := FileTree.nodeAt_eq_ok_iff.2 ⟨place, hplace', hnode'⟩
      exact absurd (hdiffer.isSource hsource ⟨bytes, .inl hfile'⟩) hnot
  · exact declarationsAt_of_tooLong hlong h

/-- **Rejected files do not matter.** As long as the root is still there, the report is the same
without files of which the harvester can make nothing. -/
theorem report_without (hwf : t.WellFormed) {node : Node}
    (hroot : (t.without gone).nodeAt root = .ok node) :
    h.report (t.without gone) root = h.report t root := by
  obtain ⟨paths, hpaths, hsorted, hmem⟩ :=
    FileTree.exists_sources hwf (FileTree.nodeAt_of_without hgone hroot) h.extension
  obtain ⟨paths', hpaths', hsorted', hmem'⟩ :=
    FileTree.exists_sources (FileTree.WellFormed.without hgone hwf) hroot h.extension
  have hsub : ∀ path ∈ paths', path ∈ paths := by
    intro path hpath
    obtain ⟨trail, rfl, hsource⟩ := (hmem' path).1 hpath
    exact (hmem _).2 ⟨trail, rfl, FileTree.isSource_of_without hgone hsource⟩
  have hfilter : paths' = paths.filter fun path => decide (path ∈ paths') := by
    refine Path.Precedes.eq_of_mem_iff hsorted' (hsorted.filter _) fun path => ?_
    simpa using hsub path
  have hdeclarations :
      h.declarationsIn (t.without gone) paths' = h.declarationsIn t paths := by
    rw [hfilter]
    refine declarationsIn_filter (fun path hpath hin => ?_) fun path hpath hnot => ?_
    · obtain ⟨trail, rfl, hsource⟩ := (hmem' path).1 (of_decide_eq_true hin)
      exact declarationsAt_without hgone hsource
    · obtain ⟨trail, rfl, hsource⟩ := (hmem path).1 hpath
      refine declarationsAt_of_not_isSource hgone hsource fun hsource' => ?_
      exact of_decide_eq_false hnot ((hmem' _).2 ⟨trail, rfl, hsource'⟩)
  have hsources : h.sources t root = .ok paths := by
    rw [sources, hpaths]
    rfl
  have hsources' : h.sources (t.without gone) root = .ok paths' := by
    rw [sources, hpaths']
    rfl
  rw [report_of_sources hsources, report_of_sources hsources', hdeclarations]

end Harvester

end

end PatternHarvest
