import PatternHarvest.Proofs.NameOrder
import PatternHarvest.Proofs.Paths
import PatternHarvest.Proofs.Runs
import Mathlib.Data.List.Infix
import Mathlib.Data.List.Nodup
import Mathlib.Data.List.Perm.Subperm

/-!
# Which sources are found

What is found below a root is said in terms of paths alone (`FileTree.IsSource`): a path from which
every directory on the way can be reached, on which no link leads back to a directory already on the
way, and which ends at a regular file with the extension.

A walk is in a directory, and in those above it through which it has come (`FileTree.Within`). What
it meets is what can be met from such a place (`FileTree.mem_fileTrails_entries`). One half holds
for every number of steps and of links that the walk is given. The other half is that it is given
enough of both: links that were entered lead to different directories, and between them each step
goes down. From there the statement on paths follows (`FileTree.IsSource.exists_within`,
`FileTree.Within.isSource`), and with it the main result: the sources are all there, each once, in
the order of their bytes (`Harvester.sources_exact`).
-/

namespace PatternHarvest.Files

/-- Whether a path comes before another: the first segment that differs has lesser bytes, or the
path is the beginning of the other. -/
def Path.Precedes (p q : String) : Prop :=
  (segments p).map Text.Utf8.bytes < (segments q).map Text.Utf8.bytes

theorem Path.Precedes.irrefl (p : String) : ¬Path.Precedes p p :=
  List.lt_irrefl _

theorem Path.Precedes.asymm {p q : String} (h : Path.Precedes p q) : ¬Path.Precedes q p :=
  List.lt_asymm h

/-- Two lists of the same paths are the same if both are in order. -/
theorem Path.Precedes.eq_of_mem_iff {ps qs : List String} (hps : ps.Pairwise Path.Precedes)
    (hqs : qs.Pairwise Path.Precedes) (hmem : ∀ p, p ∈ ps ↔ p ∈ qs) : ps = qs := by
  have hnodup {l : List String} (hl : l.Pairwise Path.Precedes) : l.Nodup := by
    refine hl.imp ?_
    rintro p _ hpq rfl
    exact Path.Precedes.irrefl p hpq
  have hperm : ps.Perm qs := (List.perm_ext_iff_of_nodup (hnodup hps) (hnodup hqs)).2 hmem
  exact hperm.eq_of_pairwise (fun p q _ _ hpq hqp => absurd hqp hpq.asymm) hps hqs

namespace FileTree

variable {t : FileTree} {root extension : String} {place start : Place} {trail : Trail}
  {name : String}

/-! ## What is to be found -/

/-- What stands at the end of a trail below a root: a link itself, not what it leads to. -/
def entryAt? (t : FileTree) (root : String) : Trail → Option Node
  | [] => none
  | name :: above =>
    match t.resolve (pathOf root above) with
    | .ok place => t.node? (name :: place)
    | .error _ => none

/-- A trail leads to a source below a root: each part of it leads to a directory, and one that may
be listed, no link on it to one that a part before the link leads to, and the whole to a regular
file with the extension. The end of a path that is too long to be followed is taken for what it is,
if it is no link. -/
structure IsSource (t : FileTree) (extension root : String) (trail : Trail) : Prop where
  names : ∀ name ∈ trail, Path.isName name = true
  directories : ∀ above, above <:+ trail → above ≠ trail →
    t.nodeAt (pathOf root above) = .ok .directory
  no_loop : ∀ link target, link <:+ trail → t.entryAt? root link = some (.link target) →
    ∀ above, above <:+ link → above ≠ link →
      t.resolve (pathOf root above) ≠ t.resolve (pathOf root link)
  file : ∃ bytes, t.nodeAt (pathOf root trail) = .ok (.file bytes) ∨
    pathLimit < (pathOf root trail).utf8ByteSize ∧ t.entryAt? root trail = some (.file bytes)
  named : Path.hasExtension extension (Path.fileName (pathOf root trail)) = true

theorem pathOf_cons (root name : String) (trail : Trail) :
    pathOf root (name :: trail) = Path.join (pathOf root trail) name := rfl

theorem segments_pathOf (h : ∀ name ∈ trail, Path.isName name = true) :
    Path.segments (pathOf root trail) = Path.segments root ++ trail.reverse := by
  induction trail with
  | nil => simp [pathOf]
  | cons name trail ih =>
    rw [pathOf_cons, Path.segments_join (h name (by simp)), ih fun n hn => h n (by simp [hn])]
    simp

/-! ## The entries of a directory -/

theorem mem_children (hwf : t.WellFormed) :
    name ∈ t.children place ↔ ∃ node, t.node? (name :: place) = some node := by
  simp only [children, List.mem_filterMap, node?_cons_eq_some_iff hwf.nodup]
  constructor
  · rintro ⟨⟨p, node⟩, he, hname⟩
    cases p with
    | nil => cases hname
    | cons n parent =>
      simp only [Option.ite_none_right_eq_some, Option.some.injEq] at hname
      obtain ⟨rfl, rfl⟩ := hname
      exact ⟨node, he⟩
  · rintro ⟨node, he⟩
    exact ⟨(name :: place, node), he, by simp⟩

theorem children_eq (t : FileTree) (place : Place) :
    t.children place = (t.nodes.map (·.1)).filterMap fun p =>
      if p.tail = place then p.head? else none := by
  rw [children, List.filterMap_map]
  refine List.filterMap_congr fun e _ => ?_
  obtain ⟨p, node⟩ := e
  cases p with
  | nil => simp
  | cons name parent => rfl

theorem nodup_children (hwf : t.WellFormed) (place : Place) : (t.children place).Nodup := by
  rw [children_eq]
  refine hwf.nodup.filterMap ?_
  intro p q name hp hq
  simp only [Option.mem_def, Option.ite_none_right_eq_some] at hp hq
  rw [← List.cons_head?_tail hp.2, ← List.cons_head?_tail hq.2, hp.1, hq.1]

/-! ## The directories that a walk is in -/

/-- A walk from the place `start` of a root is in the directory `here`, and in those of a list above
it, the last first. It has come to some of them through links: these are the places of the second
list, but for the first. -/
inductive Within (t : FileTree) (root : String) (start : Place) :
    List Ancestor → Ancestor → List Place → Prop
  | root : Within t root start [] ⟨start, []⟩ [start]
  | down {above : List Ancestor} {here : Ancestor} {jumps : List Place} {name : String}
      {there : Place} : Within t root start above here jumps →
      t.node? (name :: here.place) = some .directory →
      t.resolve (pathOf root (name :: here.trail)) = .ok there →
      Within t root start (here :: above) ⟨name :: here.place, name :: here.trail⟩ jumps
  | jump {above : List Ancestor} {here : Ancestor} {jumps : List Place} {name target : String}
      {there : Place} : Within t root start above here jumps →
      t.node? (name :: here.place) = some (.link target) →
      t.resolve (pathOf root (name :: here.trail)) = .ok there →
      t.node? there = some .directory → (∀ a ∈ here :: above, a.place ≠ there) →
      Within t root start (here :: above) ⟨there, name :: here.trail⟩ (there :: jumps)

/-- A file is an entry of a directory, or a link there leads to one. -/
def HasFile (t : FileTree) (root : String) (here : Ancestor) (name : String) : Prop :=
  (∃ bytes, t.node? (name :: here.place) = some (.file bytes)) ∨
    ∃ target there bytes, t.node? (name :: here.place) = some (.link target) ∧
      t.resolve (pathOf root (name :: here.trail)) = .ok there ∧
      t.node? there = some (.file bytes)

/-! ## What a walk meets -/

section

variable {down jump : List Ancestor → Ancestor → List Entry} {above : List Ancestor}
  {here : Ancestor}

/-- What is met at an entry: a file, nothing that counts, or what is met below a directory. -/
theorem entriesAt_cases (t : FileTree) (root : String)
    (down jump : List Ancestor → Ancestor → List Entry) (above : List Ancestor) (here : Ancestor)
    (name : String) :
    t.entriesAt root down jump above here name = [.file (name :: here.trail)] ∧
        t.HasFile root here name ∨
      fileTrails (t.entriesAt root down jump above here name) = [] ∧
        ¬t.HasFile root here name ∨
      (∃ there, t.entriesAt root down jump above here name =
          down (here :: above) ⟨name :: here.place, name :: here.trail⟩ ∧
        t.node? (name :: here.place) = some .directory ∧
        t.resolve (pathOf root (name :: here.trail)) = .ok there) ∨
      ∃ target there, t.entriesAt root down jump above here name =
          jump (here :: above) ⟨there, name :: here.trail⟩ ∧
        t.node? (name :: here.place) = some (.link target) ∧
        t.resolve (pathOf root (name :: here.trail)) = .ok there ∧
        t.node? there = some .directory ∧ ∀ a ∈ here :: above, a.place ≠ there := by
  cases hentry : t.node? (name :: here.place) with
  | none => simp [entriesAt, HasFile, hentry, fileTrails]
  | some node =>
    cases node with
    | file bytes => simp [entriesAt, HasFile, hentry]
    | device device => simp [entriesAt, HasFile, hentry, fileTrails]
    | closed =>
      cases hthere : t.resolve (pathOf root (name :: here.trail)) <;>
        simp [entriesAt, HasFile, hentry, hthere, fileTrails]
    | directory =>
      cases hthere : t.resolve (pathOf root (name :: here.trail)) with
      | error fault => simp [entriesAt, HasFile, hentry, hthere, fileTrails]
      | ok there => simp [entriesAt, HasFile, hentry, hthere]
    | link target =>
      cases hthere : t.resolve (pathOf root (name :: here.trail)) with
      | error fault => simp [entriesAt, HasFile, hentry, hthere, fileTrails]
      | ok there =>
        cases hnode : t.node? there with
        | none => simp [entriesAt, HasFile, hentry, hthere, hnode, fileTrails]
        | some node =>
          cases node with
          | file bytes => simp [entriesAt, HasFile, hentry, hthere, hnode]
          | device device => simp [entriesAt, HasFile, hentry, hthere, hnode, fileTrails]
          | closed => simp [entriesAt, HasFile, hentry, hthere, hnode, fileTrails]
          | link target => simp [entriesAt, HasFile, hentry, hthere, hnode, fileTrails]
          | directory =>
            cases hfind : (here :: above).find? (·.place = there) with
            | some a => simp [entriesAt, HasFile, hentry, hthere, hnode, hfind, fileTrails]
            | none =>
              have hnew : ∀ a ∈ here :: above, a.place ≠ there := by
                simpa using List.find?_eq_none.1 hfind
              have hjump : t.entriesAt root down jump above here name =
                  jump (here :: above) ⟨there, name :: here.trail⟩ := by
                simp only [entriesAt, hentry, hthere, hnode, hfind]
              exact .inr (.inr (.inr ⟨target, there, hjump, rfl, rfl, hnode, hnew⟩))

/-- What holds of nothing, and of a directory if it holds of those that its entries lead to, holds
of every walk. -/
theorem entriesThrough_induction {P : List Ancestor → Ancestor → List Entry → Prop}
    (nil : ∀ above here, P above here [])
    (step : ∀ down jump above here, (∀ above here, P above here (down above here)) →
      (∀ above here, P above here (jump above here)) →
      P above here ((t.children here.place).flatMap (t.entriesAt root down jump above here)))
    (links : Nat) (above : List Ancestor) (here : Ancestor) :
    P above here (t.entriesThrough root links above here) := by
  have hbelow (jump : List Ancestor → Ancestor → List Entry)
      (hjump : ∀ above here, P above here (jump above here)) (depth : Nat) :
      ∀ above here, P above here (t.entriesBelow root jump depth above here) := by
    induction depth with
    | zero => exact nil
    | succ depth ih => exact fun above here => step _ _ above here ih hjump
  induction links generalizing above here with
  | zero => exact hbelow _ nil _ above here
  | succ links ih => exact hbelow _ ih _ above here

theorem fileTrails_flatMap (names : List String) (f : String → List Entry) :
    fileTrails (names.flatMap f) = names.flatMap fun name => fileTrails (f name) := by
  rw [fileTrails, List.filterMap_flatMap]
  rfl

/-- Whatever it is given, a walk meets nothing but files that can be met. -/
theorem Within.of_mem_fileTrails {jumps : List Place} {links : Nat}
    (hwithin : Within t root start above here jumps)
    (hmem : trail ∈ fileTrails (t.entriesThrough root links above here)) :
    ∃ above here jumps name, Within t root start above here jumps ∧
      trail = name :: here.trail ∧ t.HasFile root here name := by
  revert jumps trail
  refine entriesThrough_induction (P := fun above here es => ∀ {trail jumps},
    Within t root start above here jumps → trail ∈ fileTrails es →
    ∃ above here jumps name, Within t root start above here jumps ∧
      trail = name :: here.trail ∧ t.HasFile root here name) ?_ ?_ links above here
  · intro above here trail jumps _ hmem
    cases hmem
  · intro down jump above here hdown hjump trail jumps hwithin hmem
    rw [fileTrails_flatMap, List.mem_flatMap] at hmem
    obtain ⟨name, -, hmem⟩ := hmem
    obtain ⟨hes, hfile⟩ | ⟨hes, -⟩ | ⟨there, hes, hentry, hthere⟩ |
      ⟨target, there, hes, hentry, hthere, hdir, hnew⟩ :=
        entriesAt_cases t root down jump above here name
    · rw [hes, fileTrails, List.filterMap_cons] at hmem
      exact ⟨above, here, jumps, name, hwithin, List.mem_singleton.1 hmem, hfile⟩
    · rw [hes] at hmem
      cases hmem
    · rw [hes] at hmem
      exact hdown _ _ (hwithin.down hentry hthere) hmem
    · rw [hes] at hmem
      exact hjump _ _ (hwithin.jump hentry hthere hdir hnew) hmem

/-- A walk meets each file once. -/
theorem nodup_fileTrails (hwf : t.WellFormed) (links : Nat) (above : List Ancestor)
    (here : Ancestor) :
    (fileTrails (t.entriesThrough root links above here)).Nodup ∧
      ∀ trail ∈ fileTrails (t.entriesThrough root links above here),
        ∃ name, name :: here.trail <:+ trail := by
  refine entriesThrough_induction (P := fun above here es => (fileTrails es).Nodup ∧
    ∀ trail ∈ fileTrails es, ∃ name, name :: here.trail <:+ trail) ?_ ?_ links above here
  · intro above here
    exact ⟨List.nodup_nil, by simp [fileTrails]⟩
  · intro down jump above here hdown hjump
    have hentry (name : String) : (fileTrails (t.entriesAt root down jump above here name)).Nodup ∧
        ∀ trail ∈ fileTrails (t.entriesAt root down jump above here name),
          name :: here.trail <:+ trail := by
      obtain ⟨hes, -⟩ | ⟨hes, -⟩ | ⟨there, hes, -⟩ | ⟨target, there, hes, -⟩ :=
        entriesAt_cases t root down jump above here name
      · rw [hes]
        exact ⟨List.nodup_singleton _, by simp [fileTrails]⟩
      · rw [hes]
        exact ⟨List.nodup_nil, by simp⟩
      · obtain ⟨hnodup, hsuffix⟩ := hdown (here :: above) ⟨name :: here.place, name :: here.trail⟩
        rw [hes]
        refine ⟨hnodup, fun trail hmem => ?_⟩
        obtain ⟨n, hn⟩ := hsuffix trail hmem
        exact (List.suffix_cons n _).trans hn
      · obtain ⟨hnodup, hsuffix⟩ := hjump (here :: above) ⟨there, name :: here.trail⟩
        rw [hes]
        refine ⟨hnodup, fun trail hmem => ?_⟩
        obtain ⟨n, hn⟩ := hsuffix trail hmem
        exact (List.suffix_cons n _).trans hn
    rw [fileTrails_flatMap]
    constructor
    · rw [List.nodup_flatMap]
      refine ⟨fun name _ => (hentry name).1, ?_⟩
      refine (nodup_children hwf here.place).imp fun {m n} hne => ?_
      intro trail hm hn
      have hsuffix : m :: here.trail <:+ n :: here.trail :=
        List.suffix_of_suffix_length_le ((hentry m).2 trail hm) ((hentry n).2 trail hn) (by simp)
      exact hne (List.cons.inj (hsuffix.eq_of_length (by simp))).1
    · intro trail hmem
      obtain ⟨name, -, hmem⟩ := List.mem_flatMap.1 hmem
      exact ⟨name, (hentry name).2 trail hmem⟩

/-! ## A walk goes far enough -/

variable {jumps : List Place}

/-- The directories that a walk is in are those that its paths lead to. -/
theorem Within.leads (hwithin : Within t root start above here jumps) (hwf : t.WellFormed)
    (hstart : t.resolve root = .ok start) (hdir : t.node? start = some .directory) :
    ∀ a ∈ here :: above,
      t.resolve (pathOf root a.trail) = .ok a.place ∧ t.node? a.place = some .directory := by
  induction hwithin with
  | root =>
    intro a ha
    rw [List.mem_singleton.1 ha]
    exact ⟨hstart, hdir⟩
  | @down above here jumps name there _ hentry hthere ih =>
    obtain ⟨hpath, hnode⟩ := ih here List.mem_cons_self
    have hplace : there = name :: here.place := by
      obtain ⟨target, hlink⟩ | ⟨hplace, -⟩ :=
        node?_of_resolve_join hpath (hwf.isName hentry) hthere
      · rw [hentry] at hlink
        cases hlink
      · exact hplace
    intro a ha
    obtain rfl | ha := List.mem_cons.1 ha
    · exact ⟨hplace ▸ hthere, hentry⟩
    · exact ih a ha
  | @jump above here jumps name target there _ hentry hthere hnode _ ih =>
    intro a ha
    obtain rfl | ha := List.mem_cons.1 ha
    · exact ⟨hthere, hnode⟩
    · exact ih a ha

/-- The directories above one are those at the ends of its trail. -/
theorem Within.trails (hwithin : Within t root start above here jumps) :
    (here :: above).map (·.trail) = here.trail.tails := by
  induction hwithin with
  | root => rfl
  | down _ _ _ ih => rw [List.map_cons, ih, List.tails_cons]
  | jump _ _ _ _ _ ih => rw [List.map_cons, ih, List.tails_cons]

theorem Within.exists_mem (hwithin : Within t root start above here jumps)
    (htrail : trail <:+ here.trail) : ∃ a ∈ here :: above, a.trail = trail := by
  rw [← List.mem_tails, ← hwithin.trails] at htrail
  exact List.mem_map.1 htrail

/-- The directories that were entered through links are among those that a walk is in, and differ
from each other. -/
theorem Within.nodup_jumps (hwithin : Within t root start above here jumps) :
    jumps.Nodup ∧ ∀ place ∈ jumps, ∃ a ∈ here :: above, a.place = place := by
  induction hwithin with
  | root => simp
  | down _ _ _ ih =>
    refine ⟨ih.1, fun place hplace => ?_⟩
    obtain ⟨a, ha, haplace⟩ := ih.2 place hplace
    exact ⟨a, List.mem_cons_of_mem _ ha, haplace⟩
  | @jump above here jumps name target there _ _ _ _ hnew ih =>
    constructor
    · refine List.nodup_cons.2 ⟨fun hthere => ?_, ih.1⟩
      obtain ⟨a, ha, haplace⟩ := ih.2 there hthere
      exact hnew a ha haplace
    · intro place hplace
      obtain rfl | hplace := List.mem_cons.1 hplace
      · exact ⟨_, List.mem_cons_self, rfl⟩
      · obtain ⟨a, ha, haplace⟩ := ih.2 place hplace
        exact ⟨a, List.mem_cons_of_mem _ ha, haplace⟩

/-- So there are no more of them than nodes, and the root. -/
theorem Within.length_jumps_le (hwithin : Within t root start above here jumps)
    (hwf : t.WellFormed) (hstart : t.resolve root = .ok start) (hdir : t.node? start = some .directory) :
    jumps.length ≤ t.nodes.length + 1 := by
  have hsub : jumps ⊆ [] :: t.nodes.map (·.1) := by
    intro place hplace
    obtain ⟨a, ha, rfl⟩ := hwithin.nodup_jumps.2 place hplace
    have hnode := (hwithin.leads hwf hstart hdir a ha).2
    cases hname : a.place with
    | nil => exact List.mem_cons_self
    | cons name parent =>
      rw [hname] at hnode
      exact List.mem_cons_of_mem _ (List.mem_map_of_mem (mem_of_node?_eq_some hnode))
  simpa using hwithin.nodup_jumps.1.length_le_of_subset hsub

theorem length_lt_depthBound {e : Place × Node} (he : e ∈ t.nodes) :
    e.1.length < t.depthBound := by
  have hle : e.1.length ≤ (t.nodes.map fun e => e.1.length).max?.getD 0 :=
    List.le_max?_getD_of_mem (List.mem_map_of_mem he)
  rw [depthBound, List.foldl_max]
  omega

/-- What goes through the directories that links lead to, when `links` of them may be entered. -/
def jumpThrough (t : FileTree) (root : String) :
    (links : Nat) → (above : List Ancestor) → (here : Ancestor) → List Entry
  | 0 => fun _ _ => []
  | links + 1 => t.entriesThrough root links

theorem entriesThrough_eq (t : FileTree) (root : String) (links : Nat) :
    t.entriesThrough root links = t.entriesBelow root (t.jumpThrough root links) t.depthBound := by
  cases links <;> rfl

/-- What is met at an entry that is a directory, or a link to one, is met below. -/
theorem entriesAt_subset (hwf : t.WellFormed) {depth : Nat} {node : Node}
    (hentry : t.node? (name :: here.place) = some node)
    (hdepth : t.depthBound ≤ here.place.length + depth) :
    ∃ less, t.depthBound ≤ (name :: here.place).length + less ∧ ∀ root jump above,
      t.entriesAt root (t.entriesBelow root jump less) jump above here name ⊆
        t.entriesBelow root jump depth above here := by
  have hlength : (name :: here.place).length < t.depthBound :=
    length_lt_depthBound (mem_of_node?_eq_some hentry)
  rw [List.length_cons] at hlength
  obtain ⟨less, rfl⟩ : ∃ less, depth = less + 1 := ⟨depth - 1, by omega⟩
  refine ⟨less, by rw [List.length_cons]; omega, fun root jump above e he => ?_⟩
  exact List.mem_flatMap.2 ⟨name, (mem_children hwf).2 ⟨node, hentry⟩, he⟩

/-- A walk that has come to a directory has steps and links left to go through all of it. -/
theorem Within.subset_entries (hwithin : Within t root start above here jumps)
    (hwf : t.WellFormed) (hstart : t.resolve root = .ok start)
    (hdir : t.node? start = some .directory) :
    ∃ links depth, jumps.length + links = t.nodes.length + 2 ∧
      t.depthBound ≤ here.place.length + depth ∧
      t.entriesBelow root (t.jumpThrough root links) depth above here ⊆ t.entries root start := by
  induction hwithin with
  | root =>
    refine ⟨t.nodes.length + 1, t.depthBound, by rw [List.length_singleton]; omega, by omega, ?_⟩
    rw [← entriesThrough_eq]
    exact fun e he => he
  | @down above here jumps name there _ hentry hthere ih =>
    obtain ⟨links, depth, hlinks, hdepth, hsub⟩ := ih
    obtain ⟨less, hless, hat⟩ := entriesAt_subset hwf hentry hdepth
    refine ⟨links, less, hlinks, hless, fun e he => hsub (hat _ _ _ ?_)⟩
    simpa only [entriesAt, hentry, hthere] using he
  | @jump above here jumps name target there hwithin hentry hthere hnode hnew ih =>
    obtain ⟨links, depth, hlinks, hdepth, hsub⟩ := ih
    obtain ⟨less, -, hat⟩ := entriesAt_subset hwf hentry hdepth
    have hjumps : (there :: jumps).length ≤ t.nodes.length + 1 :=
      (hwithin.jump hentry hthere hnode hnew).length_jumps_le hwf hstart hdir
    rw [List.length_cons] at hjumps
    obtain ⟨links, rfl⟩ : ∃ l, links = l + 1 := ⟨links - 1, by omega⟩
    refine ⟨links, t.depthBound, by rw [List.length_cons]; omega, by omega, fun e he => ?_⟩
    have hfind : (here :: above).find? (·.place = there) = none :=
      List.find?_eq_none.2 (by simpa using hnew)
    rw [← entriesThrough_eq] at he
    refine hsub (hat _ _ _ ?_)
    simp only [entriesAt, hentry, hthere, hnode, hfind]
    exact he

/-- **What a walk meets.** The files that are met below the directory that a root leads to are those
that can be met. -/
theorem mem_fileTrails_entries (hwf : t.WellFormed) (hstart : t.resolve root = .ok start)
    (hdir : t.node? start = some .directory) :
    trail ∈ fileTrails (t.entries root start) ↔
      ∃ above here jumps name, Within t root start above here jumps ∧
        trail = name :: here.trail ∧ t.HasFile root here name := by
  constructor
  · intro hmem
    exact Within.root.of_mem_fileTrails hmem
  · rintro ⟨above, here, jumps, name, hwithin, rfl, hfile⟩
    obtain ⟨links, depth, -, hdepth, hsub⟩ := hwithin.subset_entries hwf hstart hdir
    have hentry : ∃ node, t.node? (name :: here.place) = some node := by
      obtain ⟨bytes, h⟩ | ⟨target, there, bytes, h, -⟩ := hfile
      · exact ⟨_, h⟩
      · exact ⟨_, h⟩
    obtain ⟨node, hentry⟩ := hentry
    obtain ⟨less, -, hat⟩ := entriesAt_subset hwf hentry hdepth
    refine List.mem_filterMap.2 ⟨.file (name :: here.trail), hsub (hat _ _ _ ?_), rfl⟩
    obtain ⟨bytes, h⟩ | ⟨target, there, bytes, h, hthere, hnode⟩ := hfile
    · simp [entriesAt, h]
    · simp [entriesAt, h, hthere, hnode]

end

/-! ## Sources and walks -/

/-- A walk comes to the directory at a trail if each part of the trail leads to a directory, and no
link on it to one that a part before the link leads to. -/
theorem exists_within (hwf : t.WellFormed) (hstart : t.resolve root = .ok start)
    (hdir : t.node? start = some .directory)
    (hnames : ∀ name ∈ trail, Path.isName name = true)
    (hdirs : ∀ above, above <:+ trail → t.nodeAt (pathOf root above) = .ok .directory)
    (hloop : ∀ link target, link <:+ trail → t.entryAt? root link = some (.link target) →
      ∀ above, above <:+ link → above ≠ link →
        t.resolve (pathOf root above) ≠ t.resolve (pathOf root link)) :
    ∃ above here jumps, Within t root start above here jumps ∧ here.trail = trail := by
  induction trail with
  | nil => exact ⟨[], ⟨start, []⟩, [start], .root, rfl⟩
  | cons name trail ih =>
    have hsuffix : trail <:+ name :: trail := List.suffix_cons name trail
    obtain ⟨above, here, jumps, hwithin, rfl⟩ := ih
      (fun n hn => hnames n (List.mem_cons_of_mem _ hn))
      (fun above h => hdirs above (h.trans hsuffix))
      (fun link target h => hloop link target (h.trans hsuffix))
    obtain ⟨hpath, hnode⟩ := hwithin.leads hwf hstart hdir here List.mem_cons_self
    obtain ⟨there, hthere, htherenode⟩ := nodeAt_eq_ok_iff.1 (hdirs _ List.suffix_rfl)
    obtain ⟨target, hlink⟩ | ⟨rfl, -⟩ :=
      node?_of_resolve_join hpath (hnames name (by simp)) hthere
    · have hnew : ∀ a ∈ here :: above, a.place ≠ there := by
        intro a ha hplace
        have hentry : t.entryAt? root (name :: here.trail) = some (.link target) := by
          rw [entryAt?, hpath]
          exact hlink
        have htrail : a.trail <:+ here.trail := by
          rw [← List.mem_tails, ← hwithin.trails]
          exact List.mem_map_of_mem ha
        have hne : a.trail ≠ name :: here.trail := by
          intro heq
          have hlength := htrail.length_le
          rw [heq, List.length_cons] at hlength
          omega
        refine hloop _ target List.suffix_rfl hentry a.trail (htrail.trans hsuffix) hne ?_
        rw [(hwithin.leads hwf hstart hdir a ha).1, hthere, hplace]
      exact ⟨_, _, _, hwithin.jump hlink hthere htherenode hnew, rfl⟩
    · exact ⟨_, _, _, hwithin.down htherenode hthere, rfl⟩

section

variable {above : List Ancestor} {here : Ancestor} {jumps : List Place}

theorem Within.names (hwithin : Within t root start above here jumps) (hwf : t.WellFormed) :
    ∀ name ∈ here.trail, Path.isName name = true := by
  induction hwithin with
  | root => simp
  | down _ hentry _ ih => exact List.forall_mem_cons.2 ⟨hwf.isName hentry, ih⟩
  | jump _ hentry _ _ _ ih => exact List.forall_mem_cons.2 ⟨hwf.isName hentry, ih⟩

theorem Within.nodeAt (hwithin : Within t root start above here jumps) (hwf : t.WellFormed)
    (hstart : t.resolve root = .ok start) (hdir : t.node? start = some .directory)
    (htrail : trail <:+ here.trail) : t.nodeAt (pathOf root trail) = .ok .directory := by
  obtain ⟨a, ha, rfl⟩ := hwithin.exists_mem htrail
  obtain ⟨hpath, hnode⟩ := hwithin.leads hwf hstart hdir a ha
  exact nodeAt_eq_ok_iff.2 ⟨a.place, hpath, hnode⟩

theorem Within.no_loop (hwithin : Within t root start above here jumps) (hwf : t.WellFormed)
    (hstart : t.resolve root = .ok start) (hdir : t.node? start = some .directory) :
    ∀ link target, link <:+ here.trail → t.entryAt? root link = some (.link target) →
      ∀ higher, higher <:+ link → higher ≠ link →
        t.resolve (pathOf root higher) ≠ t.resolve (pathOf root link) := by
  induction hwithin with
  | root =>
    intro link target hlink hentry
    rw [List.suffix_nil.1 hlink] at hentry
    cases hentry
  | @down above here jumps name there hwithin hdirectory _ ih =>
    intro link target hlink hentry
    obtain rfl | hlink := List.suffix_cons_iff.1 hlink
    · obtain ⟨hpath, -⟩ := hwithin.leads hwf hstart hdir here List.mem_cons_self
      rw [entryAt?, hpath] at hentry
      cases hdirectory.symm.trans hentry
    · exact ih link target hlink hentry
  | @jump above here jumps name target there hwithin _ hthere _ hnew ih =>
    intro link target hlink hentry
    obtain rfl | hlink := List.suffix_cons_iff.1 hlink
    · intro higher hhigher hne
      obtain heq | hhigher := List.suffix_cons_iff.1 hhigher
      · exact absurd heq hne
      · obtain ⟨a, ha, rfl⟩ := hwithin.exists_mem hhigher
        rw [hthere, (hwithin.leads hwf hstart hdir a ha).1]
        exact fun heq => hnew a ha (Except.ok.inj heq)
    · exact ih link target hlink hentry

end

/-- A walk can meet what is to be found. -/
theorem IsSource.exists_within (hsource : t.IsSource extension root (name :: trail))
    (hwf : t.WellFormed) (hstart : t.resolve root = .ok start)
    (hdir : t.node? start = some .directory) :
    ∃ above here jumps, Within t root start above here jumps ∧ here.trail = trail ∧
      t.HasFile root here name := by
  have hsuffix : trail <:+ name :: trail := List.suffix_cons name trail
  have hname : Path.isName name = true := hsource.names name List.mem_cons_self
  have hdirs : ∀ above, above <:+ trail → t.nodeAt (pathOf root above) = .ok .directory := by
    intro above habove
    refine hsource.directories above (habove.trans hsuffix) fun heq => ?_
    have hlength := habove.length_le
    rw [heq, List.length_cons] at hlength
    omega
  obtain ⟨above, here, jumps, hwithin, rfl⟩ := FileTree.exists_within hwf hstart hdir
    (fun n hn => hsource.names n (List.mem_cons_of_mem _ hn)) hdirs
    (fun link target h => hsource.no_loop link target (h.trans hsuffix))
  refine ⟨above, here, jumps, hwithin, rfl, ?_⟩
  obtain ⟨hpath, hnode⟩ := hwithin.leads hwf hstart hdir here List.mem_cons_self
  obtain ⟨bytes, hfile | ⟨-, hentry⟩⟩ := hsource.file
  · obtain ⟨there, hthere, htherenode⟩ := nodeAt_eq_ok_iff.1 hfile
    obtain ⟨target, hlink⟩ | ⟨rfl, -⟩ :=
      node?_of_resolve_join hpath hname hthere
    · exact .inr ⟨target, there, bytes, hlink, hthere, htherenode⟩
    · exact .inl ⟨bytes, htherenode⟩
  · rw [entryAt?, hpath] at hentry
    exact .inl ⟨bytes, hentry⟩

section

variable {above : List Ancestor} {here : Ancestor} {jumps : List Place}

theorem HasFile.isName (hfile : t.HasFile root here name) (hwf : t.WellFormed) :
    Path.isName name = true := by
  obtain ⟨bytes, h⟩ | ⟨target, there, bytes, h, -⟩ := hfile
  · exact hwf.isName h
  · exact hwf.isName h

/-- What a walk can meet is to be found if it has the extension. -/
theorem Within.isSource (hwithin : Within t root start above here jumps)
    (hfile : t.HasFile root here name) (hnamed : Path.hasExtension extension name = true)
    (hwf : t.WellFormed) (hstart : t.resolve root = .ok start)
    (hdir : t.node? start = some .directory) :
    t.IsSource extension root (name :: here.trail) := by
  obtain ⟨hpath, hnode⟩ := hwithin.leads hwf hstart hdir here List.mem_cons_self
  have hname : Path.isName name = true := hfile.isName hwf
  have hentry : t.entryAt? root (name :: here.trail) = t.node? (name :: here.place) := by
    rw [entryAt?, hpath]
  constructor
  case names => exact List.forall_mem_cons.2 ⟨hname, hwithin.names hwf⟩
  case directories =>
    intro above habove hne
    obtain heq | habove := List.suffix_cons_iff.1 habove
    · exact absurd heq hne
    · exact hwithin.nodeAt hwf hstart hdir habove
  case no_loop =>
    intro link target hlink hlinkentry
    obtain rfl | hlink := List.suffix_cons_iff.1 hlink
    · -- the whole path leads to a file, and what is above it to directories
      intro higher hhigher hne heq
      obtain hhigher | hhigher := List.suffix_cons_iff.1 hhigher
      · exact hne hhigher
      obtain ⟨place, hplace, hplacenode⟩ :=
        nodeAt_eq_ok_iff.1 (hwithin.nodeAt hwf hstart hdir hhigher)
      obtain ⟨bytes, h⟩ | ⟨target', there, bytes, h, hthere, htherenode⟩ := hfile
      · cases (hentry.symm.trans hlinkentry).symm.trans h
      · cases (hplace.symm.trans heq).trans hthere
        cases hplacenode.symm.trans htherenode
    · exact hwithin.no_loop hwf hstart hdir link target hlink hlinkentry
  case file =>
    obtain ⟨bytes, h⟩ | ⟨target, there, bytes, h, hthere, htherenode⟩ := hfile
    · refine ⟨bytes, ?_⟩
      by_cases hlong : pathLimit < (pathOf root (name :: here.trail)).utf8ByteSize
      · exact .inr ⟨hlong, hentry.trans h⟩
      · have hresolve : t.resolve (pathOf root (name :: here.trail)) = .ok (name :: here.place) :=
          resolve_join hpath (isDirectory_iff.2 (.inl hnode)) hname h (by simp) (Nat.not_lt.1 hlong)
        exact .inl (nodeAt_eq_ok_iff.2 ⟨_, hresolve, h⟩)
    · exact ⟨bytes, .inl (nodeAt_eq_ok_iff.2 ⟨there, hthere, htherenode⟩)⟩
  case named =>
    rw [pathOf_cons, Path.fileName_join hname]
    exact hnamed

end

/-! ## The list of sources -/

theorem not_isSource_nil (hdir : t.nodeAt root = .ok .directory) :
    ¬t.IsSource extension root [] := by
  intro hsource
  obtain ⟨bytes, hfile | ⟨-, hentry⟩⟩ := hsource.file
  · cases hdir.symm.trans hfile
  · cases hentry

/-- The names that are found below a directory are those of its sources. -/
theorem mem_sourceNames (hwf : t.WellFormed) (hstart : t.resolve root = .ok start)
    (hdir : t.node? start = some .directory) {names : List String} :
    names ∈ t.sourceNames extension root start ↔ t.IsSource extension root names.reverse := by
  have hmem : names ∈ t.sourceNames extension root start ↔
      names.reverse ∈ fileTrails (t.entries root start) ∧
        trailHasExtension extension names.reverse = true := by
    simp only [sourceNames, List.mem_mergeSort, List.mem_map, List.mem_filter]
    constructor
    · rintro ⟨trail, htrail, rfl⟩
      rwa [List.reverse_reverse]
    · intro htrail
      exact ⟨names.reverse, htrail, List.reverse_reverse names⟩
  rw [hmem, mem_fileTrails_entries hwf hstart hdir]
  constructor
  · rintro ⟨⟨above, here, jumps, name, hwithin, htrail, hfile⟩, hnamed⟩
    rw [htrail] at hnamed ⊢
    exact hwithin.isSource hfile hnamed hwf hstart hdir
  · intro hsource
    cases htrail : names.reverse with
    | nil =>
      rw [htrail] at hsource
      exact absurd hsource (not_isSource_nil (nodeAt_eq_ok_iff.2 ⟨start, hstart, hdir⟩))
    | cons name trail =>
      rw [htrail] at hsource
      obtain ⟨above, here, jumps, hwithin, rfl, hfile⟩ := hsource.exists_within hwf hstart hdir
      have hnamed := hsource.named
      rw [pathOf_cons, Path.fileName_join (hfile.isName hwf)] at hnamed
      exact ⟨⟨above, here, jumps, name, hwithin, rfl, hfile⟩, hnamed⟩

theorem foldl_join (root : String) (names : List String) :
    names.foldl Path.join root = pathOf root names.reverse := by
  rw [pathOf, List.foldr_reverse]

theorem pairwise_sourceNames (hwf : t.WellFormed) (hstart : t.resolve root = .ok start)
    (hdir : t.node? start = some .directory) :
    ((t.sourceNames extension root start).map fun names => names.foldl Path.join root).Pairwise
      Path.Precedes := by
  have hnodup : (((fileTrails (t.entries root start)).filter
      (trailHasExtension extension)).map List.reverse).Nodup :=
    ((nodup_fileTrails hwf _ _ _).1.filter _).map List.reverse_injective
  rw [List.pairwise_map]
  refine (pairwise_mergeSort_namesBefore hnodup).imp_of_mem ?_
  intro as bs has hbs hlt
  have hsegments {names : List String} (h : names ∈ t.sourceNames extension root start) :
      Path.segments (names.foldl Path.join root) = Path.segments root ++ names := by
    rw [foldl_join, segments_pathOf ((mem_sourceNames hwf hstart hdir).1 h).names,
      List.reverse_reverse]
  rw [Path.Precedes, hsegments has, hsegments hbs, List.map_append, List.map_append]
  exact List.append_left_lt hlt

/-- A root that is no directory is the only path that can be a source. -/
theorem IsSource.eq_nil (hsource : t.IsSource extension root trail) {node : Node}
    (hroot : t.nodeAt root = .ok node) (hnode : node ≠ .directory) :
    trail = [] ∧ ∃ bytes, node = .file bytes := by
  obtain rfl : trail = [] := by
    by_contra hne
    have hdir := hsource.directories [] List.nil_suffix (Ne.symm hne)
    exact hnode (Except.ok.inj (hroot.symm.trans hdir))
  obtain ⟨bytes, hfile | ⟨-, hentry⟩⟩ := hsource.file
  · exact ⟨rfl, bytes, Except.ok.inj (hroot.symm.trans hfile)⟩
  · cases hentry

theorem isSource_nil {bytes : List UInt8} (hroot : t.nodeAt root = .ok (.file bytes)) :
    t.IsSource extension root [] ↔ Path.hasExtension extension (Path.fileName root) = true := by
  refine ⟨fun hsource => hsource.named, fun hnamed => ?_⟩
  constructor
  case names => simp
  case directories =>
    intro above habove hne
    exact absurd (List.suffix_nil.1 habove) hne
  case no_loop =>
    intro link target hlink hentry
    rw [List.suffix_nil.1 hlink] at hentry
    cases hentry
  case file => exact ⟨bytes, .inl hroot⟩
  case named => exact hnamed

/-- What is listed for a root that leads somewhere. -/
theorem exists_sources (hwf : t.WellFormed) {node : Node} (hroot : t.nodeAt root = .ok node)
    (extension : String) :
    ∃ paths, t.sources extension root = .ok paths ∧ paths.Pairwise Path.Precedes ∧
      ∀ path, path ∈ paths ↔
        ∃ trail, path = pathOf root trail ∧ t.IsSource extension root trail := by
  obtain ⟨start, hstart, hnode⟩ := nodeAt_eq_ok_iff.1 hroot
  have hnone (hnode : ∀ bytes, node ≠ .file bytes) (hdir : node ≠ .directory) (path : String) :
      path ∈ [] ↔ ∃ trail, path = pathOf root trail ∧ t.IsSource extension root trail := by
    refine ⟨fun hpath => absurd hpath List.not_mem_nil, ?_⟩
    rintro ⟨trail, -, hsource⟩
    obtain ⟨bytes, hbytes⟩ := (hsource.eq_nil hroot hdir).2
    exact absurd hbytes (hnode bytes)
  cases node with
  | directory =>
    have hlist : t.sources extension root = .ok ((t.sourceNames extension root start).map
        fun names => names.foldl Path.join root) := by
      simp only [sources, hstart, bind, Except.bind, hnode]
    refine ⟨_, hlist, pairwise_sourceNames hwf hstart hnode, fun path => ?_⟩
    rw [List.mem_map]
    constructor
    · rintro ⟨names, hnames, rfl⟩
      exact ⟨names.reverse, foldl_join root names, (mem_sourceNames hwf hstart hnode).1 hnames⟩
    · rintro ⟨trail, rfl, hsource⟩
      rw [← List.reverse_reverse trail] at hsource
      refine ⟨trail.reverse, (mem_sourceNames hwf hstart hnode).2 hsource, ?_⟩
      rw [foldl_join, List.reverse_reverse]
  | file bytes =>
    have hlist : t.sources extension root =
        .ok (if Path.hasExtension extension (Path.fileName root) then [root] else []) := by
      simp only [sources, hstart, bind, Except.bind, hnode]
    refine ⟨_, hlist, by split <;> simp, fun path => ?_⟩
    have hmem : path ∈ (if Path.hasExtension extension (Path.fileName root) then [root] else []) ↔
        path = root ∧ t.IsSource extension root [] := by
      rw [isSource_nil hroot]
      split <;> simp [*]
    rw [hmem]
    constructor
    · rintro ⟨rfl, hsource⟩
      exact ⟨[], rfl, hsource⟩
    · rintro ⟨trail, rfl, hsource⟩
      obtain ⟨rfl, -⟩ := hsource.eq_nil hroot (by simp)
      exact ⟨rfl, hsource⟩
  | link target =>
    exact ⟨[], by simp only [sources, hstart, bind, Except.bind, hnode], .nil,
      hnone (by simp) (by simp)⟩
  | device device =>
    exact ⟨[], by simp only [sources, hstart, bind, Except.bind, hnode], .nil,
      hnone (by simp) (by simp)⟩
  | closed =>
    exact ⟨[], by simp only [sources, hstart, bind, Except.bind, hnode], .nil,
      hnone (by simp) (by simp)⟩

/-! ## Trees with the same nodes -/

theorem isSource_congr {t' : FileTree} (hnode : ∀ place, t'.node? place = t.node? place)
    (hhome : t'.home = t.home) :
    t'.IsSource extension root trail ↔ t.IsSource extension root trail := by
  have hentry (trail : Trail) : t'.entryAt? root trail = t.entryAt? root trail := by
    cases trail with
    | nil => rfl
    | cons name above => simp only [entryAt?, resolve_congr hnode hhome, hnode]
  constructor
  · rintro ⟨names, directories, no_loop, file, named⟩
    simp only [nodeAt_congr hnode hhome, resolve_congr hnode hhome, hentry] at *
    exact ⟨names, directories, no_loop, file, named⟩
  · rintro ⟨names, directories, no_loop, file, named⟩
    simp only [← nodeAt_congr hnode hhome, ← resolve_congr hnode hhome, ← hentry] at *
    exact ⟨names, directories, no_loop, file, named⟩

/-- In whatever order nodes are stored, the same is listed. -/
theorem exists_sources_perm (hwf : t.WellFormed) {t' : FileTree}
    (hperm : t'.nodes.Perm t.nodes) (hhome : t'.home = t.home) {node : Node}
    (hroot : t.nodeAt root = .ok node) (extension : String) :
    ∃ paths, t.sources extension root = .ok paths ∧ t'.sources extension root = .ok paths := by
  have hnode := hwf.node?_perm hperm
  have hroot' : t'.nodeAt root = .ok node := by rw [nodeAt_congr hnode hhome, hroot]
  obtain ⟨paths, hpaths, hsorted, hmem⟩ := exists_sources hwf hroot extension
  obtain ⟨paths', hpaths', hsorted', hmem'⟩ :=
    exists_sources (hwf.of_perm hperm hhome) hroot' extension
  have hsame : ∀ path, path ∈ paths' ↔ path ∈ paths := by
    intro path
    rw [hmem', hmem]
    simp only [isSource_congr hnode hhome]
  exact ⟨paths, hpaths, Path.Precedes.eq_of_mem_iff hsorted' hsorted hsame ▸ hpaths'⟩

end FileTree

end Files

open Files

/-- **Sources are found exactly.** A root that leads nowhere is reported. For any other root the
paths that are listed are those of its sources, in strictly increasing order. The order in which
directories list their entries has no influence. -/
theorem Harvester.sources_exact (h : Harvester) {files : FileTree} (hwf : files.WellFormed)
    (root : String) :
    (∀ fault, files.nodeAt root = .error fault →
      h.sources files root = .error (.directoryNotFound root)) ∧
    (∀ node, files.nodeAt root = .ok node →
      ∃ paths, h.sources files root = .ok paths ∧ paths.Pairwise Path.Precedes ∧
        ∀ path, path ∈ paths ↔
          ∃ trail, path = FileTree.pathOf root trail ∧ files.IsSource h.extension root trail) ∧
    ∀ files' : FileTree, files'.nodes.Perm files.nodes → files'.home = files.home →
      h.sources files' root = h.sources files root := by
  refine ⟨fun fault hroot => sources_of_nodeAt_error hroot h, fun node hroot => ?_,
    fun files' hperm hhome => ?_⟩
  · obtain ⟨paths, hpaths, hsorted, hmem⟩ := FileTree.exists_sources hwf hroot h.extension
    refine ⟨paths, ?_, hsorted, hmem⟩
    rw [sources, hpaths]
    rfl
  · cases hroot : files.nodeAt root with
    | error fault =>
      have hroot' : files'.nodeAt root = .error fault := by
        rw [FileTree.nodeAt_congr (hwf.node?_perm hperm) hhome, hroot]
      rw [sources_of_nodeAt_error hroot, sources_of_nodeAt_error hroot']
    | ok node =>
      obtain ⟨paths, hpaths, hpaths'⟩ :=
        FileTree.exists_sources_perm hwf hperm hhome hroot h.extension
      rw [sources, sources, hpaths, hpaths']

/-- A source below a directory that a link leads to, and links that lead back and nowhere. -/
def linkedSources : FileTree where
  nodes := [(["src"], .directory), (["A.java", "src"], .file []), (["back", "src"], .link "."),
    (["gone", "src"], .link "nowhere"), (["other", "src"], .link "../lib"), (["lib"], .directory),
    (["B.java", "lib"], .file []), (["src", "lib"], .link "../src")]

theorem sources_linkedSources :
    ({} : Harvester).sources linkedSources "src" = .ok ["src/A.java", "src/other/B.java"] := by
  have htrails : (FileTree.fileTrails (linkedSources.entries "src" ["src"])).filter
      (FileTree.trailHasExtension "java") = [["A.java"], ["B.java", "other"]] := by
    decide +kernel
  have hnames : linkedSources.sourceNames "java" "src" ["src"] =
      [["A.java"], ["other", "B.java"]] := by
    rw [FileTree.sourceNames, htrails]
    exact List.mergeSort_of_pairwise (by decide)
  have hsources : linkedSources.sources "java" "src" =
      .ok ((linkedSources.sourceNames "java" "src" ["src"]).map fun names =>
        names.foldl Path.join "src") := rfl
  rw [Harvester.sources, hsources, hnames]
  rfl

/-- The links are followed as far as they do not lead back. -/
theorem Harvester.sources_exact_linkedSources : linkedSources.WellFormed ∧
    linkedSources.nodeAt "src" = .ok .directory ∧
    ({} : Harvester).sources linkedSources "src" = .ok ["src/A.java", "src/other/B.java"] ∧
    ["src/A.java", "src/other/B.java"].Pairwise Path.Precedes ∧
    ∃ trail, "src/other/B.java" = FileTree.pathOf "src" trail ∧
      linkedSources.IsSource "java" "src" trail := by
  have hwf : linkedSources.WellFormed := by decide
  obtain ⟨paths, hpaths, hsorted, hmem⟩ :=
    (Harvester.sources_exact {} hwf "src").2.1 .directory rfl
  cases sources_linkedSources.symm.trans hpaths
  exact ⟨hwf, rfl, sources_linkedSources, hsorted, (hmem "src/other/B.java").1 (by simp)⟩

/-! ## A path that is too long -/

/-- The current directory, with slashes behind it. -/
def slashed (n : Nat) : String :=
  "." ++ String.ofList (List.replicate n '/')

theorem toList_slashed (n : Nat) : (slashed n).toList = '.' :: List.replicate n '/' := by
  simp [slashed]

theorem segments_slashed (n : Nat) : Path.segments (slashed n) = ["."] := by
  induction n with
  | zero => rfl
  | succ n ih =>
    have hslash : (slashed (n + 1)).toList = (slashed n).toList ++ '/' :: [] := by
      rw [toList_slashed, toList_slashed, List.replicate_succ', List.cons_append]
    rw [Path.segments_of_toList_eq hslash (q := "") rfl, ih]
    rfl

theorem utf8ByteSize_slashed (n : Nat) : (slashed n).utf8ByteSize = n + 1 := by
  induction n with
  | zero => rfl
  | succ n ih =>
    have hslash : slashed (n + 1) = slashed n ++ "/" := by
      rw [← String.toList_inj, String.toList_append, toList_slashed, toList_slashed,
        List.replicate_succ', List.cons_append]
      rfl
    rw [hslash, String.utf8ByteSize_append, ih]
    rfl

theorem endsInSlash_slashed (n : Nat) : Path.endsInSlash (slashed (n + 1)) = true := by
  refine Path.endsInSlash_iff.2 ⟨'.' :: List.replicate n '/', ?_⟩
  rw [toList_slashed, List.replicate_succ', List.cons_append]

/-- A single source. -/
def oneSource : FileTree where
  nodes := [(["A.java"], .file [])]

theorem resolve_slashed {n : Nat} (h : n + 2 ≤ FileTree.pathLimit) :
    oneSource.resolve (slashed (n + 1)) = .ok [] := by
  have hcheck : FileTree.checkPath (slashed (n + 1)) = .ok () := by
    rw [FileTree.checkPath_eq_ok_iff, toList_slashed, utf8ByteSize_slashed]
    refine ⟨by simp, fun hempty => ?_, h⟩
    have hsize := congrArg String.utf8ByteSize hempty
    rw [utf8ByteSize_slashed] at hsize
    exact absurd hsize (by simp)
  have hsteps : Path.steps (slashed (n + 1)) = [".", "."] := by
    rw [Path.steps, segments_slashed, endsInSlash_slashed]
    rfl
  have hstart : FileTree.startOf (slashed (n + 1)) oneSource.home = [] := by
    rw [FileTree.startOf]
    split <;> rfl
  rw [FileTree.resolve_eq_ok_iff, hstart, hsteps]
  exact ⟨hcheck, FileTree.linkLimit, .stay rfl (.stay rfl .done)⟩

theorem sources_slashed {n : Nat} (h : n + 2 ≤ FileTree.pathLimit) :
    oneSource.sources "java" (slashed (n + 1)) = .ok [slashed (n + 1) ++ "A.java"] := by
  have htrails (root : String) : (FileTree.fileTrails (oneSource.entries root [])).filter
      (FileTree.trailHasExtension "java") = [["A.java"]] := rfl
  have hnames : oneSource.sourceNames "java" (slashed (n + 1)) [] = [["A.java"]] := by
    rw [FileTree.sourceNames, htrails]
    exact List.mergeSort_singleton _
  have hjoin : Path.join (slashed (n + 1)) "A.java" = slashed (n + 1) ++ "A.java" := by
    rw [Path.join, if_pos (endsInSlash_slashed n)]
  rw [FileTree.sources, resolve_slashed h, ← hjoin]
  show Except.ok ((oneSource.sourceNames "java" (slashed (n + 1)) []).map _) = _
  rw [hnames]
  rfl

theorem nodeAt_slashed_eq_tooLong {n : Nat} (h : FileTree.pathLimit < n + 7) :
    oneSource.nodeAt (slashed n ++ "A.java") = .error .tooLong := by
  have hcheck : FileTree.checkPath (slashed n ++ "A.java") = .error .tooLong := by
    have hnul : (slashed n ++ "A.java").toList.contains '\x00' = false := by
      rw [String.toList_append, toList_slashed]
      simp
    have hsize : (slashed n ++ "A.java").utf8ByteSize = n + 7 := by
      rw [String.utf8ByteSize_append, utf8ByteSize_slashed]
      rfl
    have hne : slashed n ++ "A.java" ≠ "" := by
      intro hempty
      rw [hempty] at hsize
      exact absurd hsize (by simp)
    rw [FileTree.checkPath, hnul, if_neg (by simp), if_neg hne, hsize, if_pos h]
  rw [FileTree.nodeAt, FileTree.resolve, FileTree.resolveFrom, hcheck]
  rfl

/-- A file is listed without being looked at, so its path may be too long to lead to it. -/
theorem Harvester.sources_tooLong : oneSource.WellFormed ∧
    ({} : Harvester).sources oneSource (slashed 4090) = .ok [slashed 4090 ++ "A.java"] ∧
    oneSource.nodeAt (slashed 4090 ++ "A.java") = .error .tooLong := by
  refine ⟨by decide, ?_, nodeAt_slashed_eq_tooLong (by decide)⟩
  rw [Harvester.sources, sources_slashed (n := 4089) (by decide)]
  rfl

end PatternHarvest
