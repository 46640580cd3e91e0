import PatternHarvest.Files.Tree
import PatternHarvest.Proofs.Results
import Mathlib.Data.List.Basic

/-!
# Following paths

To follow a path is to take its steps one after the other, with a number of links left to go
through. So following two sequences of steps behind each other is following the first, and then the
second from where it has led with the links that are left (`FileTree.leads_append_iff`). What a name
below a path leads to is settled in the directory that the path leads to
(`FileTree.resolve_join`), as long as the whole is not too long.

A tree is well formed if its nodes are where nodes can be: one at a place, under a name that an
entry of a directory can have, and in a directory (`FileTree.WellFormed`). What a path leads to
depends on the nodes at places alone, not on the order in which they are stored
(`FileTree.resolve_congr`).
-/

namespace PatternHarvest.Files

namespace Path

/-! ## Segments -/

/-- Whether an entry of a directory can have the name. -/
def isName (name : String) : Bool :=
  name ≠ "" && name ≠ "." && name ≠ ".." && !name.toList.contains '/' &&
    !name.toList.contains '\x00' && name.utf8ByteSize ≤ 255

variable {path name : String}

theorem split_append_slash (s u : List Char) : split (s ++ '/' :: u) = split s ++ split u := by
  have hne (s : List Char) : split s ≠ [] := by
    cases s with
    | nil => simp [split]
    | cons c s =>
      rw [split]
      split
      · simp
      · split <;> simp
  induction s with
  | nil => simp [split]
  | cons c s ih =>
    by_cases hc : c = '/'
    · simp [split, hc, ih]
    · obtain ⟨p, ps, hps⟩ := List.exists_cons_of_ne_nil (hne s)
      simp [split, hc, ih, hps]

theorem split_of_notMem {s : List Char} (h : '/' ∉ s) : split s = [s] := by
  induction s with
  | nil => rfl
  | cons c s ih =>
    obtain ⟨hc, hs⟩ := not_or.1 fun hmem => h (List.mem_cons.2 hmem)
    rw [split, if_neg (Ne.symm hc), ih hs]

theorem segments_of_toList_eq {p q : String} {s : List Char}
    (h : path.toList = p.toList ++ '/' :: s) (hq : q.toList = s) :
    segments path = segments p ++ segments q := by
  simp only [segments, h, hq, split_append_slash, List.filter_append, List.map_append]

theorem segments_of_isName (h : isName name = true) : segments name = [name] := by
  simp only [isName, Bool.and_eq_true, Bool.not_eq_true', decide_eq_true_eq] at h
  have hslash : '/' ∉ name.toList := by simpa using h.1.1.2
  have hne : name.toList ≠ [] := by simpa using h.1.1.1.1.1
  simp [segments, split_of_notMem hslash, hne]

theorem endsInSlash_iff : endsInSlash path = true ↔ ∃ s, path.toList = s ++ ['/'] := by
  simp only [endsInSlash, beq_iff_eq, List.getLast?_eq_some_iff]

theorem segments_join (h : isName name = true) :
    segments (join path name) = segments path ++ [name] := by
  rw [← segments_of_isName h]
  unfold join
  split
  next hslash =>
    obtain ⟨s, hs⟩ := endsInSlash_iff.1 hslash
    have hpath : segments path = segments (String.ofList s) ++ segments "" :=
      segments_of_toList_eq (s := []) (by rw [hs, String.toList_ofList]) rfl
    have hjoin : segments (path ++ name) = segments (String.ofList s) ++ segments name :=
      segments_of_toList_eq (s := name.toList)
        (by rw [String.toList_append, hs, String.toList_ofList]; simp) rfl
    rw [hjoin, hpath]
    simp [segments, split]
  next =>
    exact segments_of_toList_eq (s := name.toList)
      (by rw [String.toList_append, String.toList_append]; simp) rfl

theorem ne_empty_of_isName (h : isName name = true) : name.toList ≠ [] := by
  simp only [isName, Bool.and_eq_true, decide_eq_true_eq] at h
  simpa using h.1.1.1.1.1

theorem toList_join (path name : String) :
    (join path name).toList =
      path.toList ++ (if endsInSlash path then [] else ['/']) ++ name.toList := by
  unfold join
  split <;> simp

theorem endsInSlash_join (h : isName name = true) : endsInSlash (join path name) = false := by
  have hlast : (join path name).toList.getLast? = name.toList.getLast? := by
    rw [toList_join, List.getLast?_append]
    cases hname : name.toList.getLast? with
    | some c => rfl
    | none => exact absurd (List.getLast?_eq_none_iff.1 hname) (ne_empty_of_isName h)
  have hslash : '/' ∉ name.toList := by
    simp only [isName, Bool.and_eq_true, Bool.not_eq_true'] at h
    simpa using h.1.1.2
  rw [endsInSlash, hlast, beq_eq_false_iff_ne]
  exact fun hc => hslash (List.mem_of_getLast? hc)

theorem steps_join (h : isName name = true) : steps (join path name) = segments path ++ [name] := by
  rw [steps, endsInSlash_join h, segments_join h]
  simp

theorem isAbsolute_join (hpath : path ≠ "") : isAbsolute (join path name) = isAbsolute path := by
  obtain ⟨c, s, hs⟩ := List.exists_cons_of_ne_nil (l := path.toList) (by simpa using hpath)
  rw [isAbsolute, toList_join, hs]
  simp [isAbsolute, hs]

/-- The file at a path that ends with a name is called by that name. -/
theorem fileName_join (h : isName name = true) : fileName (join path name) = name := by
  have hdots : name ≠ "." ∧ name ≠ ".." := by
    simp only [isName, Bool.and_eq_true, decide_eq_true_eq] at h
    exact ⟨h.1.1.1.1.2, h.1.1.1.2⟩
  simp [fileName, segments_join h, hdots.1, hdots.2]

end Path

namespace FileTree

/-! ## Well-formed trees -/

/-- Whether a node can stand at a place: under the name of an entry, in a directory. -/
def isPlaced (t : FileTree) : Place → Bool
  | [] => false
  | name :: parent => Path.isName name && t.isDirectory parent

/-- Nodes are where nodes can be, and alone there. Relative paths start from a directory. -/
structure WellFormed (t : FileTree) : Prop where
  nodup : (t.nodes.map (·.1)).Nodup
  placed : ∀ e ∈ t.nodes, t.isPlaced e.1 = true
  home : t.isDirectory t.home = true

instance (t : FileTree) : Decidable t.WellFormed :=
  decidable_of_iff ((t.nodes.map (·.1)).Nodup ∧ (∀ e ∈ t.nodes, t.isPlaced e.1 = true) ∧
      t.isDirectory t.home = true)
    ⟨fun ⟨nodup, placed, home⟩ => ⟨nodup, placed, home⟩, fun h => ⟨h.nodup, h.placed, h.home⟩⟩

variable {t : FileTree} {place : Place} {name : String}

theorem isDirectory_iff : t.isDirectory place = true ↔
    t.node? place = some .directory ∨ t.node? place = some .closed := by
  unfold isDirectory
  split
  next hnode => simp [hnode]
  next hnode => simp [hnode]
  next hdirectory hclosed => simpa using And.intro hdirectory hclosed

theorem node?_ne_none_of_isDirectory (h : t.isDirectory place = true) : t.node? place ≠ none := by
  obtain hnode | hnode := isDirectory_iff.1 h
  · simp [hnode]
  · simp [hnode]

theorem node?_cons (t : FileTree) (name : String) (place : Place) :
    t.node? (name :: place) = t.nodes.lookup (name :: place) := if_neg (List.cons_ne_nil _ _)

theorem mem_of_node?_eq_some {node : Node} (h : t.node? (name :: place) = some node) :
    (name :: place, node) ∈ t.nodes := by
  rw [node?_cons, List.lookup_eq_some_iff] at h
  obtain ⟨l₁, l₂, hnodes, -⟩ := h
  rw [hnodes]
  exact List.mem_append_right l₁ List.mem_cons_self

/-- A place has the node that is stored for it, if there is no other one. -/
theorem node?_cons_eq_some_iff (hnodup : (t.nodes.map (·.1)).Nodup) {node : Node} :
    t.node? (name :: place) = some node ↔ (name :: place, node) ∈ t.nodes := by
  refine ⟨mem_of_node?_eq_some, fun hmem => ?_⟩
  obtain ⟨l₁, l₂, hnodes⟩ := List.append_of_mem hmem
  rw [node?_cons, List.lookup_eq_some_iff]
  refine ⟨l₁, l₂, hnodes, fun e he => ?_⟩
  rw [hnodes, List.map_append, List.map_cons, List.nodup_append] at hnodup
  have hne : e.1 ≠ name :: place :=
    hnodup.2.2 e.1 (List.mem_map_of_mem he) (name :: place) List.mem_cons_self
  simpa using hne.symm

theorem WellFormed.isPlaced_of_node? (hwf : t.WellFormed) {node : Node}
    (h : t.node? (name :: place) = some node) :
    Path.isName name = true ∧ t.isDirectory place = true := by
  rw [← Bool.and_eq_true]
  exact hwf.placed _ (mem_of_node?_eq_some h)

theorem WellFormed.isName (hwf : t.WellFormed) {node : Node}
    (h : t.node? (name :: place) = some node) : Path.isName name = true :=
  (hwf.isPlaced_of_node? h).1

/-! ## Where steps lead -/

/-- A name that is a step to the entry of that name. -/
structure IsStep (name : String) : Prop where
  not_dot : name ≠ "."
  not_dots : name ≠ ".."
  short : name.utf8ByteSize ≤ nameLimit

theorem isStep_of_isName (h : Path.isName name = true) : IsStep name := by
  simp only [Path.isName, Bool.and_eq_true, decide_eq_true_eq] at h
  exact ⟨h.1.1.1.1.2, h.1.1.1.2, h.2⟩

/-- Where steps lead from a place, with `links` links to go through, and how many are left then. -/
inductive Leads (t : FileTree) :
    (links : Nat) → (here : Place) → (steps : List String) → Reached → Prop
  | done {links : Nat} {here : Place} : Leads t links here [] ⟨here, links⟩
  | stay {links : Nat} {here : Place} {rest : List String} {r : Reached} :
      t.isDirectory here = true → Leads t links here rest r → Leads t links here ("." :: rest) r
  | up {links : Nat} {here : Place} {rest : List String} {r : Reached} :
      t.isDirectory here = true → Leads t links here.tail rest r →
      Leads t links here (".." :: rest) r
  | entry {links : Nat} {here : Place} {name : String} {rest : List String} {r : Reached}
      {node : Node} : t.isDirectory here = true → IsStep name →
      t.node? (name :: here) = some node → (∀ target, node ≠ .link target) →
      Leads t links (name :: here) rest r → Leads t links here (name :: rest) r
  | link {links : Nat} {here : Place} {name target : String} {rest : List String} {r : Reached} :
      t.isDirectory here = true → IsStep name →
      t.node? (name :: here) = some (.link target) → target ≠ "" →
      Leads t links (startOf target here) (Path.steps target ++ rest) r →
      Leads t (links + 1) here (name :: rest) r

/-- What is done at a link, with `links` links to go through. -/
def jump (t : FileTree) : (links : Nat) → Place → String → List String → Except Fault Reached
  | 0 => fun _ _ _ => .error .tooManyLinks
  | links + 1 => fun here target rest =>
    if target = "" then .error .notFound
    else t.follow links (startOf target here) (Path.steps target ++ rest)

theorem follow_eq (t : FileTree) (links : Nat) :
    t.follow links = t.walkSteps links (t.jump links) := by
  cases links <;> rfl

theorem leads_of_walkSteps {links : Nat} {here : Place} {steps : List String} {r : Reached}
    (hjump : ∀ here name target rest, t.isDirectory here = true → IsStep name →
      t.node? (name :: here) = some (.link target) → t.jump links here target rest = .ok r →
      t.Leads links here (name :: rest) r)
    (hsteps : t.walkSteps links (t.jump links) here steps = .ok r) :
    t.Leads links here steps r := by
  induction steps generalizing here with
  | nil =>
    cases hsteps
    exact .done
  | cons name rest ih =>
    rw [walkSteps] at hsteps
    split at hsteps
    next => cases hsteps
    next hdir =>
      have hdir : t.isDirectory here = true := by simpa using hdir
      split at hsteps
      next hdot =>
        subst hdot
        exact .stay hdir (ih hsteps)
      next hdot =>
        split at hsteps
        next hdots =>
          subst hdots
          exact .up hdir (ih hsteps)
        next hdots =>
          split at hsteps
          next => cases hsteps
          next hsize =>
            have hstep : IsStep name := ⟨hdot, hdots, Nat.not_lt.1 hsize⟩
            split at hsteps
            next => cases hsteps
            next target hlink => exact hjump here name target rest hdir hstep hlink hsteps
            next node hlink hnode => exact .entry hdir hstep hnode hlink (ih hsteps)

/-- Following steps gives where they lead. -/
theorem follow_eq_ok_iff {links : Nat} {here : Place} {steps : List String} {r : Reached} :
    t.follow links here steps = .ok r ↔ t.Leads links here steps r := by
  constructor
  · intro hsteps
    induction links generalizing here steps with
    | zero =>
      rw [follow_eq] at hsteps
      refine leads_of_walkSteps (fun here name target rest _ _ _ hjump => ?_) hsteps
      cases hjump
    | succ links ih =>
      rw [follow_eq] at hsteps
      refine leads_of_walkSteps (fun here name target rest hdir hstep hlink hjump => ?_) hsteps
      by_cases htarget : target = ""
      · cases (if_pos htarget).symm.trans hjump
      · exact .link hdir hstep hlink htarget (ih ((if_neg htarget).symm.trans hjump))
  · intro hleads
    induction hleads with
    | done => rw [follow_eq, walkSteps]
    | stay hdir _ ih =>
      rw [follow_eq] at ih ⊢
      simpa [walkSteps, hdir] using ih
    | up hdir _ ih =>
      rw [follow_eq] at ih ⊢
      simpa [walkSteps, hdir] using ih
    | entry hdir hstep hnode hlink _ ih =>
      rw [follow_eq] at ih ⊢
      rw [walkSteps, hdir, if_neg (by simp), if_neg hstep.not_dot, if_neg hstep.not_dots,
        if_neg (Nat.not_lt.2 hstep.short), hnode]
      split
      next hnone => cases hnone
      next target htarget => exact absurd (Option.some.inj htarget) (hlink target)
      next => exact ih
    | @link links here name target rest r hdir hstep hlink htarget _ ih =>
      rw [follow_eq, walkSteps, hdir, if_neg (by simp), if_neg hstep.not_dot,
        if_neg hstep.not_dots, if_neg (Nat.not_lt.2 hstep.short), hlink]
      exact (if_neg htarget).trans ih

/-- Steps lead on from where those before them have led. -/
theorem leads_append_iff {links : Nat} {here : Place} {steps rest : List String} {r : Reached} :
    t.Leads links here (steps ++ rest) r ↔
      ∃ m, t.Leads links here steps m ∧ t.Leads m.links m.place rest r := by
  constructor
  · intro hleads
    generalize hall : steps ++ rest = all at hleads
    induction hleads generalizing steps rest with
    | done =>
      obtain ⟨rfl, rfl⟩ := List.append_eq_nil_iff.1 hall
      exact ⟨_, .done, .done⟩
    | stay hdir hrest ih =>
      cases steps with
      | nil =>
        cases hall
        exact ⟨_, .done, .stay hdir hrest⟩
      | cons name steps =>
        obtain ⟨rfl, rfl⟩ := List.cons.inj hall
        obtain ⟨m, hsteps, hm⟩ := ih rfl
        exact ⟨m, .stay hdir hsteps, hm⟩
    | up hdir hrest ih =>
      cases steps with
      | nil =>
        cases hall
        exact ⟨_, .done, .up hdir hrest⟩
      | cons name steps =>
        obtain ⟨rfl, rfl⟩ := List.cons.inj hall
        obtain ⟨m, hsteps, hm⟩ := ih rfl
        exact ⟨m, .up hdir hsteps, hm⟩
    | entry hdir hstep hnode hlink hrest ih =>
      cases steps with
      | nil =>
        cases hall
        exact ⟨_, .done, .entry hdir hstep hnode hlink hrest⟩
      | cons name steps =>
        obtain ⟨rfl, rfl⟩ := List.cons.inj hall
        obtain ⟨m, hsteps, hm⟩ := ih rfl
        exact ⟨m, .entry hdir hstep hnode hlink hsteps, hm⟩
    | link hdir hstep hlink htarget hrest ih =>
      cases steps with
      | nil =>
        cases hall
        exact ⟨_, .done, .link hdir hstep hlink htarget hrest⟩
      | cons name steps =>
        obtain ⟨rfl, rfl⟩ := List.cons.inj hall
        obtain ⟨m, hsteps, hm⟩ := ih (List.append_assoc _ _ _)
        exact ⟨m, .link hdir hstep hlink htarget hsteps, hm⟩
  · rintro ⟨m, hsteps, hrest⟩
    induction hsteps with
    | done => exact hrest
    | stay hdir _ ih => exact .stay hdir (ih hrest)
    | up hdir _ ih => exact .up hdir (ih hrest)
    | entry hdir hstep hnode hlink _ ih => exact .entry hdir hstep hnode hlink (ih hrest)
    | link hdir hstep hlink htarget _ ih =>
      have happend := ih hrest
      rw [List.append_assoc] at happend
      exact .link hdir hstep hlink htarget happend

theorem Leads.unique {links : Nat} {here : Place} {steps : List String} {r r' : Reached}
    (h : t.Leads links here steps r) (h' : t.Leads links here steps r') : r = r' := by
  rw [← follow_eq_ok_iff] at h h'
  exact Except.ok.inj (h.symm.trans h')

/-! ## Whole paths -/

variable {path : String}

theorem resolve_eq_ok_iff : t.resolve path = .ok place ↔
    checkPath path = .ok () ∧
      ∃ left, t.Leads linkLimit (startOf path t.home) (Path.steps path) ⟨place, left⟩ := by
  simp only [resolve, resolveFrom, bind_eq_ok_iff, ← follow_eq_ok_iff]
  constructor
  · rintro ⟨u, hcheck, r, hfollow, hplace⟩
    cases hplace
    exact ⟨hcheck, r.links, hfollow⟩
  · rintro ⟨hcheck, left, hfollow⟩
    exact ⟨(), hcheck, ⟨place, left⟩, hfollow, rfl⟩

theorem nodeAt_eq_ok_iff {node : Node} : t.nodeAt path = .ok node ↔
    ∃ place, t.resolve path = .ok place ∧ t.node? place = some node := by
  rw [nodeAt, bind_eq_ok_iff]
  refine exists_congr fun there => and_congr_right fun _ => ?_
  cases t.node? there <;> simp

theorem checkPath_eq_ok_iff : checkPath path = .ok () ↔
    '\x00' ∉ path.toList ∧ path ≠ "" ∧ path.utf8ByteSize ≤ pathLimit := by
  unfold checkPath
  split
  next h =>
    have hnul : '\x00' ∈ path.toList := by simpa using h
    simp [hnul]
  next h =>
    split
    next hempty => simp [hempty]
    next hempty =>
      split
      next hlong => simp; omega
      next hlong => simpa [hempty] using ⟨by simpa using h, by omega⟩

theorem checkPath_join (hpath : checkPath path = .ok ()) (hname : Path.isName name = true) :
    checkPath (Path.join path name) = .ok () ↔
      (Path.join path name).utf8ByteSize ≤ pathLimit := by
  obtain ⟨hnul, -, -⟩ := checkPath_eq_ok_iff.1 hpath
  have hnul' : '\x00' ∉ name.toList := by
    simp only [Path.isName, Bool.and_eq_true, Bool.not_eq_true'] at hname
    simpa using hname.1.2
  have hjoin : '\x00' ∉ (Path.join path name).toList := by
    rw [Path.toList_join]
    split <;> simp [hnul, hnul']
  have hne : Path.join path name ≠ "" := by
    intro hempty
    have hlist := congrArg String.toList hempty
    rw [Path.toList_join] at hlist
    exact Path.ne_empty_of_isName hname (List.append_eq_nil_iff.1 hlist).2
  rw [checkPath_eq_ok_iff]
  exact ⟨fun h => h.2.2, fun h => ⟨hjoin, hne, h⟩⟩

theorem leads_segments {links : Nat} {here : Place} {r : Reached}
    (h : t.Leads links here (Path.steps path) r) : t.Leads links here (Path.segments path) r := by
  unfold Path.steps at h
  split at h
  next =>
    obtain ⟨⟨there, left⟩, hm, hstay⟩ := leads_append_iff.1 h
    generalize hdot : "." = name at hstay
    cases hstay with
    | stay _ hdone =>
      cases hdone
      exact hm
    | up => exact absurd hdot (by decide)
    | entry _ hstep => exact absurd hdot.symm hstep.not_dot
    | link _ hstep => exact absurd hdot.symm hstep.not_dot
  next => rwa [List.append_nil] at h

/-- What a name below a path leads to is settled in the directory that the path leads to, unless the
whole is too long. -/
theorem resolve_join_iff (hpath : t.resolve path = .ok place) (hname : Path.isName name = true) :
    ∃ left, ∀ there, t.resolve (Path.join path name) = .ok there ↔
      (Path.join path name).utf8ByteSize ≤ pathLimit ∧
        ∃ left', t.Leads left place [name] ⟨there, left'⟩ := by
  obtain ⟨hcheck, left, hleads⟩ := resolve_eq_ok_iff.1 hpath
  have hstart : startOf (Path.join path name) t.home = startOf path t.home := by
    rw [startOf, startOf, Path.isAbsolute_join (checkPath_eq_ok_iff.1 hcheck).2.1]
  refine ⟨left, fun there => ?_⟩
  rw [resolve_eq_ok_iff, checkPath_join hcheck hname, hstart, Path.steps_join hname]
  refine and_congr_right fun _ => exists_congr fun left' => ?_
  rw [leads_append_iff]
  constructor
  · rintro ⟨m, hm, hrest⟩
    rw [hm.unique (leads_segments hleads)] at hrest
    exact hrest
  · intro hrest
    exact ⟨_, leads_segments hleads, hrest⟩

/-- A name below a path that names no link leads to the entry of that name in the directory that the
path leads to. Nothing can go wrong but the length of the whole. -/
theorem resolve_join (hpath : t.resolve path = .ok place) (hdir : t.isDirectory place = true)
    (hname : Path.isName name = true) {node : Node} (hnode : t.node? (name :: place) = some node)
    (hlink : ∀ target, node ≠ .link target)
    (hshort : (Path.join path name).utf8ByteSize ≤ pathLimit) :
    t.resolve (Path.join path name) = .ok (name :: place) := by
  obtain ⟨left, hjoin⟩ := resolve_join_iff hpath hname
  exact (hjoin _).2 ⟨hshort, left, .entry hdir (isStep_of_isName hname) hnode hlink .done⟩

/-- A path that ends with a name leads to the entry of that name, unless that is a link. -/
theorem node?_of_resolve_join (hpath : t.resolve path = .ok place)
    (hname : Path.isName name = true) {there : Place}
    (hjoin : t.resolve (Path.join path name) = .ok there) :
    (∃ target, t.node? (name :: place) = some (.link target)) ∨
      there = name :: place ∧ t.node? (name :: place) ≠ none := by
  obtain ⟨left, hiff⟩ := resolve_join_iff hpath hname
  obtain ⟨-, left', hleads⟩ := (hiff there).1 hjoin
  have hstep := isStep_of_isName hname
  cases hleads with
  | stay => exact absurd rfl hstep.not_dot
  | up => exact absurd rfl hstep.not_dots
  | link _ _ hlink => exact .inl ⟨_, hlink⟩
  | entry _ _ hnode _ hdone =>
    cases hdone
    exact .inr ⟨rfl, by rw [hnode]; exact Option.some_ne_none _⟩

/-! ## Trees with the same nodes -/

section

variable {t' : FileTree} (hnode : ∀ place, t.node? place = t'.node? place)

include hnode

theorem walkSteps_congr {links : Nat} {jump jump' : Place → String → List String → Except Fault Reached}
    (hjump : ∀ here target rest, jump here target rest = jump' here target rest) (here : Place)
    (steps : List String) : t.walkSteps links jump here steps = t'.walkSteps links jump' here steps := by
  induction steps generalizing here with
  | nil => rfl
  | cons name steps ih =>
    simp only [walkSteps, isDirectory, hnode, hjump, ih]
    rfl

theorem follow_congr (links : Nat) (here : Place) (steps : List String) :
    t.follow links here steps = t'.follow links here steps := by
  induction links generalizing here steps with
  | zero => exact walkSteps_congr hnode (fun _ _ _ => rfl) here steps
  | succ links ih =>
    refine walkSteps_congr hnode (fun here target rest => ?_) here steps
    rw [ih]

theorem resolve_congr (hhome : t.home = t'.home) (path : String) :
    t.resolve path = t'.resolve path := by
  simp only [resolve, resolveFrom, follow_congr hnode, hhome]

theorem nodeAt_congr (hhome : t.home = t'.home) (path : String) :
    t.nodeAt path = t'.nodeAt path := by
  simp only [nodeAt, resolve_congr hnode hhome, hnode]

end

/-- The order in which nodes are stored does not matter. -/
theorem WellFormed.node?_perm (hwf : t.WellFormed) {t' : FileTree}
    (hperm : t'.nodes.Perm t.nodes) (place : Place) : t'.node? place = t.node? place := by
  have hnodup : (t'.nodes.map (·.1)).Nodup := (hperm.map _).nodup_iff.2 hwf.nodup
  cases place with
  | nil => rfl
  | cons name place =>
    ext node
    rw [node?_cons_eq_some_iff hnodup, node?_cons_eq_some_iff hwf.nodup, hperm.mem_iff]

/-- A tree with the same directories and fewer nodes is well formed. -/
theorem WellFormed.of_subset (hwf : t.WellFormed) {t' : FileTree}
    (hnodup : (t'.nodes.map (·.1)).Nodup) (hnodes : t'.nodes ⊆ t.nodes)
    (hdir : ∀ place, t'.isDirectory place = t.isDirectory place) (hhome : t'.home = t.home) :
    t'.WellFormed := by
  constructor
  case nodup => exact hnodup
  case placed =>
    intro e he
    have hplaced := hwf.placed e (hnodes he)
    cases hplace : e.1 with
    | nil =>
      rw [hplace] at hplaced
      cases hplaced
    | cons name parent =>
      rw [hplace] at hplaced
      rwa [isPlaced, hdir]
  case home =>
    rw [hdir, hhome]
    exact hwf.home

theorem WellFormed.of_perm (hwf : t.WellFormed) {t' : FileTree}
    (hperm : t'.nodes.Perm t.nodes) (hhome : t'.home = t.home) : t'.WellFormed := by
  refine hwf.of_subset ((hperm.map _).nodup_iff.2 hwf.nodup) hperm.subset (fun place => ?_) hhome
  rw [isDirectory, isDirectory, hwf.node?_perm hperm]

end FileTree

end PatternHarvest.Files
