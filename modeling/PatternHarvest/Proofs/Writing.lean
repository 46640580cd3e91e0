import PatternHarvest.Proofs.Paths

/-!
# Writing files

A file is written where its path leads, or where it would lead if there were a file: the path is
followed to its last name, and links there are followed as well (`FileTree.Targets`). What was
written is read back through the same path, and nothing else changes (`FileTree.read_of_write`,
`FileTree.node?_of_write`).

Which way a path leads does not depend on regular files, neither on their bytes nor on which of them
there are (`FileTree.DifferInFiles`). So two trees that differ in nothing else let a path lead to
the same place, if something stands there in both, and a file be written in one if it can be written
in the other (`FileTree.DifferInFiles.write_ok_iff`).
-/

namespace PatternHarvest.Files.FileTree

variable {t t' : FileTree} {place : Place} {name path : String} {bytes : List UInt8}

/-! ## Trees that differ in files -/

/-- Whether a place is free for a regular file: one stands there, or nothing does. -/
def isFree : Option Node → Bool
  | none | some (.file _) => true
  | _ => false

/-- Two trees differ in regular files alone: in their bytes, or in that they are there. -/
structure DifferInFiles (t t' : FileTree) : Prop where
  home : t.home = t'.home
  node : ∀ place, t.node? place = t'.node? place ∨
    isFree (t.node? place) = true ∧ isFree (t'.node? place) = true

namespace DifferInFiles

theorem symm (h : DifferInFiles t t') : DifferInFiles t' t where
  home := h.home.symm
  node place := (h.node place).imp Eq.symm And.symm

theorem eq_of_not_isFree (h : DifferInFiles t t') (hplace : isFree (t.node? place) = false) :
    t'.node? place = t.node? place := by
  obtain heq | ⟨hfree, -⟩ := h.node place
  · exact heq.symm
  · rw [hplace] at hfree
    cases hfree

/-- What is no regular file is the same in both trees. -/
theorem node?_iff (h : DifferInFiles t t') {node : Node} (hnode : isFree (some node) = false) :
    t.node? place = some node ↔ t'.node? place = some node := by
  constructor
  · intro ht
    rw [h.eq_of_not_isFree (by rwa [ht]), ht]
  · intro ht'
    rw [h.symm.eq_of_not_isFree (by rwa [ht']), ht']

theorem isDirectory_eq (h : DifferInFiles t t') (place : Place) :
    t.isDirectory place = t'.isDirectory place := by
  rw [Bool.eq_iff_iff, isDirectory_iff, isDirectory_iff]
  exact or_congr (h.node?_iff rfl) (h.node?_iff rfl)

/-- Steps that lead to a place in one tree lead there in the other, if something stands there. The
files that they come by are at the end alone, for a step from a file leads nowhere. -/
theorem leads (h : DifferInFiles t t') {links : Nat} {here : Place} {steps : List String}
    {r : Reached} (hleads : t.Leads links here steps r) (hr : t'.node? r.place ≠ none) :
    t'.Leads links here steps r := by
  induction hleads with
  | done => exact .done
  | stay hdir _ ih => exact .stay (h.isDirectory_eq _ ▸ hdir) (ih hr)
  | up hdir _ ih => exact .up (h.isDirectory_eq _ ▸ hdir) (ih hr)
  | @entry links here name rest r node hdir hstep hnode hlink hrest ih =>
    have hdir' : t'.isDirectory here = true := h.isDirectory_eq here ▸ hdir
    cases hnode' : t'.node? (name :: here) with
    | some node' =>
      refine .entry hdir' hstep hnode' (fun target htarget => ?_) (ih hr)
      rw [htarget] at hnode'
      exact hlink target (Option.some.inj (hnode.symm.trans ((h.node?_iff rfl).2 hnode')))
    | none =>
      have hfile : t.isDirectory (name :: here) = false := by
        rw [h.isDirectory_eq, isDirectory, hnode']
      cases hrest with
      | done => exact absurd hnode' hr
      | stay hsome => cases hfile.symm.trans hsome
      | up hsome => cases hfile.symm.trans hsome
      | entry hsome => cases hfile.symm.trans hsome
      | link hsome => cases hfile.symm.trans hsome
  | link hdir hstep hlink htarget _ ih =>
    exact .link (h.isDirectory_eq _ ▸ hdir) hstep ((h.node?_iff rfl).1 hlink) htarget (ih hr)

theorem resolve_eq_ok (h : DifferInFiles t t') (hpath : t.resolve path = .ok place)
    (hplace : t'.node? place ≠ none) : t'.resolve path = .ok place := by
  obtain ⟨hcheck, left, hleads⟩ := resolve_eq_ok_iff.1 hpath
  exact resolve_eq_ok_iff.2 ⟨hcheck, left, h.home ▸ h.leads hleads hplace⟩

/-- What a path leads to is the same, if it is no regular file. -/
theorem nodeAt_iff (h : DifferInFiles t t') {node : Node} (hnode : isFree (some node) = false) :
    t.nodeAt path = .ok node ↔ t'.nodeAt path = .ok node := by
  have himp {u u' : FileTree} (h : DifferInFiles u u') (hu : u.nodeAt path = .ok node) :
      u'.nodeAt path = .ok node := by
    obtain ⟨place, hpath, hplace⟩ := nodeAt_eq_ok_iff.1 hu
    have hplace' : u'.node? place = some node := (h.node?_iff hnode).1 hplace
    exact nodeAt_eq_ok_iff.2 ⟨place, h.resolve_eq_ok hpath (by simp [hplace']), hplace'⟩
  exact ⟨himp h, himp h.symm⟩

end DifferInFiles

/-! ## Where a file is written -/

/-- A path ends with the name of an entry, in the directory that what is before it leads to. -/
structure EndsAt (t : FileTree) (left : Nat) (here : Place) (path name : String) (r : Reached) :
    Prop where
  last : (Path.segments path).getLast? = some name
  leads : t.Leads left (startOf path here) (Path.segments path).dropLast r
  directory : t.isDirectory r.place = true
  step : IsStep name
  no_slash : Path.endsInSlash path = false

theorem EndsAt.steps_eq {left : Nat} {here : Place} {r : Reached}
    (h : t.EndsAt left here path name r) :
    Path.steps path = (Path.segments path).dropLast ++ [name] := by
  rw [Path.steps, h.no_slash, if_neg (by simp), List.append_nil,
    List.dropLast_append_getLast? name h.last]

theorem entryOf_eq_ok_iff {left : Nat} {here : Place} {entry : Reached} :
    t.entryOf left here path = .ok entry ↔
      ∃ name r, t.EndsAt left here path name r ∧ entry = ⟨name :: r.place, r.links⟩ := by
  constructor
  · intro hentry
    cases hlast : (Path.segments path).getLast? with
    | none =>
      simp only [entryOf, hlast] at hentry
      cases hentry
    | some name =>
      simp only [entryOf, hlast] at hentry
      obtain ⟨r, hfollow, hentry⟩ := bind_eq_ok_iff.1 hentry
      split at hentry
      next => cases hentry
      next hdir =>
        split at hentry
        next => cases hentry
        next hname =>
          split at hentry
          next => cases hentry
          next hsize =>
            have hname := not_or.1 hname
            have hname' := not_or.1 hname.2
            have hends : t.EndsAt left here path name r :=
              { last := hlast
                leads := follow_eq_ok_iff.1 hfollow
                directory := by simpa using hdir
                step := ⟨hname.1, hname'.1, Nat.not_lt.1 hsize⟩
                no_slash := by simpa using hname'.2 }
            exact ⟨name, r, hends, (Except.ok.inj hentry).symm⟩
  · rintro ⟨name, r, hends, rfl⟩
    have hname : ¬(name = "." ∨ name = ".." ∨ Path.endsInSlash path = true) := by
      rw [hends.no_slash]
      simp [hends.step.not_dot, hends.step.not_dots]
    have hfollow := follow_eq_ok_iff.2 hends.leads
    simp only [entryOf, hends.last, hfollow, bind, Except.bind, hends.directory, if_neg hname,
      if_neg (Nat.not_lt.2 hends.step.short)]
    rfl

/-- Where a file is written for a path, with `left` links to go through on the way: at the entry at
which the path ends or, if that is a link, where the path that it stands for is written. -/
inductive Targets (t : FileTree) : (left : Nat) → (here : Place) → (path : String) → Place → Prop
  | entry {left : Nat} {here : Place} {path name : String} {r : Reached} :
      t.EndsAt left here path name r →
      (∀ target, t.node? (name :: r.place) ≠ some (.link target)) →
      Targets t left here path (name :: r.place)
  | link {left left' : Nat} {here parent place : Place} {path name target : String} :
      t.EndsAt left here path name ⟨parent, left' + 1⟩ →
      t.node? (name :: parent) = some (.link target) → Targets t left' parent target place →
      Targets t left here path place

/-- What is done at a link at the end, with `links` of them to follow. -/
def targetJump (t : FileTree) : (links left : Nat) → Place → String → Except Fault Place
  | 0 => fun _ _ _ => .error .tooManyLinks
  | links + 1 => t.target links

theorem target_eq (t : FileTree) (links left : Nat) (here : Place) (path : String) :
    t.target links left here path =
      t.entryOf left here path >>= t.targetFrom (t.targetJump links) := by
  cases links <;> rfl

theorem Leads.links_le {links : Nat} {here : Place} {steps : List String} {r : Reached}
    (h : t.Leads links here steps r) : r.links ≤ links := by
  induction h with
  | done => exact Nat.le_refl _
  | stay _ _ ih => exact ih
  | up _ _ ih => exact ih
  | entry _ _ _ _ _ ih => exact ih
  | link _ _ _ _ _ ih => exact Nat.le_succ_of_le ih

/-- An entry that is no link is written itself. -/
theorem targetFrom_eq_ok (jump : Nat → Place → String → Except Fault Place) {entry : Reached}
    (hlink : ∀ target, t.node? entry.place ≠ some (.link target)) :
    t.targetFrom jump entry = .ok entry.place := by
  unfold targetFrom
  split
  next target _ htarget _ => exact absurd htarget (hlink target)
  next target htarget _ => exact absurd htarget (hlink target)
  next => rfl

theorem targets_of_target {links left : Nat} {here : Place}
    (hjump : ∀ left here path, t.targetJump links left here path = .ok place →
      t.Targets left here path place)
    (htarget : t.target links left here path = .ok place) : t.Targets left here path place := by
  rw [target_eq, bind_eq_ok_iff] at htarget
  obtain ⟨entry, hentry, htarget⟩ := htarget
  obtain ⟨name, ⟨parent, left'⟩, hends, rfl⟩ := entryOf_eq_ok_iff.1 hentry
  by_cases hlink : ∃ target, t.node? (name :: parent) = some (.link target)
  · obtain ⟨target, hlink⟩ := hlink
    simp only [targetFrom, hlink] at htarget
    cases left' with
    | zero => cases htarget
    | succ left' => exact .link hends hlink (hjump _ _ _ htarget)
  · have hnone := not_exists.1 hlink
    obtain rfl := Except.ok.inj ((targetFrom_eq_ok _ hnone).symm.trans htarget)
    exact .entry hends hnone

/-- With links enough to follow at the end, the place is found. -/
theorem target_eq_ok_iff {links left : Nat} (hlinks : left ≤ links) {here : Place} :
    t.target links left here path = .ok place ↔ t.Targets left here path place := by
  constructor
  · intro htarget
    clear hlinks
    induction links generalizing left here path with
    | zero =>
      refine targets_of_target (fun left here path hjump => ?_) htarget
      cases hjump
    | succ links ih =>
      refine targets_of_target (fun left here path hjump => ?_) htarget
      exact ih hjump
  · intro htargets
    induction htargets generalizing links with
    | @entry left here path name r hends hlink =>
      rw [target_eq, bind_eq_ok_iff]
      exact ⟨_, entryOf_eq_ok_iff.2 ⟨name, r, hends, rfl⟩, targetFrom_eq_ok _ hlink⟩
    | @link left left' here parent place path name target hends hlink _ ih =>
      have hle : left' + 1 ≤ left := hends.leads.links_le
      obtain ⟨links, rfl⟩ : ∃ l, links = l + 1 := ⟨links - 1, by omega⟩
      rw [target_eq, bind_eq_ok_iff]
      refine ⟨_, entryOf_eq_ok_iff.2 ⟨name, _, hends, rfl⟩, ?_⟩
      simp only [targetFrom, hlink]
      exact ih (by omega)

theorem Targets.not_link {left : Nat} {here : Place} (h : t.Targets left here path place) :
    place ≠ [] ∧ ∀ target, t.node? place ≠ some (.link target) := by
  induction h with
  | entry _ hlink => exact ⟨List.cons_ne_nil _ _, hlink⟩
  | link _ _ _ ih => exact ih

/-- If something stands where a file is written, the path leads there. -/
theorem Targets.leads {left : Nat} {here : Place} (h : t.Targets left here path place)
    (hplace : t.node? place ≠ none) :
    ∃ left', t.Leads left (startOf path here) (Path.steps path) ⟨place, left'⟩ := by
  induction h with
  | @entry left here path name r hends hlink =>
    obtain ⟨node, hnode⟩ := Option.ne_none_iff_exists'.1 hplace
    have hlink' : ∀ target, node ≠ .link target := fun target htarget =>
      hlink target (htarget ▸ hnode)
    refine ⟨r.links, ?_⟩
    rw [hends.steps_eq, leads_append_iff]
    exact ⟨r, hends.leads, .entry hends.directory hends.step hnode hlink' .done⟩
  | @link left left' here parent place path name target hends hlink htargets ih =>
    obtain ⟨left'', hleads⟩ := ih hplace
    have htarget : target ≠ "" := by
      rintro rfl
      cases htargets with
      | entry hends' => cases hends'.last
      | link hends' => cases hends'.last
    refine ⟨left'', ?_⟩
    rw [hends.steps_eq, leads_append_iff]
    refine ⟨_, hends.leads, .link hends.directory hends.step hlink htarget ?_⟩
    rwa [List.append_nil]

theorem DifferInFiles.endsAt (h : DifferInFiles t t') {left : Nat} {here : Place} {r : Reached}
    (hends : t.EndsAt left here path name r) : t'.EndsAt left here path name r := by
  have hdir : t'.isDirectory r.place = true := h.isDirectory_eq r.place ▸ hends.directory
  exact { hends with
    leads := h.leads hends.leads (node?_ne_none_of_isDirectory hdir), directory := hdir }

/-- Where a file is written does not depend on files. -/
theorem DifferInFiles.targets (h : DifferInFiles t t') {left : Nat} {here : Place}
    (htargets : t.Targets left here path place) : t'.Targets left here path place := by
  induction htargets with
  | entry hends hlink =>
    exact .entry (h.endsAt hends) fun target htarget =>
      hlink target ((h.node?_iff rfl).2 htarget)
  | link hends hlink _ ih => exact .link (h.endsAt hends) ((h.node?_iff rfl).1 hlink) ih

/-! ## Writing -/

theorem lookup_map_replace (nodes : List (Place × Node)) (place : Place) (node : Node)
    (q : Place) :
    (nodes.map fun e => if e.1 = place then (place, node) else e).lookup q =
      if q = place then (nodes.lookup place).map fun _ => node else nodes.lookup q := by
  induction nodes with
  | nil => simp
  | cons e nodes ih =>
    obtain ⟨p, old⟩ := e
    rw [List.map_cons, List.lookup_cons, List.lookup_cons, List.lookup_cons, ih]
    by_cases hp : p = place
    · subst hp
      by_cases hq : q = p
      · simp [hq]
      · have hne : (q == p) = false := by simpa using hq
        simp [hq, hne]
    · have hne : (place == p) = false := by simpa using Ne.symm hp
      by_cases hq : q = place <;> simp [hp, hq, hne]

/-- What stands at a place after a node was put at another or at the same. -/
theorem node?_put (t : FileTree) (hplace : place ≠ []) (node : Node) (q : Place) :
    (t.put place node).node? q = if q = place then some node else t.node? q := by
  by_cases hq : q = []
  · rw [hq, if_neg (Ne.symm hplace)]
    rfl
  · rw [node?, if_neg hq, node?, if_neg hq, put]
    split
    next hsome =>
      obtain ⟨old, hold⟩ := Option.isSome_iff_exists.1 hsome
      rw [lookup_map_replace, hold]
      rfl
    next hnone =>
      have hlookup : t.nodes.lookup place = none := by
        rwa [Bool.not_eq_true, Option.isSome_eq_false_iff, Option.isNone_iff_eq_none] at hnone
      rw [List.lookup_append]
      by_cases heq : q = place
      · rw [if_pos heq, heq, hlookup]
        simp
      · have hne : (q == place) = false := by simpa using heq
        rw [if_neg heq]
        simp [List.lookup_cons, hne]

theorem differInFiles_put (hplace : place ≠ []) (hfree : isFree (t.node? place) = true)
    (bytes : List UInt8) : DifferInFiles t (t.put place (.file bytes)) where
  home := by
    unfold put
    split <;> rfl
  node q := by
    rw [node?_put t hplace]
    split
    next hq => exact .inr ⟨hq ▸ hfree, rfl⟩
    next => exact .inl rfl

/-- A file is written to a device, which takes it, or put at a place. -/
theorem write_eq_ok_iff : t.write path bytes = .ok t' ↔
    checkPath path = .ok () ∧ ∃ place, t.Targets linkLimit t.home path place ∧
      ((∃ device, t.node? place = some (.device device) ∧ device.takes bytes = true) ∧ t' = t ∨
        isFree (t.node? place) = true ∧ t' = t.put place (.file bytes)) := by
  rw [write, bind_eq_ok_iff, Unique.exists_iff]
  simp only [bind_eq_ok_iff, target_eq_ok_iff (Nat.le_refl _)]
  refine and_congr_right fun _ => exists_congr fun place => and_congr_right fun htargets => ?_
  cases hnode : t.node? place with
  | none => simp [isFree, @eq_comm _ t']
  | some node =>
    cases node with
    | directory => simp [isFree]
    | closed => simp [isFree]
    | file old => simp [isFree, @eq_comm _ t']
    | link target => exact absurd hnode (htargets.not_link.2 target)
    | device device => cases htakes : device.takes bytes <;> simp [isFree, htakes, @eq_comm _ t']

theorem resolve_of_targets (hcheck : checkPath path = .ok ())
    (htargets : t.Targets linkLimit t.home path place) (hplace : t.node? place ≠ none) :
    t.resolve path = .ok place := by
  obtain ⟨left, hleads⟩ := htargets.leads hplace
  exact resolve_eq_ok_iff.2 ⟨hcheck, left, hleads⟩

/-- A file that was put where it is to be written stands where its path leads. -/
theorem resolve_put (hcheck : checkPath path = .ok ())
    (htargets : t.Targets linkLimit t.home path place) (hfree : isFree (t.node? place) = true)
    (bytes : List UInt8) : (t.put place (.file bytes)).resolve path = .ok place := by
  have hplace : place ≠ [] := htargets.not_link.1
  have hdiffer : DifferInFiles t (t.put place (.file bytes)) :=
    differInFiles_put hplace hfree bytes
  refine resolve_of_targets hcheck (hdiffer.home ▸ hdiffer.targets htargets) ?_
  rw [node?_put t hplace, if_pos rfl]
  exact Option.some_ne_none _

/-- A file that was put where it is to be written is what its path leads to. -/
theorem nodeAt_put (hcheck : checkPath path = .ok ())
    (htargets : t.Targets linkLimit t.home path place) (hfree : isFree (t.node? place) = true)
    (bytes : List UInt8) : (t.put place (.file bytes)).nodeAt path = .ok (.file bytes) := by
  refine nodeAt_eq_ok_iff.2 ⟨place, resolve_put hcheck htargets hfree bytes, ?_⟩
  rw [node?_put t htargets.not_link.1, if_pos rfl]

/-- What was written is read back, except from a device. -/
theorem read_of_write (hwrite : t.write path bytes = .ok t')
    (hdevice : ∀ device, t.nodeAt path ≠ .ok (.device device)) : t'.read path = .ok bytes := by
  obtain ⟨hcheck, place, htargets, hplace⟩ := write_eq_ok_iff.1 hwrite
  obtain ⟨⟨device, hnode, -⟩, -⟩ | ⟨hfree, rfl⟩ := hplace
  · refine absurd (nodeAt_eq_ok_iff.2 ⟨place, ?_, hnode⟩) (hdevice device)
    refine resolve_of_targets hcheck htargets ?_
    rw [hnode]
    exact Option.some_ne_none _
  · rw [read, nodeAt_put hcheck htargets hfree]
    rfl

/-- A device holds nothing of what was written to it. -/
theorem read_of_write_device (hwrite : t.write path bytes = .ok t') {device : Device}
    (hdevice : t.nodeAt path = .ok (.device device)) : t'.read path = .ok [] := by
  obtain ⟨hcheck, place, htargets, hplace⟩ := write_eq_ok_iff.1 hwrite
  obtain ⟨-, rfl⟩ | ⟨hfree, rfl⟩ := hplace
  · rw [read, hdevice]
    rfl
  · have hstill : (t.put place (.file bytes)).nodeAt path = .ok (.device device) :=
      ((differInFiles_put htargets.not_link.1 hfree bytes).nodeAt_iff rfl).1 hdevice
    cases hstill.symm.trans (nodeAt_put hcheck htargets hfree bytes)

/-- Writing a file changes nothing but what its path leads to. -/
theorem node?_of_write (hwrite : t.write path bytes = .ok t') (q : Place) :
    t'.node? q = t.node? q ∨ t'.resolve path = .ok q := by
  obtain ⟨hcheck, place, htargets, hplace⟩ := write_eq_ok_iff.1 hwrite
  obtain ⟨-, rfl⟩ | ⟨hfree, rfl⟩ := hplace
  · exact .inl rfl
  · rw [node?_put t htargets.not_link.1]
    split
    next hq => exact .inr (hq ▸ resolve_put hcheck htargets hfree bytes)
    next => exact .inl rfl

theorem isStdout_iff : t.isStdout path = true ↔ t.nodeAt path = .ok (.device .stdout) := by
  unfold isStdout
  split
  next hnode => simp [hnode]
  next hnode => simpa using hnode

theorem DifferInFiles.isStdout_eq (h : DifferInFiles t t') (path : String) :
    t.isStdout path = t'.isStdout path := by
  rw [Bool.eq_iff_iff, isStdout_iff, isStdout_iff]
  exact h.nodeAt_iff rfl

/-- A file can be written in both trees or in none. -/
theorem DifferInFiles.write_ok_iff (h : DifferInFiles t t') :
    (∃ u, t.write path bytes = .ok u) ↔ ∃ u, t'.write path bytes = .ok u := by
  have himp {t t' : FileTree} (h : DifferInFiles t t') (hwrite : ∃ u, t.write path bytes = .ok u) :
      ∃ u, t'.write path bytes = .ok u := by
    simp only [write_eq_ok_iff] at hwrite ⊢
    obtain ⟨u, hcheck, place, htargets, hplace⟩ := hwrite
    have htargets' : t'.Targets linkLimit t'.home path place := h.home ▸ h.targets htargets
    obtain ⟨⟨device, hdevice, htakes⟩, -⟩ | ⟨hfree, -⟩ := hplace
    · exact ⟨t', hcheck, place, htargets',
        .inl ⟨⟨device, (h.node?_iff rfl).1 hdevice, htakes⟩, rfl⟩⟩
    · refine ⟨_, hcheck, place, htargets', .inr ⟨?_, rfl⟩⟩
      by_contra hfree'
      rw [Bool.not_eq_true] at hfree'
      rw [h.symm.eq_of_not_isFree hfree', hfree'] at hfree
      cases hfree
  exact ⟨himp h, himp h.symm⟩

/-- What was written to both trees is read back the same, from a device or not. -/
theorem DifferInFiles.read_eq_of_write (h : DifferInFiles t t') {u u' : FileTree}
    (hwrite : t.write path bytes = .ok u) (hwrite' : t'.write path bytes = .ok u') :
    u'.read path = u.read path := by
  by_cases hdevice : ∃ device, t.nodeAt path = .ok (.device device)
  · obtain ⟨device, hdevice⟩ := hdevice
    have hdevice' : t'.nodeAt path = .ok (.device device) := (h.nodeAt_iff rfl).1 hdevice
    rw [read_of_write_device hwrite hdevice, read_of_write_device hwrite' hdevice']
  · have hnone := not_exists.1 hdevice
    have hnone' : ∀ device, t'.nodeAt path ≠ .ok (.device device) :=
      fun device hdevice => hnone device ((h.nodeAt_iff rfl).2 hdevice)
    rw [read_of_write hwrite hnone, read_of_write hwrite' hnone']

end PatternHarvest.Files.FileTree
