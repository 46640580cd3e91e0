import PatternHarvest.Files.Tree

/-!
# The files below a root

`FileTree.entries` goes through everything below a directory, links being followed. Directories are
opened, and links followed, by the whole path from the root, so one that is too long or leads
through too many links is passed over, and so is a directory that may not be listed. A link that
leads to a directory above itself is not entered, so the walk ends: every link that is entered adds
a directory to those above, of which there are finitely many, and between two links the walk only
goes down. `FileTree.sources` keeps the files with an extension, in the order of their names.
-/

namespace PatternHarvest.Files

/-- The names on the way from a root to an entry, the last first. -/
abbrev Trail := List String

/-- What a walk meets, other than directories. -/
inductive Entry where
  | file (trail : Trail)
  /-- A link that leads nowhere, or a directory that cannot be opened. -/
  | broken (trail : Trail) (fault : Fault)
  /-- A link that leads to a directory that cannot be opened. -/
  | shut (trail : Trail) (fault : Fault)
  /-- A link that leads to the directory at `above`, which is above it. -/
  | loop (trail above : Trail)
  deriving DecidableEq, Repr

/-- A directory that is being walked: where it stands, and how it was reached. -/
structure Ancestor where
  place : Place
  trail : Trail
  deriving DecidableEq, Repr

namespace FileTree

/-- The path of what a trail leads to from a root. -/
def pathOf (root : String) (trail : Trail) : String :=
  trail.foldr (fun name path => Path.join path name) root

/-- What is met at an entry of the directory `here`. `down` goes through a directory, and `jump`
through one that a link leads to. -/
def entriesAt (t : FileTree) (root : String) (down jump : List Ancestor → Ancestor → List Entry)
    (above : List Ancestor) (here : Ancestor) (name : String) : List Entry :=
  let trail := name :: here.trail
  match t.node? (name :: here.place) with
  | some (.file _) => [.file trail]
  | some .directory =>
    match t.resolve (pathOf root trail) with
    | .error fault => [.broken trail fault]
    | .ok _ => down (here :: above) ⟨name :: here.place, trail⟩
  | some .closed =>
    match t.resolve (pathOf root trail) with
    | .error fault => [.broken trail fault]
    | .ok _ => [.broken trail .denied]
  | some (.link _) =>
    match t.resolve (pathOf root trail) with
    | .error fault => [.broken trail fault]
    | .ok there =>
      match t.node? there with
      | some .directory =>
        match (here :: above).find? (·.place = there) with
        | some a => [.loop trail a.trail]
        | none => jump (here :: above) ⟨there, trail⟩
      | some .closed => [.shut trail .denied]
      | some (.file _) => [.file trail]
      | _ => []
  | _ => []

/-- What is met below the directory `here`. `jump` goes through the directory that a link leads to;
`depth` bounds the steps down. -/
def entriesBelow (t : FileTree) (root : String) (jump : List Ancestor → Ancestor → List Entry) :
    (depth : Nat) → (above : List Ancestor) → (here : Ancestor) → List Entry
  | 0, _, _ => []
  | depth + 1, above, here =>
    (t.children here.place).flatMap
      (t.entriesAt root (entriesBelow t root jump depth) jump above here)

/-- A bound on the steps down: no place is farther from the root. -/
def depthBound (t : FileTree) : Nat :=
  (t.nodes.map fun e => e.1.length).foldl max 0 + 1

/-- What is met below a directory, at most `links` links being entered one inside the other. -/
def entriesThrough (t : FileTree) (root : String) :
    (links : Nat) → (above : List Ancestor) → (here : Ancestor) → List Entry
  | 0 => t.entriesBelow root (fun _ _ => []) t.depthBound
  | links + 1 => t.entriesBelow root (entriesThrough t root links) t.depthBound

/-- What is met below the directory that a root leads to. There are no more directories above each
other than nodes, and the root. -/
def entries (t : FileTree) (root : String) (place : Place) : List Entry :=
  t.entriesThrough root (t.nodes.length + 1) [] ⟨place, []⟩

/-! ## Files with an extension -/

/-- The trails of the files among entries. -/
def fileTrails (es : List Entry) : List Trail :=
  es.filterMap fun
    | .file trail => some trail
    | _ => none

/-- Whether the file at the end of a trail is named with the extension. -/
def trailHasExtension (extension : String) (trail : Trail) : Bool :=
  trail.head?.any (Path.hasExtension extension)

/-- The order of sequences of names: by the first name that differs, a part before the whole. -/
def namesBefore : List String → List String → Bool
  | [], _ => true
  | _ :: _, [] => false
  | a :: as, b :: bs => if a = b then namesBefore as bs else a < b

/-- The files below the directory that a root leads to that have the extension, as the names that
lead to them, in the order of these names. -/
def sourceNames (t : FileTree) (extension root : String) (place : Place) : List (List String) :=
  let trails := (fileTrails (t.entries root place)).filter (trailHasExtension extension)
  (trails.map List.reverse).mergeSort namesBefore

/-- The files with the extension below a root, in order; a root that is such a file is all of them.
A root that leads nowhere is a fault. -/
def sources (t : FileTree) (extension root : String) : Except Fault (List String) := do
  let place ← t.resolve root
  match t.node? place with
  | some .directory =>
    .ok ((t.sourceNames extension root place).map fun names => names.foldl Path.join root)
  | some (.file _) =>
    .ok (if Path.hasExtension extension (Path.fileName root) then [root] else [])
  | some _ => .ok []
  | none => .error .notFound

end FileTree

end PatternHarvest.Files
