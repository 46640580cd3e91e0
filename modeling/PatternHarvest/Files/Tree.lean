import PatternHarvest.Files.Fault
import PatternHarvest.Files.Path

/-!
# File trees

A `FileTree` is a finite tree of directories, files, symbolic links and devices. It is stored flat:
each node with the place where it stands. `FileTree.resolve` follows a path, through links, to the
place that it leads to; reading and writing go through it.

Of permissions a tree knows one: whether the entries of a directory may be listed. Every directory
may be entered and written to, and every file read and written.
-/

namespace PatternHarvest.Files

/-- Where a node stands: the names on the way to it from the root, the last first. -/
abbrev Place := List String

/-- The devices that a tree may hold. -/
inductive Device where
  /-- Reads as nothing and takes everything. -/
  | null
  /-- Takes nothing. -/
  | full
  /-- The output of the program: what is written to it is printed. -/
  | stdout
  deriving DecidableEq, Repr

/-- Whether a device takes bytes. -/
def Device.takes (bytes : List UInt8) : Device → Bool
  | .null | .stdout => true
  | .full => bytes.isEmpty

/-- What may stand at a place. -/
inductive Node where
  | directory
  /-- A directory that may be entered, but whose entries may not be listed. -/
  | closed
  | file (bytes : List UInt8)
  /-- A symbolic link, by the path that it stands for. -/
  | link (target : String)
  | device (device : Device)
  deriving DecidableEq, Repr

/-- A tree of files, and the directory from which relative paths start. -/
structure FileTree where
  nodes : List (Place × Node) := []
  home : Place := []
  deriving DecidableEq, Repr

namespace FileTree

/-! ## Nodes -/

/-- What stands at a place. The root is always a directory. -/
def node? (t : FileTree) (place : Place) : Option Node :=
  if place = [] then some .directory else t.nodes.lookup place

/-- Whether a directory stands at a place, be it closed or not. -/
def isDirectory (t : FileTree) (place : Place) : Bool :=
  match t.node? place with
  | some .directory | some .closed => true
  | _ => false

/-- Put a node at a place, over what stood there. -/
def put (t : FileTree) (place : Place) (node : Node) : FileTree :=
  if (t.nodes.lookup place).isSome then
    { t with nodes := t.nodes.map fun e => if e.1 = place then (place, node) else e }
  else { t with nodes := t.nodes ++ [(place, node)] }

/-- The names of what stands in a directory. -/
def children (t : FileTree) (place : Place) : List String :=
  t.nodes.filterMap fun e =>
    match e.1 with
    | name :: parent => if parent = place then some name else none
    | [] => none

/-! ## Following paths -/

/-- The place from which a path starts, seen from a directory. -/
def startOf (path : String) (here : Place) : Place :=
  if Path.isAbsolute path then [] else here

/-- The number of bytes that a name may have. -/
def nameLimit : Nat := 255

/-- The number of bytes that a path may have. -/
def pathLimit : Nat := 4095

/-- The number of links that a path may lead through. -/
def linkLimit : Nat := 40

/-- Where steps have led, and how many more links may be gone through from there. -/
structure Reached where
  place : Place
  links : Nat
  deriving DecidableEq, Repr

/-- Take steps from a place, with `links` links to go through. At a link, `jump` goes on with the
place of the link, what it stands for and the steps that remain. -/
def walkSteps (t : FileTree) (links : Nat)
    (jump : Place → String → List String → Except Fault Reached) :
    Place → List String → Except Fault Reached
  | here, [] => .ok ⟨here, links⟩
  | here, name :: rest =>
    if !t.isDirectory here then .error .notDirectory
    else if name = "." then walkSteps t links jump here rest
    else if name = ".." then walkSteps t links jump here.tail rest
    else if nameLimit < name.utf8ByteSize then .error .tooLong
    else
      match t.node? (name :: here) with
      | none => .error .notFound
      | some (.link target) => jump here target rest
      | some _ => walkSteps t links jump (name :: here) rest

/-- Take steps from a place, through no more than `links` links. A link that stands for the empty
path leads nowhere. -/
def follow (t : FileTree) : (links : Nat) → Place → List String → Except Fault Reached
  | 0 => walkSteps t 0 fun _ _ _ => .error .tooManyLinks
  | links + 1 =>
    walkSteps t (links + 1) fun here target rest =>
      if target = "" then .error .notFound
      else follow t links (startOf target here) (Path.steps target ++ rest)

/-- Refuse the paths that lead nowhere in any tree. -/
def checkPath (path : String) : Except Fault Unit :=
  if path.toList.contains '\x00' then .error .nulInPath
  else if path = "" then .error .notFound
  else if pathLimit < path.utf8ByteSize then .error .tooLong
  else .ok ()

/-- The place that a path leads to from the directory `here`. -/
def resolveFrom (t : FileTree) (here : Place) (path : String) : Except Fault Place := do
  checkPath path
  let reached ← t.follow linkLimit (startOf path here) (Path.steps path)
  return reached.place

/-- The place that a path leads to. -/
def resolve (t : FileTree) (path : String) : Except Fault Place :=
  t.resolveFrom t.home path

/-- What a path leads to. -/
def nodeAt (t : FileTree) (path : String) : Except Fault Node := do
  let place ← t.resolve path
  match t.node? place with
  | some node => .ok node
  | none => .error .notFound

/-! ## Reading and writing -/

/-- The bytes of the file at a path. -/
def read (t : FileTree) (path : String) : Except Fault (List UInt8) := do
  match ← t.nodeAt path with
  | .file bytes => .ok bytes
  | .device _ => .ok []
  | .closed => .error .denied
  | .directory | .link _ => .error .isDirectory

/-- The place of the entry that a path ends with, a link there not being followed. What is before it
must lead to a directory; no file can be written where it does not end with a name. -/
def entryOf (t : FileTree) (links : Nat) (here : Place) (path : String) : Except Fault Reached := do
  let names := Path.segments path
  match names.getLast? with
  | none => .error .isDirectory
  | some name =>
    let parent ← t.follow links (startOf path here) names.dropLast
    if !t.isDirectory parent.place then .error .notDirectory
    else if name = "." ∨ name = ".." ∨ Path.endsInSlash path then .error .isDirectory
    else if nameLimit < name.utf8ByteSize then .error .tooLong
    else .ok { parent with place := name :: parent.place }

/-- Go on from an entry to where a file is written. At a link, `jump` goes on with the links that
are left, the directory of the link and the path that it stands for. -/
def targetFrom (t : FileTree) (jump : Nat → Place → String → Except Fault Place)
    (entry : Reached) : Except Fault Place :=
  match t.node? entry.place, entry.links with
  | some (.link path), left + 1 => jump left entry.place.tail path
  | some (.link _), 0 => .error .tooManyLinks
  | _, _ => .ok entry.place

/-- The place at which a file is written for a path: that of the file, or that at which it would
be made. A link at the end is followed even if nothing stands where it leads; there may be `links`
of them one behind the other, and all in all `left` links on the way. -/
def target (t : FileTree) : (links left : Nat) → Place → String → Except Fault Place
  | 0, left, here, path => do
    let entry ← t.entryOf left here path
    t.targetFrom (fun _ _ _ => .error .tooManyLinks) entry
  | links + 1, left, here, path => do
    let entry ← t.entryOf left here path
    t.targetFrom (target t links) entry

/-- Whether what is written to a path is printed. -/
def isStdout (t : FileTree) (path : String) : Bool :=
  match t.nodeAt path with
  | .ok (.device .stdout) => true
  | _ => false

/-- Write a file, over what it held, making it if there is none. -/
def write (t : FileTree) (path : String) (bytes : List UInt8) : Except Fault FileTree := do
  checkPath path
  let place ← t.target linkLimit linkLimit t.home path
  match t.node? place with
  | some .directory | some .closed => .error .isDirectory
  | some (.device device) => if device.takes bytes then .ok t else .error .noSpace
  | _ => .ok (t.put place (.file bytes))

end FileTree

end PatternHarvest.Files
