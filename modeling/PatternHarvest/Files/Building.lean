import PatternHarvest.Files.Tree

/-!
# Building file trees

Making directories and links, with whatever directories they need above them.
-/

namespace PatternHarvest.Files.FileTree

/-- Make the directories that a sequence of names leads through, where there are none, and give the
place of the last. -/
def makeBelow (t : FileTree) (here : Place) : List String → FileTree × Place
  | [] => (t, here)
  | name :: rest =>
    match t.resolveFrom here name with
    | .ok place => makeBelow t place rest
    | .error _ => makeBelow (t.put (name :: here) .directory) (name :: here) rest

/-- Make the directory at a path, and those above it. -/
def makeDirectory (t : FileTree) (path : String) : FileTree :=
  (t.makeBelow (startOf path t.home) (Path.segments path)).1

/-- Put a node at a path, in a directory that is made if there is none. -/
def makeNode (t : FileTree) (path : String) (node : Node) : FileTree :=
  let names := Path.segments path
  let (t, parent) := t.makeBelow (startOf path t.home) names.dropLast
  match names.getLast? with
  | some name => t.put (name :: parent) node
  | none => t

/-- Make a file at a path, in a directory that is made if there is none. A link at the path is
written through. -/
def makeFile (t : FileTree) (path : String) (bytes : List UInt8) : FileTree :=
  let (made, _) := t.makeBelow (startOf path t.home) (Path.segments path).dropLast
  match made.write path bytes with
  | .ok t => t
  | .error _ => made

end PatternHarvest.Files.FileTree
