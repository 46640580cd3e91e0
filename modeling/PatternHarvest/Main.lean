import PatternHarvest.CommandLine.Program
import PatternHarvest.Files.Building

/-!
# The command

`main` takes a picture of the part of the disk that its command line can reach, asks
`CommandLine.plan` what comes of it, and prints and writes just that. The picture is a `FileTree`;
what it leaves out can neither be scanned nor stand in the way of the output file.
-/

namespace PatternHarvest.Disk

open Files

/-- A picture of a part of the disk. -/
structure Picture where
  files : FileTree
  /-- The directories whose entries are in the picture. -/
  opened : List String := []

/-- The bytes of a file; of one that is never read as a source, none. -/
def bytesOf (e : IO.FS.DirEntry) : IO (List UInt8) := do
  if Path.hasExtension ({} : Harvester).extension e.fileName then
    return (← IO.FS.readBinFile e.path).toList
  else return []

/-- Whether an entry is the output of this process. -/
def isStdout (e : IO.FS.DirEntry) : IO Bool := do
  let descriptors ← try pure (some (← IO.FS.realPath "/proc/self/fd")) catch _ => pure none
  return e.path == "/dev/stdout" || (e.fileName == "1" && descriptors == some e.root)

/-- Take what stands at an entry into a picture, with what a link leads to and, if `deep`, with all
that is below it. An entry that is not there changes nothing. -/
partial def takeIn (deep : Bool) (e : IO.FS.DirEntry) (p : Picture) : IO Picture := do
  let path := e.path.toString
  let kind ← try pure (some (← e.path.symlinkMetadata).type) catch _ => pure none
  match kind with
  | none => return p
  | some .file => return { p with files := p.files.makeNode path (.file (← bytesOf e)) }
  | some .other => return { p with files := p.files.makeNode path (.device .null) }
  | some .symlink =>
    if ← isStdout e then return { p with files := p.files.makeNode path (.device .stdout) }
    let target ← try pure (some (← IO.FS.realPath e.path)) catch _ => pure none
    match target with
    | none => return { p with files := p.files.makeNode path (.link "") }
    | some target =>
      takeIn deep ⟨target.parent.getD "/", target.fileName.getD "."⟩
        { p with files := p.files.makeNode path (.link target.toString) }
  | some .dir =>
    let p := { p with files := p.files.makeDirectory path }
    if !deep || p.opened.contains path then return p
    let entries ← try pure (some (← e.path.readDir)) catch _ => pure none
    match entries with
    | none =>
      match p.files.resolve path with
      | .ok place => return { p with files := p.files.put place .closed }
      | .error _ => return p
    | some entries =>
      entries.foldlM (fun p e => takeIn true e p) { p with opened := path :: p.opened }

/-- Take what stands on the way of `names` from the directory `here` into a picture and, if `deep`,
all that is below its end. -/
def takeAlong (deep : Bool) (p : Picture) (here : String) : List String → IO Picture
  | [] => return p
  | name :: rest => do
    let directory ← try pure (some (← IO.FS.realPath here)) catch _ => pure none
    match directory with
    | none => return p
    | some directory =>
      let p ← takeIn (deep && rest.isEmpty) ⟨directory, name⟩ p
      takeAlong deep p (Path.join here name) rest

/-- A picture of what a run can reach: all below its root, and where its output goes. -/
def picture (a : CommandLine.Arguments) : IO FileTree := do
  let here := (← IO.currentDir).toString
  let startOf (path : String) := if Path.isAbsolute path then "/" else here
  let home : FileTree := { home := (Path.segments here).reverse }
  let empty : Picture := ⟨home.makeDirectory here, []⟩
  let p ← takeAlong true empty (startOf a.root) (Path.segments a.root ++ ["."])
  let output := a.outputFile.getD ""
  return (← takeAlong false p (startOf output) (Path.segments output)).files

end PatternHarvest.Disk

open PatternHarvest in
/-- Run a command line on the disk. -/
def main (argv : List String) : IO UInt32 := do
  let rootVariable ← IO.getEnv CommandLine.rootVariableName
  let files ←
    match CommandLine.Arguments.parse argv rootVariable with
    | .ok a => Disk.picture a
    | .error _ => pure {}
  let plan := CommandLine.plan files argv rootVariable
  let outcome := plan.carryOut files
  if let .write path document _ := plan then
    if outcome.code = 0 && !files.isStdout path then IO.FS.writeFile path document
  IO.print outcome.stdout
  outcome.stderr.forM IO.eprintln
  return outcome.code.toUInt32
