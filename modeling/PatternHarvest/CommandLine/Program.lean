import PatternHarvest.CommandLine.Help
import PatternHarvest.Harvest

/-!
# The program

What a command line does to a tree of files: `plan` decides, from the files and the arguments, what
is printed and written, and `run` carries it out on the tree. Nothing but the one output file is
ever written; if it is the output of the program, what is written is printed.
-/

namespace PatternHarvest.CommandLine

open Files

/-- Why a root cannot be scanned: the reason, and what caused it. Of a root that can, nothing. -/
def rootCauses (files : FileTree) (root : String) : List String :=
  match files.nodeAt root with
  | .error _ => ["Path does not exist: " ++ root]
  | .ok (.file _) | .ok .directory => []
  | .ok .closed => ["Cannot read directory: " ++ root, Fault.denied.message]
  | .ok _ => ["Path is neither a file nor a directory: " ++ root]

/-- The reason why a root cannot be scanned, if it cannot. -/
def rootFault? (files : FileTree) (root : String) : Option String :=
  (rootCauses files root).head?

/-- What a program leaves: its exit code, what it printed, and the files. -/
structure Outcome where
  code : Nat
  stdout : String := ""
  /-- The lines of the log and of the error report. -/
  stderr : List String := []
  files : FileTree
  deriving Repr

/-! ## What is said -/

/-- The lines of a text. -/
def textLines (s : String) : List String :=
  (split s.toList).map String.ofList
where
  /-- The texts between line breaks. -/
  split : List Char → List (List Char)
    | [] => [[]]
    | c :: s =>
      if c = '\n' then [] :: split s
      else
        match split s with
        | [] => [[c]]
        | p :: ps => (c :: p) :: ps

/-- The lines of a cause in the report of an error, behind its number if it is one of several. -/
def causeLines (several : Bool) (number : Nat) (cause : String) : List String :=
  if several then
    let label := toString number
    (textLines cause).zipIdx.map fun (line, i) =>
      (if i = 0 then padding (5 - label.length) ++ label ++ ": " else padding 7) ++ line
  else (textLines cause).map (padding 4 ++ ·)
where
  /-- Blanks. -/
  padding (n : Nat) : String := String.ofList (List.replicate n ' ')

/-- The report of an error and of what caused it, one cause behind the other. -/
def errorReport (top : String) (causes : List String) : List String :=
  let several := 1 < causes.length
  textLines ("Error: " ++ top) ++ ["", "Caused by:"] ++
    causes.zipIdx.flatMap fun (cause, i) => causeLines several i cause

/-- The warning on a file that was passed over. -/
def fileWarning (d : Diagnostic) : String :=
  " WARN skipping file path=" ++ d.path ++ " error=" ++ d.message

/-- The warning on an entry that a walk passed over, if it did. -/
def entryWarning? (root : String) : Entry → Option String
  | .file _ => none
  | .broken trail fault =>
    some (" WARN skipping unreadable entry error=IO error for operation on " ++
      FileTree.pathOf root trail ++ ": " ++ fault.message)
  | .shut _ fault => some (" WARN skipping unreadable entry error=" ++ fault.message)
  | .loop trail above =>
    some (" WARN skipping unreadable entry error=File system loop found: " ++
      FileTree.pathOf root trail ++ " points to an ancestor " ++ FileTree.pathOf root above)

/-- The warnings on entries below a root that can be scanned. -/
def entryWarnings (files : FileTree) (root : String) : List String :=
  match files.resolve root with
  | .error _ => []
  | .ok place =>
    match files.node? place with
    | some .directory => (files.entries root place).filterMap (entryWarning? root)
    | _ => []

/-- What is logged of a run. -/
def log (files : FileTree) (a : Arguments) (diagnostics : List Diagnostic) : List String :=
  if a.verbosity = .quiet then []
  else (entryWarnings files a.root ++ diagnostics.map fileWarning).flatMap textLines

/-! ## What is done -/

/-- What a command line comes to. -/
inductive Plan where
  /-- Print, and end with a code. -/
  | stop (code : Nat) (stdout : String) (stderr : List String)
  /-- Print a document. -/
  | print (document : String) (log : List String)
  /-- Write a document to a file. -/
  | write (path document : String) (log : List String)
  deriving Repr

/-- What is done for settings. -/
def planFor (files : FileTree) (a : Arguments) : Plan :=
  match rootCauses files a.root with
  | cause :: causes => .stop 1 "" (errorReport "Invalid arguments" (cause :: causes))
  | [] =>
    match ({} : Harvester).run files a.root .empty with
    | .error e => .stop 1 "" (errorReport ("Failed to scan " ++ a.root) [e.message])
    | .ok r =>
      let document := (Report.ofContext r.context).format a.format a.compact ++ "\n"
      let log := log files a r.diagnostics
      match a.outputFile with
      | some path => .write path document log
      | none => .print document log

/-- What is done for a command line. -/
def plan (files : FileTree) (argv : List String) (rootVariable : Option String) : Plan :=
  match Arguments.parse argv rootVariable with
  | .error .help => .stop 0 (help rootVariable) []
  | .error e => .stop 2 "" e.lines
  | .ok a => planFor files a

/-- The report of a file that cannot be written. -/
def writeReport (path : String) (fault : Fault) : List String :=
  errorReport (Error.writeFailed path fault).message [fault.message]

/-- Carry out a plan. -/
def Plan.carryOut (files : FileTree) : Plan → Outcome
  | .stop code stdout stderr => { code, stdout, stderr, files }
  | .print document log => { code := 0, stdout := document, stderr := log, files }
  | .write path document log =>
    match files.write path (Text.Utf8.bytes document) with
    | .ok left =>
      { code := 0, stdout := if files.isStdout path then document else "", stderr := log,
        files := left }
    | .error fault => { code := 1, stderr := log ++ writeReport path fault, files }

/-- What a command line does to files. -/
def run (files : FileTree) (argv : List String) (rootVariable : Option String) : Outcome :=
  (plan files argv rootVariable).carryOut files

end PatternHarvest.CommandLine
