import PatternHarvest.CommandLine.Verbosity
import PatternHarvest.Report.Format

/-!
# Command line arguments

`Arguments.parse` takes the arguments of a command line, and the value of the variable that may
give the root, to the settings of a run. Arguments are taken in from left to right. A value is
taken in late: an option or the root stays pending until the next argument is recognised, so that
an argument nobody knows is reported before a value that is wrong.
-/

namespace PatternHarvest.CommandLine

/-- The settings of a run. -/
structure Arguments where
  root : String
  outputFile : Option String := none
  format : Format := .json
  compact : Bool := false
  verbose : Nat := 0
  quiet : Bool := false
  deriving DecidableEq, Inhabited, Repr

/-- The flags: arguments without a value. -/
inductive Flag where
  | compact
  | verbose
  | quiet
  | help
  deriving DecidableEq, Repr

/-- The arguments with a value. -/
inductive Valued where
  | outputFile
  | format
  | root
  deriving DecidableEq, Repr

namespace Flag

/-- A flag as it is shown in messages. -/
def shown : Flag → String
  | compact => "--compact"
  | verbose => "--verbose..."
  | quiet => "--quiet"
  | help => "--help"

/-- The flag of a long name. -/
def ofLong? : String → Option Flag
  | "compact" => some compact
  | "verbose" => some verbose
  | "quiet" => some quiet
  | "help" => some help
  | _ => none

/-- The flag of a letter. -/
def ofShort? : Char → Option Flag
  | 'v' => some verbose
  | 'q' => some quiet
  | 'h' => some help
  | _ => none

end Flag

namespace Valued

/-- An argument with a value as it is shown in messages. -/
def shown : Valued → String
  | outputFile => "--output-file <FILE>"
  | format => "--format <FORMAT>"
  | root => "[ROOT]"

/-- The option of a long name. -/
def ofLong? : String → Option Valued
  | "output-file" => some outputFile
  | "format" => some format
  | _ => none

/-- The option of a letter. -/
def ofShort? : Char → Option Valued
  | 'O' => some outputFile
  | 'f' => some format
  | _ => none

end Valued

/-- Why arguments give no settings. -/
inductive ArgumentError where
  /-- The help was asked for. -/
  | help
  /-- An argument that nobody knows. -/
  | unknown (argument : String)
  /-- An argument without its value, or with an empty one. -/
  | valueRequired (argument : Valued)
  /-- A value that is no format. -/
  | notAFormat (value : String)
  /-- An argument that was given before. -/
  | repeated (shown : String)
  /-- A value for a flag. -/
  | excessValue (flag : Flag) (value : String)
  deriving DecidableEq, Repr

/-- What has been taken in of a command line. -/
structure Given where
  root : Option String := none
  outputFile : Option String := none
  format : Option Format := none
  compact : Bool := false
  verbose : Nat := 0
  quiet : Bool := false
  deriving DecidableEq, Repr

namespace Given

/-- The largest number of verbose flags that is counted. -/
def verboseLimit : Nat := 255

/-- Take in a flag. -/
def takeFlag (g : Given) : Flag → Except ArgumentError Given
  | .compact =>
    if g.compact then .error (.repeated Flag.compact.shown) else .ok { g with compact := true }
  | .verbose => .ok { g with verbose := min (g.verbose + 1) verboseLimit }
  | .quiet => if g.quiet then .error (.repeated Flag.quiet.shown) else .ok { g with quiet := true }
  | .help => .error .help

/-- Take in a value. A value that was given before is refused whatever the new one is. -/
def takeValue (g : Given) (what : Valued) (value : String) : Except ArgumentError Given :=
  match what with
  | .outputFile =>
    if g.outputFile.isSome then .error (.repeated what.shown)
    else if value = "" then .error (.valueRequired what)
    else .ok { g with outputFile := some value }
  | .format =>
    if g.format.isSome then .error (.repeated what.shown)
    else
      match Format.ofName? value with
      | some format => .ok { g with format := some format }
      | none => .error (if value = "" then .valueRequired what else .notAFormat value)
  | .root =>
    if value = "" then .error (.valueRequired what) else .ok { g with root := some value }

/-- The settings, once everything is taken in. The root comes from the command line, or else from
the variable, or else it is the current directory. -/
def settings (g : Given) (rootVariable : Option String) : Except ArgumentError Arguments := do
  let g ← match g.root, rootVariable with
    | none, some value => g.takeValue .root value
    | _, _ => .ok g
  return {
    root := g.root.getD "."
    outputFile := g.outputFile
    format := g.format.getD .json
    compact := g.compact
    verbose := g.verbose
    quiet := g.quiet }

end Given

/-- An argument whose value is not yet taken in; `none` while the value is awaited. -/
structure Pending where
  what : Valued
  value : Option String
  deriving DecidableEq, Repr

/-- A command line in the middle of being read. -/
structure ReadState where
  given : Given := {}
  pending : Option Pending := none
  /-- Whether the mark was met after which every argument stands for itself. -/
  verbatim : Bool := false
  /-- Whether a root was met. -/
  rootMet : Bool := false
  deriving DecidableEq, Repr

namespace ReadState

/-- Take in what is pending. -/
def settle (s : ReadState) : Except ArgumentError ReadState :=
  match s.pending with
  | none => .ok s
  | some ⟨what, none⟩ => .error (.valueRequired what)
  | some ⟨what, some value⟩ => do
    let given ← s.given.takeValue what value
    return { s with given, pending := none }

/-- Read a flag. -/
def flag (s : ReadState) (f : Flag) : Except ArgumentError ReadState := do
  let s ← s.settle
  let given ← s.given.takeFlag f
  return { s with given }

/-- Read an option, with its value if it is attached. -/
def option (s : ReadState) (what : Valued) (value : Option String) :
    Except ArgumentError ReadState := do
  let s ← s.settle
  match value with
  | some value =>
    let given ← s.given.takeValue what value
    return { s with given }
  | none => return { s with pending := some ⟨what, none⟩ }

/-- Read a root. -/
def root (s : ReadState) (argument : String) : Except ArgumentError ReadState := do
  if s.rootMet then throw (.unknown argument)
  let s ← s.settle
  return { s with pending := some ⟨.root, some argument⟩, rootMet := true }

/-- Read the part of a long argument behind the two dashes. -/
def long (s : ReadState) (body : List Char) : Except ArgumentError ReadState :=
  let name := String.ofList (body.takeWhile (· ≠ '='))
  let value := match body.dropWhile (· ≠ '=') with
    | [] => none
    | _ :: value => some (String.ofList value)
  match Valued.ofLong? name, Flag.ofLong? name, value with
  | some what, _, value => s.option what value
  | none, some f, none => s.flag f
  | none, some f, some value => .error (.excessValue f value)
  | none, none, _ => .error (.unknown ("--" ++ name))

/-- The value that is attached to a letter, an equals sign in front of it being dropped. -/
def attached : List Char → Option String
  | [] => none
  | '=' :: value => some (String.ofList value)
  | value => some (String.ofList value)

/-- Read the letters of a group. A letter that takes a value takes the rest of the group. -/
def letters (s : ReadState) : List Char → Except ArgumentError ReadState
  | [] => .ok s
  | c :: rest =>
    match Valued.ofShort? c, Flag.ofShort? c with
    | some what, _ => s.option what (attached rest)
    | none, some f =>
      match s.flag f with
      | .ok s => s.letters rest
      | .error e => .error e
    | none, none => .error (.unknown (String.ofList ['-', c]))

/-- Read an argument that is neither an option nor a mark: the value that is awaited, or a root. -/
def word (s : ReadState) (argument : String) : Except ArgumentError ReadState :=
  match s.pending with
  | some ⟨what, none⟩ => .ok { s with pending := some ⟨what, some argument⟩ }
  | _ => s.root argument

/-- Read one argument. -/
def read (s : ReadState) (argument : String) : Except ArgumentError ReadState :=
  if s.verbatim then s.root argument
  else
    match argument.toList with
    | ['-', '-'] => .ok { s with verbatim := true }
    | '-' :: '-' :: body => s.long body
    | '-' :: c :: rest => s.letters (c :: rest)
    | _ => s.word argument

end ReadState

namespace Arguments

/-- The settings that a command line asks for. -/
def parse (argv : List String) (rootVariable : Option String) : Except ArgumentError Arguments := do
  let s ← argv.foldlM ReadState.read {}
  let s ← s.settle
  s.given.settings rootVariable

/-- How much a run with these settings logs. -/
def verbosity (a : Arguments) : Verbosity :=
  .ofFlags a.verbose a.quiet

end Arguments

end PatternHarvest.CommandLine
