import PatternHarvest.Files.Fault
import PatternHarvest.Syntax.Position

/-!
# Errors

Why a root cannot be scanned, a file cannot be read or written, or a source yields no
declarations; and the diagnostics that a run leaves for the files it passes over.
-/

namespace PatternHarvest

/-- What may go wrong. -/
inductive Error where
  /-- The root leads nowhere. -/
  | directoryNotFound (path : String)
  | readFailed (path : String) (fault : Files.Fault)
  | writeFailed (path : String) (fault : Files.Fault)
  /-- The grammar of a language cannot be used. -/
  | languageRefused (language : String)
  /-- A source was not parsed to its end. -/
  | parseFailed (path : String)
  /-- A source does not follow the grammar. -/
  | malformedSource (path : String) (line column : Nat) (text : String)
  deriving DecidableEq, Inhabited, Repr

namespace Error

/-- The text of an error. -/
def message : Error → String
  | directoryNotFound path => "directory not found: " ++ path
  | readFailed path fault => "failed to read file '" ++ path ++ "': " ++ fault.message
  | writeFailed path fault => "failed to write file '" ++ path ++ "': " ++ fault.message
  | languageRefused language => "failed to set parser language: " ++ language
  | parseFailed path => "failed to parse source code in " ++ path
  | malformedSource path line column text =>
    "syntax error in " ++ path ++ " at line " ++ toString line ++ ", column " ++ toString column ++
      ": " ++ text

/-- The error of a source whose tree has errors, by what the search for the first of them comes to.
If it came to nothing, there would be no position to name. -/
def ofFirstError (path : String) : Option (Syntax.Position × Syntax.Tree) → Error
  | some (start, node) => .malformedSource path start.line start.column node.complaint
  | none => .malformedSource path 0 0 "invalid syntax"

end Error

/-- A file that a run passed over, and why. -/
structure Diagnostic where
  path : String
  message : String
  deriving DecidableEq, Inhabited, Repr

/-- The text of a diagnostic. -/
def Diagnostic.text (d : Diagnostic) : String :=
  "error processing file: " ++ d.path ++ " - " ++ d.message

end PatternHarvest
