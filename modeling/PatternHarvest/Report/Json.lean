import PatternHarvest.Report
import PatternHarvest.Json.Text

/-!
# A report as JSON

A report is an object with the one field `patterns`, an object again, whose entries stand in the
order of their names. It is written on a single line, or with one entry on each line, indented by
two blanks for each level.
-/

namespace PatternHarvest.Report.Json

open PatternHarvest.Json

/-- How an object is laid out. -/
inductive Layout where
  /-- Everything on one line, without blanks. -/
  | compact
  /-- One entry on each line. -/
  | pretty
  deriving DecidableEq, Repr, Inhabited

namespace Layout

/-- What stands in front of an entry or a closing bracket at a level of nesting. -/
def newline : Layout → Nat → List Char
  | compact, _ => []
  | pretty, level => '\n' :: List.replicate (2 * level) ' '

/-- What stands between a key and its value. -/
def colon : Layout → List Char
  | compact => [':']
  | pretty => [':', ' ']

end Layout

/-- An entry whose value is written out already. -/
def entry (layout : Layout) (key : String) (value : List Char) : List Char :=
  quote key.toList ++ layout.colon ++ value

/-- The entries of an object, each in front of what separates it from the next. -/
def members (layout : Layout) (level : Nat) : List (List Char) → List Char
  | [] => []
  | [e] => layout.newline level ++ e
  | e :: es => layout.newline level ++ e ++ ',' :: members layout level es

/-- An object, by its entries, at a level of nesting. One without entries is a pair of
brackets. -/
def object (layout : Layout) (level : Nat) : List (List Char) → List Char
  | [] => ['\x7b', '\x7d']
  | es => '\x7b' :: (members layout (level + 1) es ++ layout.newline level ++ ['\x7d'])

/-- The object of a table of texts. -/
def table (layout : Layout) (level : Nat) (t : Table String) : List Char :=
  object layout level (t.entries.map fun e => entry layout e.1 (quote e.2.toList))

/-- A report as JSON, by its characters. -/
def renderChars (layout : Layout) (r : Report) : List Char :=
  object layout 0 [entry layout "patterns" (table layout 1 r.patterns)]

/-- A report as JSON. -/
def render (layout : Layout) (r : Report) : String :=
  String.ofList (renderChars layout r)

end PatternHarvest.Report.Json
