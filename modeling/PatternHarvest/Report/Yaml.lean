import PatternHarvest.Report
import PatternHarvest.Text.Utf8
import PatternHarvest.Yaml.Scalar

/-!
# A report as YAML

A report is a mapping with the one key `patterns`. Its entries follow in the order of their names,
each indented by two blanks. A name that fits on a line stands in front of its text; a longer one,
or one of several lines, is a complex key, with its text on a line of its own.
-/

namespace PatternHarvest.Report.Yaml

open PatternHarvest.Yaml

/-- The largest number of bytes of a name that stands in front of its text. -/
def simpleKeyLimit : Nat := 128

/-- Whether a name can stand in front of its text. -/
def isSimpleKey (name : List Char) : Bool :=
  !name.any isBreak && Text.Utf8.size name ≤ simpleKeyLimit

/-- The indentation of the further lines of a scalar. -/
def scalarIndent : Nat := 4

/-- One entry, with the end of its last line. -/
def entry (name text : List Char) : List Char :=
  if isSimpleKey name then
    [' ', ' '] ++ Scalar.render scalarIndent name ++ [':', ' '] ++ Scalar.renderLine scalarIndent text
  else
    [' ', ' ', '?', ' '] ++ Scalar.renderLine scalarIndent name ++ [' ', ' ', ':', ' '] ++
      Scalar.renderLine scalarIndent text

/-- A report as YAML, by its characters. -/
def renderChars (r : Report) : List Char :=
  match r.patterns.entries with
  | [] => "patterns: \x7b\x7d\n".toList
  | entries => "patterns:\n".toList ++ entries.flatMap fun e => entry e.1.toList e.2.toList

/-- A report as YAML. -/
def render (r : Report) : String :=
  String.ofList (renderChars r)

end PatternHarvest.Report.Yaml
