import PatternHarvest.Report.Json
import PatternHarvest.Report.Yaml

/-!
# The formats of a report

A report is printed as JSON or as YAML; JSON can be printed on a single line.
-/

namespace PatternHarvest

/-- The formats in which a report is printed. -/
inductive Format where
  | json
  | yaml
  deriving DecidableEq, Inhabited, Repr

namespace Format

/-- The name of a format on the command line. -/
def name : Format → String
  | json => "json"
  | yaml => "yaml"

/-- All formats, in the order in which they are listed. -/
def all : List Format := [json, yaml]

/-- The format of a name. -/
def ofName? (name : String) : Option Format :=
  all.find? (·.name == name)

end Format

/-- The text of a report. `compact` asks for a single line, and matters to JSON only. -/
def Report.format (format : Format) (compact : Bool) (r : Report) : String :=
  match format with
  | .json => Report.Json.render (if compact then .compact else .pretty) r
  | .yaml => Report.Yaml.render r

end PatternHarvest
