import PatternHarvest.CommandLine.Arguments

/-!
# The texts of the command line

The help, and what is said of arguments that give no settings.
-/

namespace PatternHarvest.CommandLine

/-- The variable that gives the root where the command line does not. -/
def rootVariableName : String := "PATTERN_EXTRACTOR_ROOT"

/-- How the program is called. -/
def usage : String := "Usage: pattern-extractor [OPTIONS] [ROOT]"

/-- The help; it shows the value of the variable that gives the root. -/
def help (rootVariable : Option String) : String :=
  "Extract regular expression patterns from Java source trees\n\n" ++ usage ++
  "\n\nArguments:\n" ++
  "  [ROOT]  Directory or Java file to scan (defaults to $" ++ rootVariableName ++
  ", then \".\") [env: " ++ rootVariableName ++ "=" ++ rootVariable.getD "" ++
  "] [default: .]\n\nOptions:\n" ++
  "  -O, --output-file <FILE>  Output file path (prints to stdout if not specified)\n" ++
  "  -f, --format <FORMAT>     Output format (json, yaml) [default: json] " ++
  "[possible values: json, yaml]\n" ++
  "      --compact             Emit single-line JSON instead of pretty-printed output\n" ++
  "  -v, --verbose...          Increase verbosity (-v info, -vv debug, -vvv trace)\n" ++
  "  -q, --quiet               Suppress all output except errors\n" ++
  "  -h, --help                Print help\n"

namespace ArgumentError

/-- The first lines of what is said of wrong arguments. -/
def summary : ArgumentError → List String
  | help => []
  | unknown argument => ["error: unexpected argument '" ++ argument ++ "' found", "", usage]
  | valueRequired argument =>
    ("error: a value is required for '" ++ argument.shown ++ "' but none was supplied") ::
      if argument = .format then ["  [possible values: json, yaml]"] else []
  | notAFormat value =>
    ["error: invalid value '" ++ value ++ "' for '" ++ Valued.format.shown ++ "'",
      "  [possible values: json, yaml]"]
  | repeated shown =>
    ["error: the argument '" ++ shown ++ "' cannot be used multiple times", "", usage]
  | excessValue flag value =>
    ["error: unexpected value '" ++ value ++ "' for '" ++ flag.shown ++
      "' found; no more were expected", "", usage]

/-- What is said of wrong arguments, line by line. -/
def lines (e : ArgumentError) : List String :=
  e.summary ++ ["", "For more information, try '--help'."]

end ArgumentError

end PatternHarvest.CommandLine
