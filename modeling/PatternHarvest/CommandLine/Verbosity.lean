/-!
# How much is logged
-/

namespace PatternHarvest.CommandLine

/-- How much a run logs, from least to most. -/
inductive Verbosity where
  | quiet
  | normal
  | verbose
  | debug
  | trace
  deriving DecidableEq, Inhabited, Repr

namespace Verbosity

/-- The level that the flags ask for: quiet wins over any number of verbose ones. -/
def ofFlags (verbose : Nat) (quiet : Bool) : Verbosity :=
  if quiet then .quiet
  else
    match verbose with
    | 0 => .normal
    | 1 => .verbose
    | 2 => .debug
    | _ => .trace

/-- The place of a level in the order. -/
def rank : Verbosity → Nat
  | quiet => 0
  | normal => 1
  | verbose => 2
  | debug => 3
  | trace => 4

/-- Whether a level logs at least what debugging needs. -/
def atLeastDebug (v : Verbosity) : Bool :=
  debug.rank ≤ v.rank

end Verbosity

end PatternHarvest.CommandLine
