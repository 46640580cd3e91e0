import PatternHarvest.Context
import PatternHarvest.Normal

/-!
# The report of a run

A report is the table of patterns in normal form, the part of a context that is printed.
-/

namespace PatternHarvest

/-- The patterns found, in normal form, by name. -/
structure Report where
  patterns : Table String
  deriving DecidableEq

namespace Report

instance : Inhabited Report := ⟨⟨.empty⟩⟩

/-- The report on a table of patterns as they were resolved. -/
def ofPatterns (patterns : Table String) : Report :=
  ⟨patterns.map Normal.normalize⟩

/-- The report on what a run has learnt. -/
def ofContext (c : Context) : Report :=
  ofPatterns c.patterns

/-- The number of patterns. -/
def size (r : Report) : Nat :=
  r.patterns.size

/-- Whether no pattern was found. -/
def isEmpty (r : Report) : Bool :=
  r.size == 0

end Report

end PatternHarvest
