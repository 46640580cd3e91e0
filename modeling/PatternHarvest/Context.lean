import PatternHarvest.Table

/-!
# What a run has learnt so far

A `Context` holds three tables: names with a constant text, names with a pattern, and names that
stayed unresolved. Recording a name first takes it out of all three, so that a name shows only
what was recorded for it last.
-/

namespace PatternHarvest

/-- The constants, patterns and unresolved names of a run. -/
structure Context where
  constants : Table String := .empty
  patterns : Table String := .empty
  unresolved : Table Unit := .empty
  deriving DecidableEq

namespace Context

/-- The context of a fresh run. -/
def empty : Context := {}

instance : Inhabited Context := ⟨empty⟩

/-! ## Observations -/

/-- The constant text of a name. -/
def constant? (c : Context) (name : String) : Option String :=
  c.constants.find? name

/-- The pattern of a name, as it was resolved. -/
def pattern? (c : Context) (name : String) : Option String :=
  c.patterns.find? name

/-- Whether a name is recorded as unresolved. -/
def isUnresolved (c : Context) (name : String) : Bool :=
  c.unresolved.contains name

/-! ## Recording -/

/-- Take a name out of all three tables. -/
def forget (c : Context) (name : String) : Context where
  constants := c.constants.erase name
  patterns := c.patterns.erase name
  unresolved := c.unresolved.erase name

/-- Record the constant text of a name. -/
def recordConstant (c : Context) (name text : String) : Context :=
  let c := c.forget name
  { c with constants := c.constants.insert name text }

/-- Record the pattern of a name. -/
def recordPattern (c : Context) (name text : String) : Context :=
  let c := c.forget name
  { c with patterns := c.patterns.insert name text }

/-- Record that a name has neither a constant nor a pattern. -/
def recordUnresolved (c : Context) (name : String) : Context :=
  let c := c.forget name
  { c with unresolved := c.unresolved.insert name () }

/-! ## What recording does to the observations -/

theorem constant?_recordConstant (c : Context) (name text n : String) :
    (c.recordConstant name text).constant? n = if n = name then some text else c.constant? n := by
  by_cases h : n = name <;> simp [recordConstant, constant?, forget, h]

theorem pattern?_recordConstant (c : Context) (name text n : String) :
    (c.recordConstant name text).pattern? n = if n = name then none else c.pattern? n := by
  simp [recordConstant, pattern?, forget]

theorem isUnresolved_recordConstant (c : Context) (name text n : String) :
    (c.recordConstant name text).isUnresolved n = if n = name then false else c.isUnresolved n := by
  by_cases h : n = name <;> simp [recordConstant, isUnresolved, Table.contains, forget, h]

theorem constant?_recordPattern (c : Context) (name text n : String) :
    (c.recordPattern name text).constant? n = if n = name then none else c.constant? n := by
  simp [recordPattern, constant?, forget]

theorem pattern?_recordPattern (c : Context) (name text n : String) :
    (c.recordPattern name text).pattern? n = if n = name then some text else c.pattern? n := by
  by_cases h : n = name <;> simp [recordPattern, pattern?, forget, h]

theorem isUnresolved_recordPattern (c : Context) (name text n : String) :
    (c.recordPattern name text).isUnresolved n = if n = name then false else c.isUnresolved n := by
  by_cases h : n = name <;> simp [recordPattern, isUnresolved, Table.contains, forget, h]

theorem constant?_recordUnresolved (c : Context) (name n : String) :
    (c.recordUnresolved name).constant? n = if n = name then none else c.constant? n := by
  simp [recordUnresolved, constant?, forget]

theorem pattern?_recordUnresolved (c : Context) (name n : String) :
    (c.recordUnresolved name).pattern? n = if n = name then none else c.pattern? n := by
  simp [recordUnresolved, pattern?, forget]

theorem isUnresolved_recordUnresolved (c : Context) (name n : String) :
    (c.recordUnresolved name).isUnresolved n = if n = name then true else c.isUnresolved n := by
  by_cases h : n = name <;> simp [recordUnresolved, isUnresolved, Table.contains, forget, h]

end Context

end PatternHarvest
