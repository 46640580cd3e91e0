import PatternHarvest.Proofs.Classification
import Mathlib.Logic.Function.Basic

/-!
# Three tables that are one map

A context keeps constants, patterns and unresolved names in tables of their own, and recording a
name takes it out of all three before it goes into one. Seen from outside there is a single map,
from names to what was recorded of them last, in which every recording overwrites the entry of its
name (`Register`). `Context.performAll_refines` says so of every history of recordings, and reads
off it what the tables have in common: nothing, and together every name ever recorded.

The relation between the two is `Context.Represents`. One recording preserves it
(`Represents.perform`), and so does a history; the rest is about the single map, where a name is
settled by its last recording because nothing else writes to it.
-/

namespace PatternHarvest

/-! ## Recordings -/

/-- What is recorded of a name. -/
inductive Status where
  | constant (text : String)
  | pattern (text : String)
  | unresolved
  deriving DecidableEq, Repr

/-- A name, and what is recorded of it. -/
structure Recording where
  name : String
  status : Status
  deriving DecidableEq, Repr

namespace Context

/-- Carry out a recording. -/
def perform (c : Context) (r : Recording) : Context :=
  match r.status with
  | .constant text => c.recordConstant r.name text
  | .pattern text => c.recordPattern r.name text
  | .unresolved => c.recordUnresolved r.name

/-- Carry out recordings one after the other. -/
def performAll (c : Context) (rs : List Recording) : Context :=
  rs.foldl perform c

end Context

/-! ## One map -/

/-- A map from names to what was recorded of them. -/
def Register : Type := String → Option Status

namespace Register

/-- The map in which nothing is recorded. -/
def empty : Register := fun _ => none

/-- Overwrite the entry of a name. -/
def write (m : Register) (r : Recording) : Register :=
  Function.update m r.name (some r.status)

/-- Overwrite entries one after the other. -/
def writeAll (m : Register) (rs : List Recording) : Register :=
  rs.foldl write m

variable {m : Register} {rs : List Recording} {name : String}

theorem write_apply (m : Register) (r : Recording) (name : String) :
    m.write r name = if name = r.name then some r.status else m name :=
  Function.update_apply m r.name (some r.status) name

theorem writeAll_of_forall_ne (h : ∀ r ∈ rs, r.name ≠ name) : m.writeAll rs name = m name := by
  induction rs generalizing m with
  | nil => rfl
  | cons r rs ih =>
    have hr : name ≠ r.name := (h r List.mem_cons_self).symm
    calc (m.write r).writeAll rs name
        = m.write r name := ih fun s hs => h s (List.mem_cons_of_mem r hs)
      _ = m name := by rw [write_apply, if_neg hr]

/-- The last recording of a name is what the map holds of it. -/
theorem writeAll_last (m : Register) (before : List Recording) (r : Recording)
    {after : List Recording} (h : ∀ s ∈ after, s.name ≠ r.name) :
    m.writeAll (before ++ r :: after) r.name = some r.status := by
  have hsplit : m.writeAll (before ++ r :: after) = ((m.writeAll before).write r).writeAll after :=
    List.foldl_append
  rw [hsplit, writeAll_of_forall_ne h, write_apply, if_pos rfl]

/-- The map holds something of the names that were recorded. -/
theorem writeAll_empty_eq_none_iff :
    empty.writeAll rs name = none ↔ ∀ r ∈ rs, r.name ≠ name := by
  constructor
  · intro hnone r hr hname
    obtain ⟨before, s, after, rfl, rfl, hafter⟩ :=
      exists_last_of_exists (p := fun s : Recording => s.name = name) ⟨r, hr, hname⟩
    rw [writeAll_last empty before s hafter] at hnone
    cases hnone
  · intro h
    exact writeAll_of_forall_ne h

end Register

/-! ## What a context shows of the map -/

/-- What the three tables hold of a name with a status, or of one without. -/
def Entries.ofStatus? : Option Status → Entries
  | none => {}
  | some (.constant text) => .onlyConstant text
  | some (.pattern text) => .onlyPattern text
  | some .unresolved => .onlyUnresolved

namespace Context

/-- A context and a map hold the same of every name. -/
def Represents (c : Context) (m : Register) : Prop :=
  ∀ name, c.entries name = .ofStatus? (m name)

variable {c : Context} {m : Register} {name : String}

theorem represents_empty : empty.Represents .empty :=
  fun _ => rfl

/-- What a recording leaves under its own name, and that it touches no other. -/
theorem entries_perform (c : Context) (r : Recording) (name : String) :
    (c.perform r).entries name =
      if name = r.name then .ofStatus? (some r.status) else c.entries name := by
  obtain ⟨n, status⟩ := r
  cases status with
  | constant text => exact c.entries_recordConstant n text name
  | pattern text => exact c.entries_recordPattern n text name
  | unresolved => exact c.entries_recordUnresolved n name

namespace Represents

/-- **One recording.** What it does to the three tables is what it does to the map. -/
theorem perform (h : c.Represents m) (r : Recording) : (c.perform r).Represents (m.write r) := by
  intro name
  rw [entries_perform, Register.write_apply]
  split
  · rfl
  · exact h name

theorem performAll (h : c.Represents m) (rs : List Recording) :
    (c.performAll rs).Represents (m.writeAll rs) := by
  induction rs generalizing c m with
  | nil => exact h
  | cons r rs ih => exact ih (h.perform r)

/-- Each of the three tables has the names of one status for its keys. -/
theorem mem_keys_iff (h : c.Represents m) (name : String) :
    (name ∈ c.constants.keys ↔ ∃ text, m name = some (.constant text)) ∧
    (name ∈ c.patterns.keys ↔ ∃ text, m name = some (.pattern text)) ∧
    (name ∈ c.unresolved.keys ↔ m name = some .unresolved) := by
  have hconstant : c.constants.find? name = (Entries.ofStatus? (m name)).constant? :=
    congrArg Entries.constant? (h name)
  have hpattern : c.patterns.find? name = (Entries.ofStatus? (m name)).pattern? :=
    congrArg Entries.pattern? (h name)
  have hunresolved : (c.unresolved.find? name).isSome = (Entries.ofStatus? (m name)).unresolved :=
    congrArg Entries.unresolved (h name)
  rw [Table.mem_keys_iff, Table.mem_keys_iff, Table.mem_keys_iff, hconstant, hpattern, hunresolved]
  cases m name with
  | none => simp [Entries.ofStatus?]
  | some status =>
    cases status with
    | constant text => simp [Entries.ofStatus?, Entries.onlyConstant]
    | pattern text => simp [Entries.ofStatus?, Entries.onlyPattern]
    | unresolved => simp [Entries.ofStatus?, Entries.onlyUnresolved]

/-- No name is a key of two tables. -/
theorem disjoint_keys (h : c.Represents m) :
    c.constants.keys.Disjoint c.patterns.keys ∧ c.constants.keys.Disjoint c.unresolved.keys ∧
      c.patterns.keys.Disjoint c.unresolved.keys := by
  refine ⟨?_, ?_, ?_⟩
  · intro name hconstant hpattern
    obtain ⟨text, hm⟩ := (h.mem_keys_iff name).1.1 hconstant
    obtain ⟨text', hm'⟩ := (h.mem_keys_iff name).2.1.1 hpattern
    cases hm.symm.trans hm'
  · intro name hconstant hunresolved
    obtain ⟨text, hm⟩ := (h.mem_keys_iff name).1.1 hconstant
    cases hm.symm.trans ((h.mem_keys_iff name).2.2.1 hunresolved)
  · intro name hpattern hunresolved
    obtain ⟨text, hm⟩ := (h.mem_keys_iff name).2.1.1 hpattern
    cases hm.symm.trans ((h.mem_keys_iff name).2.2.1 hunresolved)

/-- The keys of the three tables together are the names of which the map holds something. -/
theorem mem_keys_or_iff (h : c.Represents m) (name : String) :
    name ∈ c.constants.keys ∨ name ∈ c.patterns.keys ∨ name ∈ c.unresolved.keys ↔
      m name ≠ none := by
  obtain ⟨hconstant, hpattern, hunresolved⟩ := h.mem_keys_iff name
  rw [hconstant, hpattern, hunresolved]
  cases m name with
  | none => simp
  | some status => cases status <;> simp

end Represents

/-- A history of recordings leaves what the single map holds after it. -/
theorem represents_performAll_empty (rs : List Recording) :
    (empty.performAll rs).Represents (Register.empty.writeAll rs) :=
  represents_empty.performAll rs

/-- **Three tables are one map.** After any recordings in a fresh context, the three tables hold of
every name what a single map holds in which each recording has overwritten the entry of its name.
No name is in two tables, and the names in them are those that were recorded. A name shows its last
recording and nothing of the ones before it, and a further recording changes nothing that is seen of
another name. -/
theorem performAll_refines (rs : List Recording) :
    (∀ name, (empty.performAll rs).entries name =
      .ofStatus? (Register.empty.writeAll rs name)) ∧
    ((empty.performAll rs).constants.keys.Disjoint (empty.performAll rs).patterns.keys ∧
      (empty.performAll rs).constants.keys.Disjoint (empty.performAll rs).unresolved.keys ∧
      (empty.performAll rs).patterns.keys.Disjoint (empty.performAll rs).unresolved.keys) ∧
    (∀ name, name ∈ (empty.performAll rs).constants.keys ∨
        name ∈ (empty.performAll rs).patterns.keys ∨
        name ∈ (empty.performAll rs).unresolved.keys ↔ ∃ r ∈ rs, r.name = name) ∧
    (∀ before r after, rs = before ++ r :: after → (∀ s ∈ after, s.name ≠ r.name) →
      (empty.performAll rs).entries r.name = .ofStatus? (some r.status)) ∧
    (∀ (r : Recording) name, name ≠ r.name →
      (empty.performAll (rs ++ [r])).entries name = (empty.performAll rs).entries name) := by
  have hrs := represents_performAll_empty rs
  refine ⟨hrs, hrs.disjoint_keys, ?_, ?_, ?_⟩
  · intro name
    rw [hrs.mem_keys_or_iff, ne_eq, Register.writeAll_empty_eq_none_iff]
    simp
  · rintro before r after rfl hlast
    rw [hrs r.name, Register.writeAll_last .empty before r hlast]
  · intro r name hname
    have hlast : empty.performAll (rs ++ [r]) = (empty.performAll rs).perform r :=
      List.foldl_append
    rw [hlast, entries_perform, if_neg hname]

/-- A name that was a constant and a pattern before is unresolved, and a constant of another name
has stayed. -/
theorem performAll_refines_moved :
    let c := empty.performAll [⟨"x", .constant "a"⟩, ⟨"y", .constant "b"⟩, ⟨"x", .pattern "c"⟩,
      ⟨"x", .unresolved⟩]
    c.entries "x" = .onlyUnresolved ∧ c.entries "y" = .onlyConstant "b" := by
  refine ⟨?_, ?_⟩
  · exact (performAll_refines _).2.2.2.1
      [⟨"x", .constant "a"⟩, ⟨"y", .constant "b"⟩, ⟨"x", .pattern "c"⟩] ⟨"x", .unresolved⟩ [] rfl
      (by simp)
  · exact (performAll_refines _).2.2.2.1 [⟨"x", .constant "a"⟩] ⟨"y", .constant "b"⟩
      [⟨"x", .pattern "c"⟩, ⟨"x", .unresolved⟩] rfl (by decide)

end Context

end PatternHarvest
