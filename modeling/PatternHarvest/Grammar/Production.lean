import PatternHarvest.Grammar.Rule

/-!
# Productions

A rule is spread out into its alternatives, each a sequence of `Step`s. A repeated rule becomes a
phrase of its own that grows to the right. Names are replaced by numbers: of tokens, by which sets
of tokens are bit sets, and of phrases.
-/

namespace PatternHarvest.Grammar

/-- A token or a phrase, by number. -/
inductive Sym where
  | token (i : Nat)
  | phrase (i : Nat)
  deriving DecidableEq, Inhabited, Repr

/-- One part of an alternative, with the level and associativity of the place behind it. -/
structure Step where
  symbol : Sym
  level : Int := 0
  assoc : Option Assoc := none
  /-- Another kind for the node of the part. -/
  kind? : Option String := none
  field : Option String := none
  deriving DecidableEq, Inhabited, Repr

/-- An alternative of a rule: its steps, and its dynamic level. -/
structure Alternative where
  steps : List Step
  dynamic : Nat := 0
  deriving DecidableEq, Inhabited, Repr

/-- An alternative of a phrase. -/
structure Production where
  id : Nat
  phrase : Nat
  steps : List Step
  dynamic : Nat
  deriving DecidableEq, Inhabited, Repr

/-! ## Spreading out a rule -/

/-- The numbers of names, literal texts and repeated rules. -/
structure Numbering where
  ofName : String → Sym
  ofLiteral : String → Sym
  ofRepeated : Rule → Sym

/-- Give the last of a sequence of steps another level. -/
def withLastLevel (level : Int) (assoc : Option Assoc) : List Step → List Step
  | [] => []
  | [s] => [{ s with level, assoc }]
  | s :: rest => s :: withLastLevel level assoc rest

namespace Alternative

/-- One alternative after another. -/
def append (a b : Alternative) : Alternative :=
  ⟨a.steps ++ b.steps, max a.dynamic b.dynamic⟩

end Alternative

/-- The alternatives of a rule. `around` gives level, associativity, kind and field of the place
where the rule stands. A level covers every step but the last of the part it is given to: what
follows that step belongs to the place around, unless nothing does (`atEnd`). -/
def Rule.alternatives (num : Numbering) : Rule → (around : Step) → (atEnd : Bool) →
    List Alternative
  | blank, _, _ => [⟨[], 0⟩]
  | literal text, around, _ => [⟨[{ around with symbol := num.ofLiteral text }], 0⟩]
  | ref name, around, _ => [⟨[{ around with symbol := num.ofName name }], 0⟩]
  | many a, around, _ => [⟨[{ around with symbol := num.ofRepeated a }], 0⟩]
  | seq a b, around, atEnd =>
    (a.alternatives num around false).flatMap fun x =>
      (b.alternatives num around atEnd).map fun y => x.append y
  | choice a b, around, atEnd =>
    a.alternatives num around atEnd ++ b.alternatives num around atEnd
  | prec level assoc a, around, atEnd =>
    let inner := a.alternatives num { around with level, assoc := assoc <|> around.assoc } atEnd
    if atEnd then inner
    else inner.map fun x => { x with steps := withLastLevel around.level around.assoc x.steps }
  | dynamic level a, around, atEnd =>
    (a.alternatives num around atEnd).map fun x => { x with dynamic := max x.dynamic level }
  | called kind a, around, atEnd =>
    a.alternatives num { around with kind? := some kind } atEnd
  | field name a, around, atEnd => a.alternatives num { around with field := some name } atEnd

/-- The alternatives of a rule that stands alone. -/
def Rule.alternativesAlone (num : Numbering) (r : Rule) : List Alternative :=
  (r.alternatives num { symbol := .token 0 } true).eraseDups

/-- The alternatives of the phrase, number `self`, that repeats a rule. -/
def Rule.repetitions (num : Numbering) (self : Nat) (r : Rule) : List Alternative :=
  let once := r.alternativesAlone num
  once ++ once.map fun x => { x with steps := { symbol := .phrase self } :: x.steps }

end PatternHarvest.Grammar
