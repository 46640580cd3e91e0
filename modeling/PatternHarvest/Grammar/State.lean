import PatternHarvest.Grammar.Tables

/-!
# Parser states

A state is a set of `Item`s: productions of which a part has been read, with the tokens that may
follow once all of it has been. A state is stored by the items that have read something; those
that have read nothing are found through the openings of the phrases that are expected. States
are computed as they are needed, and never numbered.

`State.actions` says what a token permits. Where it permits more than one thing, the levels of
precedence and the associativities of the grammar decide; what they leave open is tried in
parallel.
-/

namespace PatternHarvest.Grammar

/-- A production of which a part has been read. -/
structure Item where
  production : Production
  rest : List Step
  /-- Level and associativity of the place that has been reached. -/
  level : Int
  assoc : Option Assoc
  /-- The tokens that may follow the production. -/
  ahead : Nat
  deriving DecidableEq, Inhabited, Repr

/-- The items of a state, in the order of `Item.before`. -/
abbrev State := List Item

namespace Item

/-- How many steps have been read. -/
def done (i : Item) : Nat :=
  i.production.steps.length - i.rest.length

/-- Whether two items are the same but for what may follow. -/
def sameCore (i j : Item) : Bool :=
  i.production.id == j.production.id && i.rest.length == j.rest.length

/-- Whether two items of one grammar are the same. -/
def same (i j : Item) : Bool :=
  i.sameCore j && i.ahead == j.ahead

/-- The order of items: by the number of steps read, then by phrase, then by production. -/
def before (i j : Item) : Bool :=
  if i.done == j.done then
    if i.production.phrase == j.production.phrase then i.production.id < j.production.id
    else i.production.phrase < j.production.phrase
  else i.done < j.done

/-- Put an item in its place; what may follow equal items is united. -/
def insert (i : Item) : State → State
  | [] => [i]
  | j :: rest =>
    if i.sameCore j then { j with ahead := j.ahead ||| i.ahead } :: rest
    else if i.before j then i :: j :: rest
    else j :: insert i rest

end Item

namespace State

/-- Whether two states of one grammar are the same. -/
def same : State → State → Bool
  | [], [] => true
  | i :: s, j :: t => i.same j && same s t
  | _, _ => false

/-- The state before anything of the phrase has been read. -/
def initial (t : Tables) (phrase : Nat) : State :=
  (t.productions.getD phrase []).map fun p => ⟨p, p.steps, 0, none, bit t.endToken⟩

/-- Add the items of openings of an expected phrase, once the symbol that they begin with is
read. -/
def addOpenings (t : Tables) (follow : Nat) (openings : List Opening) (s : State) : State :=
  openings.foldl (fun s o =>
    match o.production.steps with
    | [] => s
    | step :: rest =>
      Item.insert ⟨o.production, rest, step.level, step.assoc, t.aheadIn o follow⟩ s) s

/-- The state once `x` has been read. -/
def next (t : Tables) (s : State) (x : Sym) : State :=
  s.foldl (fun acc i =>
    match i.rest with
    | [] => acc
    | step :: rest =>
      let acc := if step.symbol == x then
          Item.insert { i with rest, level := step.level, assoc := step.assoc } acc
        else acc
      match step.symbol with
      | .token _ => acc
      | .phrase n =>
        addOpenings t (followOf t.first rest i.ahead) (t.openingsAt n x) acc) []

/-- The tokens that can come next. -/
def wanted (t : Tables) (s : State) : Nat :=
  s.foldl (fun acc i =>
    match i.rest with
    | [] => acc ||| i.ahead
    | step :: _ => acc ||| t.firstSet step.symbol) 0

/-- What a token permits: the productions that are complete before it, and whether it can be
read. -/
structure Actions where
  reduce : List Item
  shift : Bool
  deriving Inhabited, Repr

/-- Of complete items, those of the highest level. -/
def highest : List Item → List Item :=
  List.foldl (fun best i =>
    match best with
    | [] => [i]
    | b :: _ =>
      if b.level < i.level then [i] else if i.level < b.level then best else best ++ [i]) []

/-- Decide between completing and reading on, for items of one level: by the level of the items
that would read on, then by associativity. -/
def choose (reduce rivals : List Item) : Actions :=
  match reduce with
  | [] => ⟨[], true⟩
  | r :: _ =>
    let higher := rivals.any fun i => r.level < i.level
    let lower := rivals.any fun i => i.level < r.level
    if higher && !lower then ⟨[], true⟩
    else if lower && !higher then ⟨reduce, false⟩
    else if higher then ⟨reduce, true⟩
    else if reduce.all (·.assoc == some .left) then ⟨reduce, false⟩
    else if reduce.all (·.assoc == some .right) then ⟨[], true⟩
    else ⟨reduce, true⟩

/-- What a token permits in a state. -/
def actions (t : Tables) (s : State) (token : Nat) : Actions :=
  let reduce := highest (s.filter fun i => i.rest.isEmpty && i.ahead.testBit token)
  let rivals := s.filter fun i =>
    match i.rest with
    | [] => false
    | step :: _ => (t.firstSet step.symbol).testBit token
  if rivals.isEmpty then ⟨reduce, false⟩ else choose reduce rivals

end State

end PatternHarvest.Grammar
