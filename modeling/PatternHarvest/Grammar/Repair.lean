import PatternHarvest.Grammar.Parser

/-!
# Repairs

A text that the grammar does not derive still gets a tree, with marks where it had to be repaired.
Where no reading can go on there are two kinds of repair. A token can be *supplied* that the text
lacks, if it completes something in front of the next token. Or the last parts that were read and
the next tokens of the text can be *set aside*, as input that fits nowhere, so that the reading
goes on from an earlier state. Each repair has a cost that grows with what is set aside; readings
with different repairs go on side by side, and the cheapest counts.
-/

namespace PatternHarvest.Grammar

open PatternHarvest.Syntax

namespace Repair

/-! ## Costs -/

/-- The cost of a token that is supplied. -/
def supplyCost : Nat := 610

/-- The cost of setting something aside at all. -/
def asideCost : Nat := 500

/-- The cost of each tree that is set aside. -/
def treeCost : Nat := 100

/-- The cost of each line break among what is set aside. -/
def lineCost : Nat := 30

/-- The cost of setting aside a number of trees with a text. -/
def costOf (trees : Nat) (text : String) : Nat :=
  asideCost + treeCost * trees + text.utf8ByteSize + lineCost * text.toList.count '\n'

/-- The trees of a part that count when it is set aside. -/
def treesOf (p : Part) : Nat :=
  if p.isExtra then 0
  else if p.hidden then (p.tree.children.trees.filter (!·.isExtra)).length
  else 1

/-- The greatest number of parts that are set aside at once. -/
def depthLimit : Nat := 16

/-! ## Readings that differ in what they have completed -/

/-- The readings that come from completing one of the productions that are complete, whatever
follows. -/
def completions (t : Tables) (initial : State) (r : Reading) : List Reading :=
  (Reading.state initial r.parts).filterMap fun i =>
    if i.rest.isEmpty && i.production.phrase != 0 then some (r.complete t initial i.production)
    else none

/-- Readings and everything that comes from completing productions, nearest first. -/
def variants (t : Tables) (initial : State) : (fuel : Nat) → List Reading → List Reading
  | 0, _ => []
  | _, [] => []
  | fuel + 1, r :: rs =>
    let fresh := (completions t initial r).filter fun q =>
      !(r :: rs).any fun s => Reading.sameStates s.parts q.parts
    r :: variants t initial fuel (rs ++ fresh)

/-- A bound on the number of variants that are tried. -/
def variantLimit : Nat := 100

/-- The places that the readings of a reading can be in after one more token; none if it cannot
read one. -/
def goesOn (t : Tables) (initial : State) (r : Reading) : Bool :=
  (Reading.advanceAll t initial (Round.splitLimit + 1) [r]).any fun
    | .read _ | .finished _ => true
    | .stuck _ => false

/-! ## Supplying a token -/

/-- The reading with a supplied token, if the grammar has it there. -/
def withToken? (t : Tables) (initial : State) (r : Reading) (token : Nat) : Option Reading :=
  let state := (Reading.state initial r.parts).next t (.token token)
  if state.isEmpty then none
  else
    let rule := t.rule token
    let part : Part :=
      { state, tree := .missing rule.kind rule.named, hidden := false, weight := 0 }
    some { r with parts := part :: r.parts, cost := r.cost + supplyCost }

/-- Whether the next token completes something. -/
def completesNext (t : Tables) (initial : State) (r : Reading) : Bool :=
  (r.peek t initial).any fun l =>
    !((Reading.state initial r.parts).actions t l.token).reduce.isEmpty

/-- The tokens in the order in which they are supplied: words first. -/
def suppliable (t : Tables) : List Nat :=
  t.word :: (List.range t.tokens.size).filter fun i => i != t.word && !t.extras.testBit i

/-- The first reading with a supplied token that the next token completes something in, and that
can read the next token. -/
def supply? (t : Tables) (initial : State) (rs : List Reading) : Option Reading :=
  rs.findSome? fun r =>
    (suppliable t).findSome? fun token =>
      (withToken? t initial r token).filter fun q => completesNext t initial q && goesOn t initial q

/-! ## Setting parts aside -/

/-- Tokens that were passed over, the last first, and what is left of the text. -/
structure Passed where
  leaves : List Leaf
  length : Nat
  rest : List Char

/-- The tokens that are looked for outside any state: all but the pieces of others. -/
def anyToken (t : Tables) : Nat :=
  (List.range t.tokens.size).foldl (fun n i => if (t.rule i).piece then n else n ||| bit i) 0

/-- Pass over one more token, or over a character that begins none. -/
def Passed.next? (t : Tables) (p : Passed) : Option Passed :=
  match t.lex (anyToken t) p.rest with
  | some l =>
    some ⟨Reading.leafOf t l :: p.leaves, p.length + l.gap.length + l.text.length, l.rest⟩
  | none =>
    let gap := p.rest.takeWhile isGap
    match p.rest.drop gap.length with
    | [] => none
    | c :: rest =>
      let leaf : Leaf :=
        { kind := "ERROR", named := true, extra := false, gap := String.ofList gap,
          text := String.singleton c }
      some ⟨leaf :: p.leaves, p.length + gap.length + 1, rest⟩

/-- The children of what is set aside: parts, the last first, and tokens, the last first. -/
def asideChildren (parts : List Part) (leaves : List Leaf) : Forest :=
  parts.foldl (fun f p => p.asChildren { symbol := .token 0 } f)
    (leaves.foldl (fun f l => .cons none (.leaf l) f) .nil)

/-- The reading with its last parts and some tokens of the text set aside. -/
def setAside (initial : State) (depth : Nat) (passed : Passed) (r : Reading) : Reading :=
  let aside := r.parts.take depth
  let below := r.parts.drop depth
  let tree := Tree.error (asideChildren aside passed.leaves)
  let trees := aside.foldl (fun n p => n + treesOf p) 0 + (passed.leaves.filter (!·.extra)).length
  let part : Part :=
    { state := Reading.state initial below, tree, hidden := false, weight := 0 }
  { parts := part :: below
    position := r.position + passed.length
    rest := passed.rest
    cost := r.cost + costOf trees tree.text }

/-- The first reading that goes on once some tokens have been passed over and the fewest parts
possible set aside. -/
def asideWith? (t : Tables) (initial : State) (rs : List Reading) (passed : Passed) :
    Option Reading :=
  (List.range (depthLimit + 1)).findSome? fun depth =>
    rs.findSome? fun r =>
      if depth ≤ r.parts.length && (0 < depth || !passed.leaves.isEmpty) then
        let q := setAside initial depth passed r
        if goesOn t initial q then some q else none
      else none

/-- The readings with something set aside, for more and more tokens that are passed over, as long
as none that was found is cheaper than the tokens passed over alone. -/
def asides (t : Tables) (initial : State) (rs : List Reading) :
    (fuel : Nat) → (best : Option Nat) → Passed → List Reading
  | 0, _, _ => []
  | fuel + 1, best, passed =>
    let alone := (rs.head?.map (·.cost)).getD 0 +
      costOf (passed.leaves.filter (!·.extra)).length (Leaf.textOf passed.leaves.reverse)
    if best.any (· < alone) then []
    else
      let found := asideWith? t initial rs passed
      let best := match found with
        | some q => some (best.elim q.cost (min q.cost))
        | none => best
      found.toList ++
        match passed.next? t with
        | some passed => asides t initial rs fuel best passed
        | none => []

/-- The repairs of a reading that cannot go on. -/
def repairs (t : Tables) (initial : State) (r : Reading) : List Reading :=
  let rs := variants t initial variantLimit [r]
  let supplied := supply? t initial rs
  supplied.toList ++
    asides t initial rs (r.rest.length + 2) (supplied.map (·.cost)) ⟨[], 0, r.rest⟩

end Repair

namespace Tables

open Repair

/-- Everything that was read and everything that is left, set aside. -/
def allAside (t : Tables) : (fuel : Nat) → List Part → Passed → Tree
  | 0, parts, passed => .error (asideChildren parts passed.leaves)
  | fuel + 1, parts, passed =>
    match passed.next? t with
    | some passed => allAside t fuel parts passed
    | none => .error (asideChildren parts passed.leaves)

/-- Let readings go on to the end of the text, repairing the best of those that got furthest
whenever none can go on. -/
def repairFrom (t : Tables) (initial : State) : (fuel : Nat) → List Reading → Tree
  | 0, rs => t.allAside 0 ((rs.head?.map (·.parts)).getD []) ⟨[], 0, []⟩
  | fuel + 1, rs =>
    let round := Round.next t initial rs
    match round.going, Reading.best round.finished, Reading.best round.stuck with
    | [], some r, _ => r.root t
    | [], none, some r =>
      match repairs t initial r with
      | [] => t.allAside (r.rest.length + 1) r.parts ⟨[], 0, r.rest⟩
      | rs => repairFrom t initial fuel rs
    | [], none, none => .error .nil
    | rs, _, _ => repairFrom t initial fuel rs

/-- Read a whole text. A text that the grammar does not derive is repaired. -/
def parse (t : Tables) (s : String) : Tree :=
  let cs := s.toList
  match t.parseFrom t.initial (rounds cs) [.start t.initial cs] with
  | .ok r => r.root t
  | .error rs => t.repairFrom t.initial (2 * rounds cs) rs

end Tables

end PatternHarvest.Grammar
