import PatternHarvest.Grammar.Lexer
import PatternHarvest.Grammar.State
import PatternHarvest.Syntax.Tree

/-!
# Readings

A `Reading` is one way to read a text up to some place: a stack of the parts read so far, each
with the state it leads to. Where a grammar leaves a choice, a reading splits, and all readings go
on side by side; they are kept at the same place of the text, and two that have come to the same
stack of states become one again, the greater dynamic level deciding part by part.
-/

namespace PatternHarvest.Grammar

open PatternHarvest.Syntax

/-- A part of a text that has been read. -/
structure Part where
  /-- The state after the part. -/
  state : State
  tree : Tree
  /-- Whether the part leaves no node of its own. -/
  hidden : Bool
  /-- The sum of the dynamic levels within. -/
  weight : Nat
  deriving Inhabited

/-- One way to read a text up to some place. -/
structure Reading where
  /-- The parts that have been read, the last one first. -/
  parts : List Part
  /-- How many characters have been read, and those that have not. -/
  position : Nat
  rest : List Char
  /-- What the repairs have cost that let the reading go on where the text does not fit. -/
  cost : Nat := 0
  deriving Inhabited

namespace Part

/-- Whether the part stands outside the grammar. -/
def isExtra (p : Part) : Bool :=
  p.tree.isExtra

/-- The part as children of the node it belongs to, at a step of a production: a node of its own,
or, if it leaves none, its parts, which the step's field then names. -/
def asChildren (p : Part) (step : Step) (rest : Forest) : Forest :=
  match step.kind? with
  | some kind => .cons step.field (p.tree.withKind kind) rest
  | none =>
    if p.hidden then named step.field p.tree.children rest
    else .cons step.field p.tree rest
where
  /-- Children before others, under a field unless they have one. -/
  named (field : Option String) : Forest → Forest → Forest
    | .nil, rest => rest
    | .cons own tree more, rest =>
      .cons (own <|> (if tree.isExtra then none else field)) tree (named field more rest)

/-- The children of a node, from the parts in order and the steps of its production. -/
def children : List Step → List Part → Forest
  | _, [] => .nil
  | [], p :: ps => .cons none p.tree (children [] ps)
  | step :: steps, p :: ps =>
    if p.isExtra then .cons none p.tree (children (step :: steps) ps)
    else p.asChildren step (children steps ps)

end Part

namespace Reading

/-- The reading of a text before its first token. A byte order mark there is not part of the
text. -/
def start (initial : State) : List Char → Reading
  | '\uFEFF' :: rest =>
    let mark : Leaf := { kind := "", named := false, extra := true, gap := "", text := "\uFEFF" }
    { parts := [⟨initial, .leaf mark, false, 0⟩], position := 1, rest }
  | s => { parts := [], position := 0, rest := s }

/-- The state that a reading has reached; before the first part it is `initial`. -/
def state (initial : State) : List Part → State
  | [] => initial
  | p :: _ => p.state

/-! ## Completing a production -/

/-- Take the last `n` parts within the grammar, and the extra ones among them, off a stack. The
first list holds them in order. -/
def take : (n : Nat) → (taken : List Part) → List Part → List Part × List Part
  | 0, taken, parts => (taken, parts)
  | _ + 1, taken, [] => (taken, [])
  | n + 1, taken, p :: parts =>
    if p.isExtra then take (n + 1) (p :: taken) parts else take n (p :: taken) parts

/-- Replace the parts of a production by the phrase. Extra parts at the end stay outside. -/
def complete (t : Tables) (initial : State) (p : Production) (r : Reading) : Reading :=
  let extras := r.parts.takeWhile (·.isExtra)
  let (taken, below) := take p.steps.length [] (r.parts.drop extras.length)
  let phrase := t.phrases.getD p.phrase default
  let state := (state initial below).next t (.phrase p.phrase)
  let part : Part :=
    { state
      tree := .node phrase.kind (Part.children p.steps taken)
      hidden := phrase.hidden
      weight := taken.foldl (fun n q => n + q.weight) p.dynamic }
  { r with parts := extras.map (fun q => { q with state }) ++ part :: below }

/-! ## Reading a token -/

/-- The leaf of a token that has been read. -/
def leafOf (t : Tables) (l : Lexeme) : Leaf :=
  let rule := t.rule l.token
  { kind := rule.kind
    named := rule.named
    extra := t.extras.testBit l.token
    gap := String.ofList l.gap
    text := String.ofList l.text }

/-- Read a token. An extra one does not change the state. -/
def shift (t : Tables) (initial : State) (l : Lexeme) (r : Reading) : Reading :=
  let leaf := leafOf t l
  let before := state initial r.parts
  let part : Part :=
    { state := if leaf.extra then before else before.next t (.token l.token)
      tree := .leaf leaf
      hidden := false
      weight := 0 }
  { r with
    parts := part :: r.parts
    position := r.position + l.gap.length + l.text.length
    rest := l.rest }

/-! ## One step -/

/-- What becomes of a reading at a token. -/
inductive Outcome where
  /-- The token has been read. -/
  | read (r : Reading)
  /-- The phrase of the whole text is complete. -/
  | finished (r : Reading)
  /-- The token fits nowhere. -/
  | stuck (r : Reading)

/-- Complete productions until the token can be read. The outcome is that of the reading itself;
the readings that split off on the way come with it, still before the token. A keyword that does
not fit is read as a word where a word fits. -/
def advance (t : Tables) (initial : State) : (fuel : Nat) → Lexeme → Reading →
    Outcome × List Reading
  | 0, _, r => (.stuck r, [])
  | fuel + 1, l, r =>
    if t.extras.testBit l.token then (.read (r.shift t initial l), [])
    else
      let state := state initial r.parts
      let l := if t.keywords.testBit l.token && !(state.wanted t).testBit l.token &&
          (state.wanted t).testBit t.word then { l with token := t.word } else l
      let actions := state.actions t l.token
      if actions.reduce.any (·.production.phrase == 0) then (.finished r, [])
      else
        let completed := actions.reduce.map fun i => r.complete t initial i.production
        if actions.shift then (.read (r.shift t initial l), completed)
        else
          match completed.reverse with
          | [] => (.stuck r, [])
          | last :: others =>
            let (outcome, split) := advance t initial fuel l last
            (outcome, others.reverse ++ split)

/-- How many productions can be completed before a token: with each, the stack shrinks, or a
phrase takes the place of its only part. -/
def advanceFuel (t : Tables) (r : Reading) : Nat :=
  (r.parts.length + 2) * (t.phrases.size + 1)

/-- The next token of a reading. -/
def peek (t : Tables) (initial : State) (r : Reading) : Option Lexeme :=
  t.lex ((state initial r.parts).wanted t ||| t.extras) r.rest

/-- Let readings at one place, and those that split off them, read one token each. -/
def advanceAll (t : Tables) (initial : State) : (fuel : Nat) → List Reading → List Outcome
  | 0, _ => []
  | _, [] => []
  | fuel + 1, r :: rs =>
    match r.peek t initial with
    | none => .stuck r :: advanceAll t initial fuel rs
    | some l =>
      let (outcome, split) := advance t initial (advanceFuel t r) l r
      outcome :: advanceAll t initial fuel (rs ++ split)

/-! ## Bringing readings together -/

/-- Whether two readings have come to the same stack of states. -/
def sameStates : List Part → List Part → Bool
  | [], [] => true
  | p :: ps, q :: qs => p.state.same q.state && p.isExtra == q.isExtra && sameStates ps qs
  | _, _ => false

/-- Of two stacks of the same states, the parts of greater weight. -/
def heavier : List Part → List Part → List Part
  | p :: ps, q :: qs => (if p.weight < q.weight then q else p) :: heavier ps qs
  | ps, _ => ps

/-- One reading for two that have come to the same states: the one that cost less, of two repaired
at one cost the later, and of two without repairs the heavier parts. -/
def unite (q r : Reading) : Reading :=
  if r.cost < q.cost then r
  else if q.cost < r.cost then q
  else if 0 < q.cost then r
  else { q with parts := heavier q.parts r.parts }

/-- Add a reading to others, or bring it together with one that has come to the same states. -/
def join (r : Reading) : List Reading → List Reading
  | [] => [r]
  | q :: rs =>
    if q.position == r.position && q.parts.length == r.parts.length &&
        sameStates q.parts r.parts then
      unite q r :: rs
    else q :: join r rs

end Reading

end PatternHarvest.Grammar
