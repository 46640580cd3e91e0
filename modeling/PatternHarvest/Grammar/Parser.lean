import PatternHarvest.Grammar.Reading

/-!
# Parsing

`Tables.parseFrom` lets readings go on to the end of a text. All readings that the grammar allows
go on side by side, the ones that are behind first, until one of them completes the phrase of the
whole text or none can go on.
-/

namespace PatternHarvest.Grammar

open PatternHarvest.Syntax

/-- The readings of a text after a round: those that go on, those that are complete, and those
that found no fitting token. -/
structure Round where
  going : List Reading := []
  finished : List Reading := []
  stuck : List Reading := []

namespace Round

/-- Add the outcome of one reading. -/
def add (rd : Round) : Reading.Outcome → Round
  | .read r => { rd with going := r.join rd.going }
  | .finished r => { rd with finished := r.join rd.finished }
  | .stuck r => { rd with stuck := rd.stuck ++ [r] }

/-- The least place that a reading has reached. -/
def behind : List Reading → Nat
  | [] => 0
  | [r] => r.position
  | r :: rs => min r.position (behind rs)

/-- Put the outcomes of the readings at one place where the readings stood; outcomes of readings
that have split off come last. -/
def weave (position : Nat) : List Reading → List Reading.Outcome → List Reading.Outcome
  | [], os => os
  | r :: rs, os =>
    if r.position == position then
      match os with
      | [] => weave position rs []
      | o :: os => o :: weave position rs os
    else .read r :: weave position rs os

/-- How many readings may split off in one round. -/
def splitLimit : Nat := 1000

/-- Let the readings that are behind read one token each. -/
def next (t : Tables) (initial : State) (rs : List Reading) : Round :=
  let position := behind rs
  let now := rs.filter (·.position == position)
  let outcomes := Reading.advanceAll t initial (now.length + splitLimit) now
  (weave position rs outcomes).foldl add {}

end Round

/-- The tree of a finished reading. -/
def Reading.root (t : Tables) (r : Reading) : Tree :=
  .node (t.phrases.getD 0 default).kind
    (r.parts.foldl (fun f p => p.asChildren { symbol := .token 0 } f) .nil)

namespace Reading

/-- The sum of the weights of a reading. -/
def weight (r : Reading) : Nat :=
  r.parts.foldl (fun n p => n + p.weight) 0

/-- Whether a reading is worse than one that comes later. -/
def worse (r q : Reading) : Bool :=
  if r.cost == q.cost then 0 < r.cost || weight r < weight q else q.cost < r.cost

/-- The best of finished readings: the one that cost least, of two repaired at one cost the later,
and of those without repairs the heaviest, of equals the first. -/
def best : List Reading → Option Reading
  | [] => none
  | r :: rs =>
    match best rs with
    | none => some r
    | some q => if worse r q then some q else some r

end Reading

namespace Tables

/-- Let readings go on to the end of the text. If none gets there, the ones that got furthest are
returned. -/
def parseFrom (t : Tables) (initial : State) : (fuel : Nat) → List Reading →
    Except (List Reading) Reading
  | 0, rs => .error rs
  | fuel + 1, rs =>
    let round := Round.next t initial rs
    match round.going, Reading.best round.finished with
    | [], some r => .ok r
    | [], none => .error round.stuck
    | rs, _ => parseFrom t initial fuel rs

/-- How many rounds a text can take: in each, the least place that has been reached grows. -/
def rounds (s : List Char) : Nat :=
  s.length + 2

/-- The state before anything of the whole text has been read. -/
def initial (t : Tables) : State :=
  .initial t 0

end Tables

end PatternHarvest.Grammar
