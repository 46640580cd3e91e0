import PatternHarvest.Grammar.Tables

/-!
# Reading one token

`Tables.lex` reads the next token of a text, out of those that are wanted. All wanted tokens are
followed at once, one `Thread` each, and the longest match counts. A gap of blanks may stand before
a token, unless the token is immediate.

Two further rules decide when several tokens match. At one length, the higher level wins, then the
higher rank, then the earlier token. And once a token has matched, a longer match counts only if
the character that leads on belongs to no lower level; at the same level it must not lengthen a
gap, and where a gap may still grow it must lead on within the token that has matched.
-/

namespace PatternHarvest.Grammar

/-- The blanks that may stand between tokens. -/
def isGap (c : Char) : Bool :=
  c == ' ' || (9 ≤ c.toNat && c.toNat ≤ 13)

/-- A token that is being read: what its match still needs, or `none` before its first character,
where the gap may grow. -/
structure Thread where
  token : Nat
  need? : Option Regex
  deriving DecidableEq, Inhabited, Repr

/-- What a lexer has read: the token, the gap before it, its text, and the rest. -/
structure Lexeme where
  token : Nat
  gap : List Char
  text : List Char
  rest : List Char
  deriving Inhabited, Repr

namespace Tables

/-- The rule of a token. -/
def rule (t : Tables) (token : Nat) : TokenRule :=
  t.tokens.getD token default

/-! ## Threads -/

/-- The threads for the wanted tokens, keywords being read as words. -/
def threads (t : Tables) (wanted : Nat) : List Thread :=
  let words := if (wanted &&& t.keywords) == 0 then 0 else bit t.word
  let wanted := (wanted &&& (wanted ^^^ (wanted &&& t.keywords))) ||| words
  (List.range t.tokens.size).filterMap fun i =>
    if wanted.testBit i then
      let r := t.rule i
      some ⟨i, if r.immediate then some r.pattern else none⟩
    else none

/-- The patterns a thread can go on with. -/
def needs (t : Tables) (th : Thread) : Regex :=
  th.need?.getD (t.rule th.token).pattern

/-- The threads that a character leads to within the token of a thread. -/
def read (t : Tables) (c : Char) (th : Thread) : List Thread :=
  ((t.needs th).derive c).map fun r => ⟨th.token, some r⟩

/-- The threads for which a character lengthens the gap. -/
def gapThreads (c : Char) (ths : List Thread) : List Thread :=
  if isGap c then ths.filter (·.need?.isNone) else []

/-! ## Choosing between tokens -/

/-- Whether token `a` is preferred to token `b` when both match a text. -/
def prefers (t : Tables) (a b : Nat) : Bool :=
  let ra := t.rule a
  let rb := t.rule b
  if ra.level == rb.level then
    if ra.rank == rb.rank then a < b else rb.rank < ra.rank
  else rb.level < ra.level

/-- The preferred one of the tokens that have matched. -/
def matched? (t : Tables) (ths : List Thread) : Option Nat :=
  ths.foldl (fun best th =>
    if th.need?.any Regex.nullable then
      match best with
      | some b => if t.prefers b th.token then best else some th.token
      | none => some th.token
    else best) none

/-- Where a character leads: the next threads, and whether it only lengthens the gap. -/
structure Move where
  threads : List Thread
  isGap : Bool
  level : Nat

/-- Where a character leads from some threads; nothing, if no token can go on with it. -/
def move? (t : Tables) (ths : List Thread) (c : Char) : Option Move :=
  let reading := ths.flatMap (t.read c)
  let waiting := gapThreads c ths
  match reading, waiting with
  | [], [] => none
  | _, _ =>
    let next := reading.eraseDups ++ waiting
    some ⟨next, reading.isEmpty, next.foldl (fun n th => max n (t.rule th.token).level) 0⟩

/-- Whether a match of `token` may be given up for a longer one through `move`, from threads of
which `gapOpen` tells whether the gap may still grow. -/
def Move.extends (t : Tables) (token : Nat) (gapOpen : Bool) (m : Move) : Bool :=
  let level := (t.rule token).level
  if m.level == level then
    !m.isGap && (!gapOpen || m.threads.any (·.token == token))
  else level < m.level

/-! ## Longest match -/

/-- A match, its gap and its text last character first. -/
structure Found where
  token : Nat
  gap : List Char
  text : List Char
  rest : List Char

/-- Follow the threads along a text. `gap` and `text` hold, last first, the gap and what has been
read of the token; `best` is the longest match so far. -/
def follow (t : Tables) (gap text : List Char) (best : Option Found) (ths : List Thread) :
    List Char → Option Found
  | [] => best
  | c :: rest =>
    match t.move? ths c with
    | none => best
    | some m =>
      let goesOn := match t.matched? ths with
        | some token => m.extends t token (ths.any (·.need?.isNone))
        | none => true
      if goesOn then
        let gap := if m.isGap then c :: gap else gap
        let text := if m.isGap then text else c :: text
        let best := match t.matched? m.threads with
          | some token => some ⟨token, gap, text, rest⟩
          | none => best
        follow t gap text best m.threads rest
      else best

/-- The keyword that a word is, if it is one of the wanted ones; else the word. -/
def keyword (t : Tables) (wanted : Nat) (text : List Char) : Nat :=
  let word := String.ofList text
  let candidates := wanted &&& t.keywords
  match (List.range t.tokens.size).find? fun i =>
    candidates.testBit i && (t.rule i).text? == some word with
  | some i => i
  | none => t.word

/-- Read the next token of a text, out of the wanted ones. The end of the text is read as a token
without text. -/
def lex (t : Tables) (wanted : Nat) (s : List Char) : Option Lexeme :=
  let gap := s.takeWhile isGap
  let rest := s.drop gap.length
  match t.follow [] [] none (t.threads wanted) s with
  | some f =>
    let text := f.text.reverse
    let token := if f.token == t.word then t.keyword wanted text else f.token
    some ⟨token, f.gap.reverse, text, f.rest⟩
  | none =>
    if rest.isEmpty && wanted.testBit t.endToken then some ⟨t.endToken, gap, [], []⟩ else none

end Tables

end PatternHarvest.Grammar
