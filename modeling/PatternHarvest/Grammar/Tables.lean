import PatternHarvest.Grammar.Production

/-!
# The tables of a grammar

What a parser asks of a grammar at every step is gathered here once: the productions of each
phrase, the tokens that can open it, and its *openings*, the productions that can begin where the
phrase begins, each with the tokens that may follow it. Sets of tokens are bit sets; beside the
bits of the tokens there is one for the end of the text, and one that stands for "whatever may
follow the phrase itself".

No phrase of a grammar is empty, the phrase of the whole text excepted, so that what can open a
sequence is what can open its first part.
-/

namespace PatternHarvest.Grammar

/-- A phrase: the kind of its nodes, and whether it leaves none. -/
structure Phrase where
  kind : String
  hidden : Bool
  deriving Inhabited, Repr

/-- A production that can begin where some phrase begins, and what may follow it there. -/
structure Opening where
  production : Production
  ahead : Nat
  deriving Inhabited, Repr

/-- The tables of a grammar. Token `tokens.size` is the end of the text. -/
structure Tables where
  tokens : Array TokenRule
  phrases : Array Phrase
  productions : Array (List Production)
  first : Array Nat
  /-- The openings of each phrase, by the number of the symbol that they begin with. -/
  openings : Array (Array (List Opening))
  extras : Nat
  word : Nat
  keywords : Nat
  deriving Inhabited

/-! ## Numbering -/

/-- The place of the first element with a property; the length of the list if there is none. -/
def placeOf {α : Type} (p : α → Bool) (xs : List α) : Nat :=
  xs.findIdx p

/-- The named tokens of a grammar, then the tokens of its literal texts. -/
def allTokens (g : Grammar) : List TokenRule :=
  let texts := (g.rules.flatMap (·.2.literals)).eraseDups
  g.tokens ++ texts.map fun t => .ofText t t false

/-- The rules of a grammar that occur repeated. -/
def repeatedRules (g : Grammar) : List Rule :=
  (g.rules.flatMap (·.2.repeated)).eraseDups

/-- The numbers of a grammar's names, literal texts and repeated rules. -/
def numbering (g : Grammar) : Numbering :=
  let tokens := g.allTokens
  let repeated := g.repeatedRules
  { ofName := fun name =>
      match tokens.findIdx? (fun t => t.named && t.kind == name) with
      | some i => .token i
      | none => .phrase (placeOf (·.1 == name) g.rules)
    ofLiteral := fun text => .token (placeOf (fun t => !t.named && t.kind == text) tokens)
    ofRepeated := fun r => .phrase (g.rules.length + placeOf (· == r) repeated) }

/-- The phrases of a grammar: those with names, then those that repeat a rule. -/
def phrases (g : Grammar) : List Phrase :=
  g.rules.map (fun r => ⟨r.1, r.1.startsWith "_" || g.transparent.contains r.1⟩) ++
    g.repeatedRules.map fun _ => ⟨"", true⟩

/-- The alternatives of each phrase, in the order of the phrases. -/
def alternatives (g : Grammar) : List (List Alternative) :=
  let num := g.numbering
  g.rules.map (·.2.alternativesAlone num) ++
    g.repeatedRules.mapIdx fun i r => r.repetitions num (g.rules.length + i)

/-- Turn alternatives into productions, numbered from `id` on. -/
def numberProductions (id phrase : Nat) : List (List Alternative) → List (List Production)
  | [] => []
  | alts :: rest =>
    alts.mapIdx (fun i a => ⟨id + i, phrase, a.steps, a.dynamic⟩) ::
      numberProductions (id + alts.length) (phrase + 1) rest

/-! ## Sets of numbers -/

/-- The set of one number. -/
def bit (i : Nat) : Nat :=
  1 <<< i

/-- The union of those sets whose places are in `members`. -/
def unionAt (members : Nat) : List Nat → Nat
  | [] => 0
  | s :: sets => (if members.testBit 0 then s else 0) ||| unionAt (members >>> 1) sets

/-- Let every set that holds `k` take in the set at place `k`. -/
def takeIn (sets : List Nat) (k : Nat) : List Nat :=
  let own := sets.getD k 0
  sets.map fun s => if s.testBit k then s ||| own else s

/-- What can be reached from each number in any number of steps, given what can in one. -/
def closure (sets : List Nat) : List Nat :=
  (List.range sets.length).foldl takeIn (sets.mapIdx fun i s => s ||| bit i)

/-! ## How phrases begin -/

/-- The first symbol of a production. -/
def Production.head? (p : Production) : Option Sym :=
  p.steps.head?.map (·.symbol)

/-- The tokens that productions begin with. -/
def firstTokens (ps : List Production) : Nat :=
  ps.foldl (fun n p =>
    match p.head? with
    | some (.token i) => n ||| bit i
    | _ => n) 0

/-- The phrases that productions begin with. -/
def firstPhrases (ps : List Production) : Nat :=
  ps.foldl (fun n p =>
    match p.head? with
    | some (.phrase i) => n ||| bit i
    | _ => n) 0

/-- The phrases that productions consist of alone. -/
def onlyPhrases (ps : List Production) : Nat :=
  firstPhrases (ps.filter (·.steps.length == 1))

/-- The tokens that can open a part, given those of the phrases. -/
def firstOf (first : Array Nat) : Sym → Nat
  | .token i => bit i
  | .phrase i => first.getD i 0

/-- What may follow the first part of a production that something in `ahead` may follow. -/
def followOf (first : Array Nat) (rest : List Step) (ahead : Nat) : Nat :=
  match rest with
  | [] => ahead
  | s :: _ => firstOf first s.symbol

/-! ## Openings

A production can begin where phrase `n` begins if its phrase is a *corner* of `n`, one of the
phrases that can begin `n`. What may follow it there comes from the corners that go on behind it,
or from what may follow `n`, if nothing but single parts stands between them.
-/

/-- How the phrases of a grammar begin. -/
structure Corners where
  /-- The phrases that can begin each phrase, itself among them. -/
  reach : List Nat
  /-- Of each phrase, those that may consist of it alone, itself among them. -/
  hulls : List (List Nat)
  /-- For each phrase, the productions that begin with it and go on: the phrase of each, and what
  it goes on with. -/
  sequels : List (List (Nat × Nat))

/-- The productions that begin with a phrase and go on. -/
def sequelsOf (first : Array Nat) (ps : List Production) (i : Nat) : List (Nat × Nat) :=
  ps.filterMap fun p =>
    match p.steps with
    | s :: next :: _ => if s.symbol == .phrase i then some (p.phrase, firstOf first next.symbol) else none
    | _ => none

/-- How the phrases of a grammar begin, from their productions and opening tokens. -/
def Corners.ofProductions (productions : List (List Production)) (first : Array Nat) : Corners :=
  let units := (closure (productions.map onlyPhrases)).zipIdx
  { reach := closure (productions.map firstPhrases)
    hulls := productions.mapIdx fun i _ =>
      units.filterMap fun (whole, j) => if whole.testBit i then some j else none
    sequels := productions.mapIdx fun i _ => sequelsOf first productions.flatten i }

/-- The openings of a phrase, by the number of the symbol that they begin with: those of `sorted`
whose phrase can begin it. `inherit` is the bit for what may follow the phrase itself. -/
def Corners.openings (c : Corners) (inherit : Nat) (sorted : List (List Production))
    (phrase : Nat) : Array (List Opening) :=
  let reach := c.reach.getD phrase 0
  let behind := c.sequels.map fun qs =>
    qs.foldl (fun n q => if reach.testBit q.1 then n ||| q.2 else n) 0
  let behind := behind.toArray
  let ahead := c.hulls.map fun hulls =>
    hulls.foldl (fun n j => n ||| behind.getD j 0)
      (if hulls.contains phrase then bit inherit else 0)
  let ahead := ahead.toArray
  (sorted.map fun ps => ps.filterMap fun p =>
    if reach.testBit p.phrase then some ⟨p, ahead.getD p.phrase 0⟩ else none).toArray

/-- A number for each symbol: tokens come first. -/
def symbolNumber (tokens : Nat) : Sym → Nat
  | .token i => i
  | .phrase i => tokens + i

/-- The symbols of a grammar, in the order of their numbers. -/
def allSymbols (tokens phrases : Nat) : List Sym :=
  (List.range tokens).map .token ++ (List.range phrases).map .phrase

/-! ## The tables of a grammar -/

/-- The set of the tokens with a property. -/
def tokenSet (p : TokenRule → Bool) (tokens : List TokenRule) : Nat :=
  (tokens.mapIdx fun i t => if p t then bit i else 0).foldl (· ||| ·) 0

/-- The tables of a grammar. -/
def tables (g : Grammar) : Tables :=
  let tokens := g.allTokens
  let phrases := g.phrases
  let productions := numberProductions 0 0 g.alternatives
  let tokensFirst := productions.map firstTokens
  let first := ((closure (productions.map firstPhrases)).map (unionAt · tokensFirst)).toArray
  let corners := Corners.ofProductions productions first
  let sorted := (allSymbols tokens.length phrases.length).map fun x =>
    productions.flatten.filter (·.head? == some x)
  let word := placeOf (fun t => t.named && t.kind == g.word) tokens
  let wordPattern := (tokens[word]?.map (·.pattern)).getD .empty
  { tokens := tokens.toArray
    phrases := phrases.toArray
    productions := productions.toArray
    first
    openings := ((List.range phrases.length).map
      (corners.openings (tokens.length + 1) sorted)).toArray
    extras := tokenSet (fun t => g.extras.contains t.kind) tokens
    word
    keywords := tokenSet (fun t => t.text?.any fun s => wordPattern.accepts s.toList) tokens }

namespace Tables

/-- The number of the token that ends every text. -/
def endToken (t : Tables) : Nat :=
  t.tokens.size

/-- The bit for "whatever may follow the phrase itself". -/
def inherit (t : Tables) : Nat :=
  t.tokens.size + 1

/-- The tokens that can open a part. -/
def firstSet (t : Tables) (s : Sym) : Nat :=
  firstOf t.first s

/-- The openings of a phrase that begin with a symbol. -/
def openingsAt (t : Tables) (phrase : Nat) (s : Sym) : List Opening :=
  (t.openings.getD phrase #[]).getD (symbolNumber t.tokens.size s) []

/-- What may follow an opening of a phrase that something in `follow` may follow. -/
def aheadIn (t : Tables) (o : Opening) (follow : Nat) : Nat :=
  if o.ahead.testBit t.inherit then (o.ahead ^^^ bit t.inherit) ||| follow else o.ahead

end Tables

end PatternHarvest.Grammar
