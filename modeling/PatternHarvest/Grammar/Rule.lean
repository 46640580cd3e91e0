import PatternHarvest.Grammar.Regex

/-!
# Grammars as data

A `Grammar` names its tokens, which are regular expressions, and its phrases, which are `Rule`s.
Rules carry what a parser needs beside the sequence of parts: names and kinds for the tree,
levels of precedence and associativity for choosing between readings in advance, and dynamic levels
for choosing between finished readings.
-/

namespace PatternHarvest.Grammar

/-- Which side an operator of equal level binds to. -/
inductive Assoc where
  | left
  | right
  deriving DecidableEq, Inhabited, Repr

/-- What a phrase consists of. -/
inductive Rule where
  /-- Nothing. -/
  | blank
  /-- A token that is exactly this text. -/
  | literal (text : String)
  /-- A named token or phrase. -/
  | ref (name : String)
  | seq (a b : Rule)
  | choice (a b : Rule)
  /-- One or more repetitions. -/
  | many (a : Rule)
  /-- A level of precedence, with the associativity if one is given. -/
  | prec (level : Int) (assoc : Option Assoc) (a : Rule)
  /-- A level that counts when two finished readings compete. -/
  | dynamic (level : Nat) (a : Rule)
  /-- Another kind for the nodes of a part. -/
  | called (kind : String) (a : Rule)
  /-- A name under which the enclosing node knows a part. -/
  | field (name : String) (a : Rule)
  deriving DecidableEq, Inhabited, Repr

/-- A text in a rule stands for the token of that text. -/
instance : Coe String Rule := ⟨.literal⟩

namespace Rule

/-- One part after the other. -/
def all : List Rule → Rule
  | [] => blank
  | [r] => r
  | r :: rs => seq r (all rs)

/-- One of several. -/
def any : List Rule → Rule
  | [] => blank
  | [r] => r
  | r :: rs => choice r (any rs)

/-- Once or not at all. -/
def opt (r : Rule) : Rule :=
  choice r blank

/-- Any number of times. -/
def rep (r : Rule) : Rule :=
  choice (many r) blank

/-- At least once, with `separator` between. -/
def separated (r separator : Rule) : Rule :=
  seq r (rep (seq separator r))

/-- At least once, with commas between. -/
def commaList (r : Rule) : Rule :=
  separated r ","

/-- Any number of times, with commas between. -/
def commas (r : Rule) : Rule :=
  opt (commaList r)

/-- The texts that occur as tokens, from left to right. -/
def literals : Rule → List String
  | blank | ref _ => []
  | literal text => [text]
  | seq a b | choice a b => a.literals ++ b.literals
  | many a | prec _ _ a | dynamic _ a | called _ a | field _ a => a.literals

/-- The rules that occur repeated, inner before outer. -/
def repeated : Rule → List Rule
  | blank | ref _ | literal _ => []
  | seq a b | choice a b => a.repeated ++ b.repeated
  | many a => a.repeated ++ [a]
  | prec _ _ a | dynamic _ a | called _ a | field _ a => a.repeated

end Rule

/-- A token of a grammar. -/
structure TokenRule where
  kind : String
  pattern : Regex
  /-- Whether its nodes are named; those of punctuation and keywords are not. -/
  named : Bool := true
  /-- Whether it has to follow the token before it without a gap. -/
  immediate : Bool := false
  /-- Its level: of tokens that match, a higher one hides a lower one. -/
  level : Nat := 0
  /-- What decides between tokens of one level that match the same text. -/
  rank : Nat := 1
  /-- The text, of a token that is one text only. -/
  text? : Option String := none
  /-- Whether it is a piece of a string or the like, and makes no sense elsewhere. -/
  piece : Bool := false
  deriving Inhabited, Repr

/-- A token that is exactly a given text. It outranks the tokens that match by a pattern. -/
def TokenRule.ofText (kind text : String) (named : Bool) : TokenRule :=
  { kind, pattern := .text text.toList, named, rank := 2, text? := some text }

end PatternHarvest.Grammar

namespace PatternHarvest

/-- A grammar. -/
structure Grammar where
  /-- The named tokens. -/
  tokens : List Grammar.TokenRule
  /-- The phrases by name, the whole text's phrase first. A name that starts with an underscore
  leaves no node: the parts of such a phrase belong to the phrase around it. -/
  rules : List (String × Grammar.Rule)
  /-- Further phrases that leave no node. -/
  transparent : List String
  /-- The tokens that may stand between any two others. -/
  extras : List String
  /-- The token of identifiers: literal tokens that match it are keywords. -/
  word : String
  deriving Inhabited

end PatternHarvest
