import PatternHarvest.Text.Identifier

/-!
# Regular expressions over characters

`Regex` is the language of token patterns. A matcher reads a text one character at a time and
keeps, instead of a position in an automaton, the finitely many regular expressions that the rest
of a match may still satisfy: `Regex.derive r c` lists them after the character `c`.
-/

namespace PatternHarvest.Grammar

/-- A class of characters. -/
inductive CharSet where
  | range (lo hi : Char)
  /-- The Unicode property `XID_Start`. -/
  | idStart
  /-- The Unicode property `XID_Continue`. -/
  | idContinue
  | union (a b : CharSet)
  /-- Every character that is not in the class, save NUL: no class holds NUL by exclusion. -/
  | compl (a : CharSet)
  deriving DecidableEq, Inhabited, Repr

namespace CharSet

/-- Whether a character is in the class. -/
def contains : CharSet → Char → Bool
  | range lo hi, c => lo ≤ c && c ≤ hi
  | idStart, c => Text.isIdStart c
  | idContinue, c => Text.isIdContinue c
  | union a b, c => a.contains c || b.contains c
  | compl a, c => c != '\x00' && !a.contains c

/-- The class of the characters of a text. -/
def ofList : List Char → CharSet
  | [] => range '\x01' '\x00'
  | [c] => range c c
  | c :: cs => union (range c c) (ofList cs)

end CharSet

/-- A regular expression. -/
inductive Regex where
  | empty
  | epsilon
  | chars (set : CharSet)
  | seq (a b : Regex)
  | alt (a b : Regex)
  /-- Any number of repetitions, also none. -/
  | star (a : Regex)
  deriving DecidableEq, Inhabited, Repr

namespace Regex

/-! ## Building -/

/-- Exactly the given text. -/
def text : List Char → Regex
  | [] => epsilon
  | [c] => chars (.range c c)
  | c :: cs => seq (chars (.range c c)) (text cs)

/-- One of several. -/
def any : List Regex → Regex
  | [] => empty
  | [r] => r
  | r :: rs => alt r (any rs)

/-- One after the other. -/
def all : List Regex → Regex
  | [] => epsilon
  | [r] => r
  | r :: rs => seq r (all rs)

/-- Once or not at all. -/
def opt (r : Regex) : Regex :=
  alt r epsilon

/-- At least once. -/
def plus (r : Regex) : Regex :=
  seq r (star r)

/-- At least once, with `separator` between. -/
def separated (r separator : Regex) : Regex :=
  seq r (star (seq separator r))

/-- Exactly `n` times. -/
def times (r : Regex) : Nat → Regex
  | 0 => epsilon
  | 1 => r
  | n + 1 => seq r (times r n)

/-! ## Matching -/

/-- Whether the empty text is in the language. -/
def nullable : Regex → Bool
  | empty => false
  | epsilon => true
  | chars _ => false
  | seq a b => a.nullable && b.nullable
  | alt a b => a.nullable || b.nullable
  | star _ => true

/-- `a` followed by `b`, without an idle empty part. -/
def followedBy : Regex → Regex → Regex
  | epsilon, b => b
  | a, b => seq a b

/-- The regular expressions that the rest of a match may satisfy once `c` has been read. -/
def derive : Regex → Char → List Regex
  | empty, _ => []
  | epsilon, _ => []
  | chars set, c => if set.contains c then [epsilon] else []
  | seq a b, c =>
    let first := (a.derive c).map (followedBy · b)
    if a.nullable then first ++ b.derive c else first
  | alt a b, c => a.derive c ++ b.derive c
  | star a, c => (a.derive c).map (followedBy · (star a))

/-- Whether a whole text is in the language, by derivatives. -/
def accepts (r : Regex) (s : List Char) : Bool :=
  go [r] s
where
  /-- Whether one of several regular expressions accepts. -/
  go : List Regex → List Char → Bool
    | rs, [] => rs.any nullable
    | rs, c :: s => go (rs.flatMap (·.derive c)).eraseDups s

end Regex

end PatternHarvest.Grammar
