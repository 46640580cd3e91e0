import PatternHarvest.Json.Text
import PatternHarvest.Json.Number

/-!
# Passing over a JSON value

A machine that reads one value of any shape and forgets it. Open brackets are kept on a stack, so
the depth of nesting has no limit.
-/

namespace PatternHarvest.Json

/-- White space between the tokens of JSON. -/
def isSpace (c : Char) : Bool :=
  c = ' ' || c = '\n' || c = '\t' || c = '\r'

/-- What follows the first letter of `null`, `true` and `false`. -/
def wordRest? (c : Char) : Option (List Char) :=
  match c with
  | 'n' => some ['u', 'l', 'l']
  | 't' => some ['r', 'u', 'e']
  | 'f' => some ['a', 'l', 's', 'e']
  | _ => none

/-- An open bracket. -/
inductive Bracket where
  | array
  | object
  deriving DecidableEq, Repr

namespace Bracket

/-- The bracket that a character opens. -/
def opens? (c : Char) : Option Bracket :=
  match c with
  | '[' => some .array
  | '\x7b' => some .object
  | _ => none

/-- The character that closes a bracket. -/
def closing : Bracket → Char
  | .array => ']'
  | .object => '\x7d'

end Bracket

/-- Where in a value the reader stands. -/
inductive SkipPhase where
  /-- A value has to follow. -/
  | value
  /-- After an opening bracket. -/
  | opened
  /-- After a value inside brackets. -/
  | afterValue
  /-- A key has to follow. -/
  | key
  | keyText (state : TextState)
  /-- A colon has to follow. -/
  | colon
  | text (state : TextState)
  | number (state : NumberState)
  /-- Inside a word, of which these letters are missing. -/
  | word (rest : List Char)
  deriving DecidableEq, Repr

/-- A value being passed over, with the brackets open around the reader, the innermost first. -/
structure Skip where
  brackets : List Bracket := []
  phase : SkipPhase := .value
  deriving DecidableEq, Repr

/-- What a character does to a value being passed over. -/
inductive SkipNext where
  | more (state : Skip)
  /-- The value ends with the character. -/
  | done
  /-- The value ends in front of the character. -/
  | ends
  | refused
  deriving DecidableEq, Repr

namespace Skip

/-- Stand after a value that ends with the current character. -/
def endValue : List Bracket → SkipNext
  | [] => .done
  | brackets => .more { brackets, phase := .afterValue }

/-- Close the innermost bracket. -/
def close (s : Skip) : SkipNext :=
  endValue s.brackets.tail

/-- Whether the character closes the innermost bracket. -/
def closes (s : Skip) (c : Char) : Bool :=
  s.brackets.head?.any (·.closing = c)

/-- Read the first character of a value. -/
def beginValue (s : Skip) (c : Char) : SkipNext :=
  if c = '"' then .more { s with phase := .text {} }
  else if c = '-' then .more { s with phase := .number .negative }
  else if c.isDigit then .more { s with phase := .number (.first c) }
  else
    match Bracket.opens? c, wordRest? c with
    | some b, _ => .more { brackets := b :: s.brackets, phase := .opened }
    | none, some rest => .more { s with phase := .word rest }
    | none, none => .refused

/-- Read the first character of a key. -/
def beginKey (s : Skip) (c : Char) : SkipNext :=
  if c = '"' then .more { s with phase := .keyText {} } else .refused

/-- Read the first character of an element: a key in an object, a value elsewhere. -/
def beginElement (s : Skip) (c : Char) : SkipNext :=
  if s.brackets.head? = some .object then s.beginKey c else s.beginValue c

/-- Read a character after a value inside brackets. -/
def afterValue (s : Skip) (c : Char) : SkipNext :=
  if isSpace c then .more { s with phase := .afterValue }
  else if c = ',' then
    .more { s with phase := if s.brackets.head? = some .object then .key else .value }
  else if s.closes c then s.close
  else .refused

/-- Read one character. -/
def step (s : Skip) (c : Char) : SkipNext :=
  match s.phase with
  | .value => if isSpace c then .more s else s.beginValue c
  | .opened =>
    if isSpace c then .more s
    else if s.closes c then s.close
    else s.beginElement c
  | .afterValue => s.afterValue c
  | .key => if isSpace c then .more s else s.beginKey c
  | .keyText t =>
    match t.step false c with
    | .more t => .more { s with phase := .keyText t }
    | .done _ => .more { s with phase := .colon }
    | .refused => .refused
  | .colon =>
    if isSpace c then .more s
    else if c = ':' then .more { s with phase := .value }
    else .refused
  | .text t =>
    match t.step false c with
    | .more t => .more { s with phase := .text t }
    | .done _ => endValue s.brackets
    | .refused => .refused
  | .number n =>
    match n.step c with
    | .more n => .more { s with phase := .number n }
    | .ends => if s.brackets = [] then .ends else s.afterValue c
    | .refused => .refused
  | .word rest =>
    match rest with
    | [] => .refused
    | [d] => if c = d then endValue s.brackets else .refused
    | d :: rest => if c = d then .more { s with phase := .word rest } else .refused

/-- Whether the value may go on where the text ends: everything but an unfinished number. -/
def mayContinue (s : Skip) : Bool :=
  match s.phase with
  | .number n => n.isComplete
  | _ => true

end Skip

end PatternHarvest.Json
