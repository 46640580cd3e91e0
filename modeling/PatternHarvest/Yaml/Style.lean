import PatternHarvest.Yaml.Untagged

/-!
# The style of a scalar

A text can be written in four styles. Which one is *wanted* depends on what the text is for a
reader: a text of several lines wants the literal style, one that reads as a value single quotes,
any other none. Which ones are *allowed* depends on its characters. Double quotes are always
allowed, so they are the last resort (`Style.choose`).
-/

namespace PatternHarvest.Yaml

/-! ## Characters -/

/-- Whether a character ends a line. -/
def isBreak (c : Char) : Bool :=
  c = '\n' || c = '\r' || c = '\u0085' || c = '\u2028' || c = '\u2029'

/-- Whether a character may stand in a document as it is. -/
def isPrintable (c : Char) : Bool :=
  let n := c.toNat
  n == 0x0A || (0x20 ≤ n && n ≤ 0x7E) || (0xA0 ≤ n && n ≤ 0xFFFD && n != 0xFEFF) || 0x10000 ≤ n

/-- Whether a character parts words: blanks and breaks. -/
def isSeparator (c : Char) : Bool :=
  c = ' ' || c = '\t' || isBreak c

/-- Whether a blank, a break or the end comes next. -/
def separatorNext (s : List Char) : Bool :=
  s.head?.all isSeparator

/-! ## Properties of a text -/

/-- Whether two neighbours are of the classes `p` and `q`. -/
def hasPair (p q : Char → Bool) (s : List Char) : Bool :=
  (s.zip s.tail).any fun e => p e.1 && q e.2

/-- Whether a space stands right before a break. -/
def spaceBeforeBreak (s : List Char) : Bool :=
  hasPair (· = ' ') isBreak s

/-- Whether a space stands right after a break. -/
def spaceAfterBreak (s : List Char) : Bool :=
  hasPair isBreak (· = ' ') s

/-- Whether a text has a character that cannot stand as it is. -/
def isSpecial (s : List Char) : Bool :=
  s.any (!isPrintable ·)

/-- Whether a text opens or closes with a space or a break. -/
def hasLooseEnd (s : List Char) : Bool :=
  let loose := fun c => c = ' ' || isBreak c
  s.head?.any loose || s.getLast?.any loose

/-- The characters that announce something other than a bare scalar. -/
def indicators : List Char :=
  ['#', ',', '[', ']', '\x7b', '\x7d', '&', '*', '!', '|', '>', '\'', '"', '%', '@', '\x60']

/-- Whether a text opens like something other than a bare scalar. -/
def opensIndicator (s : List Char) : Bool :=
  ['-', '-', '-'].isPrefixOf s || ['.', '.', '.'].isPrefixOf s ||
    match s with
    | c :: rest => indicators.contains c || (['?', ':', '-'].contains c && separatorNext rest)
    | [] => false

/-- Whether, behind its first character `before`, a text has a colon that ends a key or a mark
that opens a comment. -/
def holdsIndicator (before : Char) : List Char → Bool
  | [] => false
  | c :: rest =>
    (c = ':' && separatorNext rest) || (c = '#' && isSeparator before) || holdsIndicator c rest

/-! ## Styles -/

/-- How a scalar is written. -/
inductive Style where
  | plain
  | singleQuoted
  | doubleQuoted
  | literal
  deriving DecidableEq, Repr

namespace Style

/-- Whether a text can be written without quotes. -/
def plainAllowed (s : List Char) : Bool :=
  !hasLooseEnd s && !s.any isBreak && !isSpecial s && !opensIndicator s &&
    !(s.head?.any fun c => holdsIndicator c s.tail)

/-- Whether a text can be written between single quotes. -/
def singleQuotedAllowed (s : List Char) : Bool :=
  !isSpecial s && !spaceBeforeBreak s && !spaceAfterBreak s

/-- Whether a text can be written line by line. -/
def literalAllowed (s : List Char) : Bool :=
  !isSpecial s && !spaceBeforeBreak s && s.getLast? != some ' '

/-- The style that suits a text. -/
def wanted (s : List Char) : Style :=
  if s.contains '\n' then .literal
  else if readsAsValue s then .singleQuoted
  else .plain

/-- The style in which a text is written: the wanted one, or the next that is allowed. -/
def choose (s : List Char) : Style :=
  let quoted := if singleQuotedAllowed s then .singleQuoted else .doubleQuoted
  match wanted s with
  | .plain => if plainAllowed s then .plain else quoted
  | .singleQuoted => quoted
  | .literal => if literalAllowed s then .literal else .doubleQuoted
  | .doubleQuoted => .doubleQuoted

end Style

end PatternHarvest.Yaml
