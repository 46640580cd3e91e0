import PatternHarvest.Yaml.Style

/-!
# Scalars as they are written

A scalar is written in the style that `Style.choose` gives it. What it writes may end a line, and
then no line break has to follow (`Scalar.endsLine`).
-/

namespace PatternHarvest.Yaml.Scalar

/-! ## Between quotes -/

/-- What stands in front of a line of a scalar with indentation `indent`. -/
def margin (indent : Nat) : List Char :=
  List.replicate indent ' '

/-- The characters between single quotes: quotes doubled, and a margin in front of what follows
breaks. `broken` tells whether a break comes before. -/
def singleQuotedBody (indent : Nat) : (broken : Bool) → List Char → List Char
  | broken, [] => if broken then margin indent else []
  | broken, c :: s =>
    if isBreak c then c :: singleQuotedBody indent true s
    else
      (if broken then margin indent else []) ++ (if c = '\'' then ['\'', '\''] else [c]) ++
        singleQuotedBody indent false s

/-- A text between single quotes. -/
def singleQuoted (indent : Nat) (s : List Char) : List Char :=
  '\'' :: (singleQuotedBody indent false s ++ ['\''])

/-- A hexadecimal digit in upper case. -/
def hexDigit (n : Nat) : Char :=
  if n < 10 then Char.ofNat ('0'.toNat + n) else Char.ofNat ('A'.toNat + (n - 10))

/-- The last `width` hexadecimal digits of a number. -/
def hexDigits : (width : Nat) → Nat → List Char
  | 0, _ => []
  | width + 1, n => hexDigits width (n / 16) ++ [hexDigit (n % 16)]

/-- A character by its code point. -/
def codePoint (c : Char) : List Char :=
  let n := c.toNat
  if n ≤ 0xFF then 'x' :: hexDigits 2 n
  else if n ≤ 0xFFFF then 'u' :: hexDigits 4 n
  else 'U' :: hexDigits 8 n

/-- What follows the backslash in the escape of a character. -/
def escapeName (c : Char) : List Char :=
  match c with
  | '\x00' => ['0']
  | '\x07' => ['a']
  | '\x08' => ['b']
  | '\t' => ['t']
  | '\n' => ['n']
  | '\x0b' => ['v']
  | '\x0c' => ['f']
  | '\r' => ['r']
  | '\x1b' => ['e']
  | '"' => ['"']
  | '\\' => ['\\']
  | '\u0085' => ['N']
  | '\u2028' => ['L']
  | '\u2029' => ['P']
  | c => codePoint c

/-- Whether a character is escaped between double quotes. -/
def needsEscape (c : Char) : Bool :=
  c = '"' || c = '\\' || isBreak c || !isPrintable c

/-- A character between double quotes. -/
def escape (c : Char) : List Char :=
  if needsEscape c then '\\' :: escapeName c else [c]

/-- A text between double quotes. -/
def doubleQuoted (s : List Char) : List Char :=
  '"' :: (s.flatMap escape ++ ['"'])

/-! ## Line by line -/

/-- How the end of a literal text is to be read: `-` for no break, `+` for all of several breaks
or for a lone one, nothing for exactly one break. -/
def chomping (s : List Char) : List Char :=
  match s.reverse with
  | [] => ['-']
  | c :: before =>
    if !isBreak c then ['-']
    else if before.head?.all isBreak then ['+']
    else []

/-- The header of a literal text. The indentation is announced where the first character would
hide it. -/
def literalHeader (s : List Char) : List Char :=
  '|' :: ((if s.head?.any fun c => c = ' ' || isBreak c then ['2'] else []) ++ chomping s)

/-- The lines of a literal text, each with a margin unless it is empty. -/
def literalBody (indent : Nat) : (broken : Bool) → List Char → List Char
  | _, [] => []
  | broken, c :: s =>
    if isBreak c then c :: literalBody indent true s
    else (if broken then margin indent else []) ++ c :: literalBody indent false s

/-- A text line by line. -/
def literal (indent : Nat) (s : List Char) : List Char :=
  literalHeader s ++ '\n' :: literalBody indent true s

/-! ## In any style -/

/-- A text as a scalar whose further lines are indented by `indent`. -/
def render (indent : Nat) (s : List Char) : List Char :=
  match Style.choose s with
  | .plain => s
  | .singleQuoted => singleQuoted indent s
  | .doubleQuoted => doubleQuoted s
  | .literal => literal indent s

/-- Whether the scalar of a text ends a line by itself. -/
def endsLine (s : List Char) : Bool :=
  Style.choose s = .literal && s.getLast?.any isBreak

/-- A text as a scalar, and the end of its line. -/
def renderLine (indent : Nat) (s : List Char) : List Char :=
  render indent s ++ if endsLine s then [] else ['\n']

end PatternHarvest.Yaml.Scalar
