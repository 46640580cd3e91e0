import PatternHarvest.Decimal

/-!
# What a bare scalar reads as

A scalar without quotes and without a tag is read as nothing, as a truth value or as a number if
it looks like one. A text that looks like one has to be quoted to stay a text.
-/

namespace PatternHarvest.Yaml

/-- The spellings of nothing, of the truth values, and of the numbers that are words. -/
def words : List String :=
  ["", "null", "Null", "NULL", "~", "true", "True", "TRUE", "false", "False", "FALSE",
    ".inf", ".Inf", ".INF", "+.inf", "+.Inf", "+.INF", "-.inf", "-.Inf", "-.INF",
    ".nan", ".NaN", ".NAN"]

/-- Whether a text is one of the words that stand for a value. -/
def isWord (s : List Char) : Bool :=
  words.contains (String.ofList s)

/-- A text without its sign. -/
def unsigned : List Char → List Char
  | '+' :: s => s
  | '-' :: s => s
  | s => s

/-- Whether a text opens with a minus sign. -/
def isNegative (s : List Char) : Bool :=
  s.head? == some '-'

/-! ## Integers with a base -/

/-- The value of a digit in any base up to sixteen. -/
def baseDigit? (base : Nat) (c : Char) : Option Nat :=
  let n := c.toNat
  let value :=
    if '0' ≤ c ∧ c ≤ '9' then n - '0'.toNat
    else if 'a' ≤ c ∧ c ≤ 'f' then n - 'a'.toNat + 10
    else if 'A' ≤ c ∧ c ≤ 'F' then n - 'A'.toNat + 10
    else base
  if value < base then some value else none

/-- The number that digits of a base write, if there is at least one. -/
def baseNumber? (base : Nat) (s : List Char) : Option Nat :=
  if s.isEmpty then none
  else s.foldl (fun n? c => n?.bind fun n => (baseDigit? base c).map (n * base + ·)) (some 0)

/-- The base that the letter after a zero announces. -/
def baseOf? (c : Char) : Option Nat :=
  match c with
  | 'x' => some 16
  | 'o' => some 8
  | 'b' => some 2
  | _ => none

/-- The largest magnitude of an integer: 128 bits, of which a negative one loses one to the
sign. -/
def magnitudeLimit (negative : Bool) : Nat :=
  if negative then 1 <<< 127 else (1 <<< 128) - 1

/-- Whether a text is an integer with a base, its sign aside, and within 128 bits. -/
def isBased (s : List Char) : Bool :=
  match unsigned s with
  | '0' :: c :: digits =>
    match (baseOf? c).bind (baseNumber? · digits) with
    | some n => n ≤ magnitudeLimit (isNegative s)
    | none => false
  | _ => false

/-! ## Decimal numbers -/

/-- Whether a text is a run of digits behind a zero, its sign aside. Such a text is no number, but
it is kept apart from numbers by quotes. -/
def isPadded (s : List Char) : Bool :=
  match unsigned s with
  | '0' :: c :: digits => (c :: digits).all Char.isDigit
  | _ => false

/-- The exponent that the end of a numeral writes: nothing, or a letter and an integer. -/
def exponent? : List Char → Option Int
  | [] => some 0
  | c :: s =>
    let digits := unsigned s
    if (c = 'e' ∨ c = 'E') ∧ ¬digits.isEmpty ∧ digits.all Char.isDigit then
      some (if isNegative s then -(digitsValue digits : Int) else digitsValue digits)
    else none

/-- The digits behind a decimal point, and what follows them. -/
def fraction : List Char → List Char × List Char
  | '.' :: s => s.span Char.isDigit
  | s => ([], s)

/-- The number that a decimal numeral writes, its sign aside: digits on at least one side of the
point, and an exponent if there is one. -/
def decimal? (s : List Char) : Option Decimal :=
  let (whole, rest) := (unsigned s).span Char.isDigit
  let (places, rest) := fraction rest
  if (whole ++ places).isEmpty then none
  else (exponent? rest).map fun e => ⟨digitsValue (whole ++ places), e - places.length⟩

/-- Whether a text is a decimal numeral of a finite double. -/
def isDecimal (s : List Char) : Bool :=
  (decimal? s).any (!·.overflows)

/-- Whether a bare scalar would be read as something else than a text, or as a text only because
of a padding zero. -/
def readsAsValue (s : List Char) : Bool :=
  isWord s || isBased s || isPadded s || isDecimal s

end PatternHarvest.Yaml
