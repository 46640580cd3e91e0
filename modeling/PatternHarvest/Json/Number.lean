import PatternHarvest.Decimal

/-!
# Numbers in JSON

A machine that reads a number one character at a time. A number has no closing mark: it ends in
front of the first character that cannot continue it.

A number stands for a double. It is a word of 64 bits, which takes the leading digits, times a power
of ten; both are rounded to doubles before they are multiplied, and so is their product. What comes
out infinite is no number (`NumberState.overflows`).
-/

namespace PatternHarvest.Json

/-- Where in a number the reader stands. -/
inductive NumberPhase where
  /-- After the sign. -/
  | sign
  /-- After a leading zero, which no digit may follow. -/
  | zero
  | whole
  /-- After the decimal point, before any digit of the fraction. -/
  | point
  | fraction
  /-- After the letter of the exponent. -/
  | mark
  /-- After the sign of the exponent. -/
  | exponentSign
  | exponent
  deriving DecidableEq, Repr

/-- A number being read. -/
structure NumberState where
  phase : NumberPhase
  /-- The leading digits, as one number. -/
  word : Nat := 0
  /-- The power of ten that the digits before the exponent leave to the word. -/
  scale : Int := 0
  /-- Whether a digit of the part being read no longer fitted into the word. -/
  full : Bool := false
  exponentNegative : Bool := false
  /-- The digits of the exponent, as one number. -/
  exponent : Nat := 0
  deriving DecidableEq, Repr

/-- What a character does to a number being read. -/
inductive NumberNext where
  | more (state : NumberState)
  /-- The number ends in front of the character. -/
  | ends
  | refused
  deriving DecidableEq, Repr

/-- The nearest number of 53 binary digits, of two that are equally near the even one. -/
def roundBinary (n : Nat) : Nat :=
  let unit := 1 <<< (n.log2 + 1 - 53)
  let whole := n / unit
  let rest := 2 * (n % unit)
  (if unit < rest ∨ (rest = unit ∧ whole % 2 = 1) then whole + 1 else whole) * unit

namespace NumberState

/-- The state after a minus sign. -/
def negative : NumberState := { phase := .sign }

/-- The state after a first digit. -/
def first (c : Char) : NumberState :=
  if c = '0' then { phase := .zero } else { phase := .whole, word := digitValue c }

/-- The word with one more digit, if it fits and all before it did. -/
def widen? (s : NumberState) (c : Char) : Option Nat :=
  let n := s.word * 10 + digitValue c
  if s.full || 1 <<< 64 ≤ n then none else some n

/-- Read a digit of the whole part. One that does not fit is only counted. -/
def pushWhole (s : NumberState) (c : Char) : NumberState :=
  match s.widen? c with
  | some word => { s with phase := .whole, word }
  | none => { s with phase := .whole, full := true, scale := s.scale + 1 }

/-- Read a digit of the fraction. One that does not fit is passed over. -/
def pushPlace (s : NumberState) (c : Char) : NumberState :=
  match s.widen? c with
  | some word => { s with phase := .fraction, word, scale := s.scale - 1 }
  | none => { s with phase := .fraction, full := true }

/-- Read a digit of the exponent. -/
def pushExponent (s : NumberState) (c : Char) : NumberState :=
  { s with phase := .exponent, exponent := s.exponent * 10 + digitValue c }

/-- Leave a whole number: a point, an exponent, or the end. -/
def afterWhole (s : NumberState) (c : Char) : NumberNext :=
  if c = '.' then .more { s with phase := .point, full := false }
  else if c = 'e' ∨ c = 'E' then .more { s with phase := .mark }
  else .ends

/-- Read one character. -/
def step (s : NumberState) (c : Char) : NumberNext :=
  match s.phase with
  | .sign => if c.isDigit then .more (first c) else .refused
  | .zero => if c.isDigit then .refused else s.afterWhole c
  | .whole => if c.isDigit then .more (s.pushWhole c) else s.afterWhole c
  | .point => if c.isDigit then .more (s.pushPlace c) else .refused
  | .fraction =>
    if c.isDigit then .more (s.pushPlace c)
    else if c = 'e' ∨ c = 'E' then .more { s with phase := .mark }
    else .ends
  | .mark =>
    if c.isDigit then .more (s.pushExponent c)
    else if c = '+' then .more { s with phase := .exponentSign }
    else if c = '-' then .more { s with phase := .exponentSign, exponentNegative := true }
    else .refused
  | .exponentSign => if c.isDigit then .more (s.pushExponent c) else .refused
  | .exponent => if c.isDigit then .more (s.pushExponent c) else .ends

/-- Whether a number may end here. -/
def isComplete (s : NumberState) : Bool :=
  match s.phase with
  | .zero | .whole | .fraction | .exponent => true
  | .sign | .point | .mark | .exponentSign => false

/-- The power of ten of a number, its exponent taken in. -/
def power (s : NumberState) : Int :=
  if s.exponentNegative then s.scale - s.exponent else s.scale + s.exponent

/-- The largest power of ten that is a double. -/
def powerLimit : Nat := 308

/-- Whether a number is too large for a double. -/
def overflows (s : NumberState) : Bool :=
  match s.power with
  | .ofNat k =>
    if s.word = 0 then false
    else if powerLimit < k then true
    else Decimal.infinity ≤ roundBinary s.word * roundBinary (Nat.pow 10 k)
  | .negSucc _ => false

end NumberState

end PatternHarvest.Json
