import PatternHarvest.Text.Utf8

/-!
# Texts in JSON

A text stands between quotes. Quotes, backslashes and control characters are written as escapes,
everything else as it is (`quote`). Reading is a machine that takes one character at a time
(`TextState.step`), so that what it says of an unfinished text is a property of the state it has
reached.
-/

namespace PatternHarvest.Json

/-! ## Writing -/

/-- A hexadecimal digit in lower case. -/
def hexDigit (n : Nat) : Char :=
  if n < 10 then Char.ofNat ('0'.toNat + n) else Char.ofNat ('a'.toNat + (n - 10))

/-- A character as it is written inside quotes. -/
def escape (c : Char) : List Char :=
  match c with
  | '"' => ['\\', '"']
  | '\\' => ['\\', '\\']
  | '\x08' => ['\\', 'b']
  | '\x0c' => ['\\', 'f']
  | '\n' => ['\\', 'n']
  | '\r' => ['\\', 'r']
  | '\t' => ['\\', 't']
  | c =>
    if c.toNat < 0x20 then
      ['\\', 'u', '0', '0', hexDigit (c.toNat / 16), hexDigit (c.toNat % 16)]
    else [c]

/-- A text between quotes. -/
def quote (s : List Char) : List Char :=
  '"' :: (s.flatMap escape ++ ['"'])

/-! ## Reading -/

/-- The value of a hexadecimal digit in either case. -/
def hexValue? (c : Char) : Option Nat :=
  if '0' ≤ c ∧ c ≤ '9' then some (c.toNat - '0'.toNat)
  else if 'a' ≤ c ∧ c ≤ 'f' then some (c.toNat - 'a'.toNat + 10)
  else if 'A' ≤ c ∧ c ≤ 'F' then some (c.toNat - 'A'.toNat + 10)
  else none

/-- The number that hexadecimal digits write. -/
def hexNumber? (s : List Char) : Option Nat :=
  s.foldl (fun n? c => n?.bind fun n => (hexValue? c).map (n * 16 + ·)) (some 0)

/-- Where in a text the reader stands. -/
inductive TextMode where
  /-- Between characters. -/
  | plain
  /-- After a backslash. -/
  | escape
  /-- Among the four digits of a code unit, with those read, the last first, and the leading
  surrogate in front of the escape, if there is one. -/
  | unit (digits : List Char) (lead : Option Nat)
  /-- After a leading surrogate: the escape of its partner has to follow. -/
  | partner (lead : Nat)
  /-- After a leading surrogate and a backslash. -/
  | partnerMark (lead : Nat)
  deriving DecidableEq, Repr

/-- A text of which the opening quote was read. -/
structure TextState where
  /-- The characters read, the last first. -/
  read : List Char := []
  mode : TextMode := .plain
  deriving DecidableEq, Repr

/-- What a character does to a text being read. -/
inductive TextNext where
  | more (state : TextState)
  /-- The text ends, and these are its characters. -/
  | done (text : List Char)
  | refused
  deriving DecidableEq, Repr

namespace TextState

/-- Add a character to what was read. -/
def push (s : TextState) (c : Char) : TextNext :=
  .more { read := c :: s.read, mode := .plain }

/-- Whether a code unit is the first half of a pair. -/
def isLead (n : Nat) : Bool :=
  0xD800 ≤ n && n ≤ 0xDBFF

/-- Whether a code unit is the second half of a pair. -/
def isTrail (n : Nat) : Bool :=
  0xDC00 ≤ n && n ≤ 0xDFFF

/-- Take in a code unit. With `strict`, halves of a pair have to come in pairs; without it they
are passed over. -/
def takeUnit (strict : Bool) (s : TextState) (lead : Option Nat) (n : Nat) : TextNext :=
  if strict then
    match lead with
    | none =>
      if isTrail n then .refused
      else if isLead n then .more { s with mode := .partner n }
      else s.push (Char.ofNat n)
    | some h =>
      if isTrail n then s.push (Char.ofNat (0x10000 + (h - 0xD800) * 0x400 + (n - 0xDC00)))
      else .refused
  else .more { s with mode := .plain }

/-- Read one character. The four places after `\u` are counted in bytes, and judged together once
all are there. -/
def step (strict : Bool) (s : TextState) (c : Char) : TextNext :=
  match s.mode with
  | .plain =>
    if c = '"' then .done s.read.reverse
    else if c = '\\' then .more { s with mode := .escape }
    else if c.toNat < 0x20 then .refused
    else s.push c
  | .escape =>
    match c with
    | '"' => s.push '"'
    | '\\' => s.push '\\'
    | '/' => s.push '/'
    | 'b' => s.push '\x08'
    | 'f' => s.push '\x0c'
    | 'n' => s.push '\n'
    | 'r' => s.push '\r'
    | 't' => s.push '\t'
    | 'u' => .more { s with mode := .unit [] none }
    | _ => .refused
  | .unit digits lead =>
    let digits := c :: digits
    if Text.Utf8.size digits < 4 then .more { s with mode := .unit digits lead }
    else
      match hexNumber? digits.reverse with
      | some n => s.takeUnit strict lead n
      | none => .refused
  | .partner lead =>
    if c = '\\' then .more { s with mode := .partnerMark lead } else .refused
  | .partnerMark lead =>
    if c = 'u' then .more { s with mode := .unit [] (some lead) } else .refused

end TextState

end PatternHarvest.Json
