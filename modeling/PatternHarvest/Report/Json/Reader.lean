import PatternHarvest.Report
import PatternHarvest.Json.Skip

/-!
# Reading a report from JSON

`read` takes the JSON text of a report to the report, or says what is wrong with the text: it is
no JSON, it ends early, or it is JSON of another shape. The reader is a machine that takes one
character at a time, and the verdict on a text that ends is a function of the state reached, so
what is said of a text that is cut off can be read off the states that its parts lead to.

A report is an object with the field `patterns`, other fields being passed over; an array that
holds the table of patterns alone stands for the same report. Of a name that occurs twice in the
table the last text counts.
-/

namespace PatternHarvest.Report.Json

open PatternHarvest.Json

/-- What is wrong with a text that holds no report. -/
inductive Failure where
  /-- A character that no JSON text has there. -/
  | malformed
  /-- The text ends too early. -/
  | truncated
  /-- JSON as far as it was read, but not of the shape of a report. -/
  | mismatched
  deriving DecidableEq, Repr

/-- What the table of patterns stands in. -/
inductive Place where
  | object
  | array
  deriving DecidableEq, Repr

/-- What a text is read for. -/
inductive Role where
  /-- The name of a field of the report; `found` is the table of patterns if it came before. -/
  | field (found : Option (Table String))
  /-- A name in the table of patterns, of which the entries in `t` came before. -/
  | name (place : Place) (t : Table String)
  /-- The text of a name. -/
  | pattern (place : Place) (t : Table String) (name : String)
  /-- Nothing: a text cannot stand here, but it is read to its end. -/
  | misplaced
  deriving DecidableEq

/-- Where in the text of a report the reader stands. -/
inductive State where
  /-- Before the report. -/
  | start
  /-- After the opening bracket of the report. -/
  | firstField
  /-- After a field of the report. -/
  | afterField (found : Option (Table String))
  /-- After a comma between fields. -/
  | nextField (found : Option (Table String))
  /-- After the name of a field: `isPatterns` tells which. -/
  | fieldColon (found : Option (Table String)) (isPatterns : Bool)
  /-- Inside a field that is passed over. -/
  | skip (found : Option (Table String)) (state : Skip)
  /-- Before the table of patterns. -/
  | table (place : Place)
  /-- After the opening bracket of the table. -/
  | firstEntry (place : Place)
  /-- After an entry of the table. -/
  | afterEntry (place : Place) (t : Table String)
  /-- After a comma between entries. -/
  | nextEntry (place : Place) (t : Table String)
  /-- After a name of the table. -/
  | entryColon (place : Place) (t : Table String) (name : String)
  /-- Before the text of a name. -/
  | entryValue (place : Place) (t : Table String) (name : String)
  /-- After the table in an array. -/
  | endArray (t : Table String)
  /-- Inside a text. -/
  | text (role : Role) (state : TextState)
  /-- Inside a word that cannot stand here. -/
  | word (rest : List Char)
  /-- Inside a number that cannot stand here. -/
  | number (state : NumberState)
  /-- After the report. -/
  | finished (t : Table String)
  deriving DecidableEq

namespace State

/-- Read the first character of a value that cannot stand here. Brackets are wrong at once, other
values once they are read. -/
def misplaced (c : Char) : Except Failure State :=
  if c = '"' then .ok (.text .misplaced {})
  else if c = '-' then .ok (.number .negative)
  else if c.isDigit then .ok (.number (.first c))
  else if (Bracket.opens? c).isSome then .error .mismatched
  else
    match wordRest? c with
    | some rest => .ok (.word rest)
    | none => .error .malformed

/-- The end of the fields: the report, if the patterns are among them. -/
def endFields (found : Option (Table String)) : Except Failure State :=
  match found with
  | some t => .ok (.finished t)
  | none => .error .mismatched

/-- Stand after the table of patterns. -/
def endTable (place : Place) (t : Table String) : State :=
  match place with
  | .object => .afterField (some t)
  | .array => .endArray t

/-- Read a character after a field. -/
def stepAfterField (found : Option (Table String)) (c : Char) : Except Failure State :=
  if isSpace c then .ok (.afterField found)
  else if c = ',' then .ok (.nextField found)
  else if c = '\x7d' then endFields found
  else .error .malformed

/-- A number that cannot stand here has ended. One beyond the doubles is no number. -/
def endNumber (n : NumberState) : Failure :=
  if n.overflows then .malformed else .mismatched

/-- A text has ended. -/
def endText (role : Role) (chars : List Char) : Except Failure State :=
  match role with
  | .field found =>
    let isPatterns : Bool := String.ofList chars == "patterns"
    if isPatterns && found.isSome then .error .mismatched
    else .ok (.fieldColon found isPatterns)
  | .name place t => .ok (.entryColon place t (String.ofList chars))
  | .pattern place t name => .ok (.afterEntry place (t.insert name (String.ofList chars)))
  | .misplaced => .error .mismatched

/-- Read one character. -/
def step (s : State) (c : Char) : Except Failure State :=
  match s with
  | .start =>
    if isSpace c then .ok s
    else if c = '\x7b' then .ok .firstField
    else if c = '[' then .ok (.table .array)
    else misplaced c
  | .firstField =>
    if isSpace c then .ok s
    else if c = '"' then .ok (.text (.field none) {})
    else if c = '\x7d' then endFields none
    else .error .malformed
  | .afterField found => stepAfterField found c
  | .nextField found =>
    if isSpace c then .ok s
    else if c = '"' then .ok (.text (.field found) {})
    else .error .malformed
  | .fieldColon found isPatterns =>
    if isSpace c then .ok s
    else if c = ':' then .ok (if isPatterns then .table .object else .skip found {})
    else .error .malformed
  | .skip found state =>
    match state.step c with
    | .more state => .ok (.skip found state)
    | .done => .ok (.afterField found)
    | .ends => stepAfterField found c
    | .refused => .error .malformed
  | .table place =>
    if isSpace c then .ok s
    else if c = '\x7b' then .ok (.firstEntry place)
    else if c = ']' ∧ place = .array then .error .mismatched
    else misplaced c
  | .firstEntry place =>
    if isSpace c then .ok s
    else if c = '"' then .ok (.text (.name place .empty) {})
    else if c = '\x7d' then .ok (endTable place .empty)
    else .error .malformed
  | .afterEntry place t =>
    if isSpace c then .ok s
    else if c = ',' then .ok (.nextEntry place t)
    else if c = '\x7d' then .ok (endTable place t)
    else .error .malformed
  | .nextEntry place t =>
    if isSpace c then .ok s
    else if c = '"' then .ok (.text (.name place t) {})
    else .error .malformed
  | .entryColon place t name =>
    if isSpace c then .ok s
    else if c = ':' then .ok (.entryValue place t name)
    else .error .malformed
  | .entryValue place t name =>
    if isSpace c then .ok s
    else if c = '"' then .ok (.text (.pattern place t name) {})
    else misplaced c
  | .endArray t =>
    if isSpace c then .ok s
    else if c = ']' then .ok (.finished t)
    else .error .malformed
  | .text role state =>
    match state.step true c with
    | .more state => .ok (.text role state)
    | .done chars => endText role chars
    | .refused => .error .malformed
  | .word rest =>
    match rest with
    | [] => .error .malformed
    | [d] => .error (if c = d then .mismatched else .malformed)
    | d :: rest => if c = d then .ok (.word rest) else .error .malformed
  | .number n =>
    match n.step c with
    | .more n => .ok (.number n)
    | .ends => .error (endNumber n)
    | .refused => .error .malformed
  | .finished _ => if isSpace c then .ok s else .error .malformed

/-- The verdict on a text that ends here. -/
def finish (s : State) : Except Failure Report :=
  match s with
  | .finished t => .ok ⟨t⟩
  | .number n => .error (if n.isComplete then endNumber n else .truncated)
  | .skip _ state => .error (if state.mayContinue then .truncated else .malformed)
  | _ => .error .truncated

/-- The verdict on the rest of a text. -/
def run : State → List Char → Except Failure Report
  | s, [] => s.finish
  | s, c :: cs =>
    match s.step c with
    | .ok s => run s cs
    | .error f => .error f

end State

/-- Read a report, by its characters. -/
def readChars (s : List Char) : Except Failure Report :=
  State.run .start s

/-- Read a report. -/
def read (s : String) : Except Failure Report :=
  readChars s.toList

end PatternHarvest.Report.Json
