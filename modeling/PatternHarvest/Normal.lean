import PatternHarvest.Text.Blank

/-!
# The normal form of a pattern text

A pattern is reported as the regular expression that the program would compile, not as it is
spelled inside a string literal: surrounding controls and spaces go, and each pair of backslashes
becomes one backslash, pairs being taken from left to right without overlap.
-/

namespace PatternHarvest.Normal

/-- Replace each pair of backslashes by one, from left to right. -/
def collapse : List Char → List Char
  | '\\' :: '\\' :: rest => '\\' :: collapse rest
  | c :: rest => c :: collapse rest
  | [] => []

/-- The normal form of a text given by its characters. -/
def normalizeChars (s : List Char) : List Char :=
  collapse (Text.trim Text.isControlOrSpace s)

/-- The normal form of a pattern text: trimmed, then each pair of backslashes made one. -/
def normalize (s : String) : String :=
  String.ofList (normalizeChars s.toList)

end PatternHarvest.Normal
