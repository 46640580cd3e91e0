import PatternHarvest.Text.Blank

/-!
# The contents of a string literal

`contents?` takes the quotes off a string literal. Text blocks, which open with three quotes, are
no string literals here.
-/

namespace PatternHarvest.Java.Literal

/-- The characters between an opening quote, already read, and a closing quote that ends the
text. -/
def unquote? (s : List Char) : Option (List Char) :=
  match s.reverse with
  | '"' :: inner => some inner.reverse
  | _ => none

/-- `contents?` on characters. -/
def contentsChars? (s : List Char) : Option (List Char) :=
  match Text.trim Text.isBlank s with
  | '"' :: '"' :: '"' :: _ => none
  | '"' :: rest => unquote? rest
  | _ => none

/-- The characters between the quotes of a string literal, blanks around it being dropped; nothing
for a text that is not one, or that opens with three quotes. -/
def contents? (s : String) : Option String :=
  (contentsChars? s.toList).map String.ofList

end PatternHarvest.Java.Literal
