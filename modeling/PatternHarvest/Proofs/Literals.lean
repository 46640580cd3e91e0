import PatternHarvest.Java.Literal
import PatternHarvest.Proofs.NormalForm

/-!
# Quotes around a text

A string literal is a text with doubled backslashes between quotes (`Java.Literal.written`). Taking
the quotes off gives back what is between them, as long as the text holds no quote itself: then the
literal does not open with three quotes, and nothing on its ends is blank.
-/

namespace PatternHarvest.Text

/-- A text whose first and last characters stay is not trimmed. -/
theorem trim_eq_self {p : Char → Bool} {a b : Char} (ha : p a = false) (hb : p b = false)
    (s : List Char) : trim p (a :: s ++ [b]) = a :: s ++ [b] := by
  unfold trim trimEnd
  rw [List.cons_append, List.dropWhile_cons_of_neg (by simp [ha]), ← List.cons_append,
    List.reverse_append, List.reverse_singleton, List.singleton_append,
    List.dropWhile_cons_of_neg (by simp [hb]), List.reverse_cons, List.reverse_reverse]

end PatternHarvest.Text

namespace PatternHarvest.Java.Literal

/-- A text as a string literal: between quotes, with every backslash doubled. -/
def written (s : String) : String :=
  "\"" ++ String.ofList (Normal.escape s.toList) ++ "\""

theorem toList_written (s : String) :
    (written s).toList = '"' :: Normal.escape s.toList ++ ['"'] := by
  simp [written]

theorem unquote?_concat (s : List Char) : unquote? (s ++ ['"']) = some s := by
  unfold unquote?
  rw [List.reverse_append, List.reverse_singleton, List.singleton_append]
  simp

/-- Text between quotes that holds no quote is what the quotes enclose. -/
theorem contentsChars?_quoted {s : List Char} (h : '"' ∉ s) :
    contentsChars? ('"' :: s ++ ['"']) = some s := by
  have hblank : Text.isBlank '"' = false := by decide
  unfold contentsChars?
  rw [Text.trim_eq_self hblank hblank, List.cons_append]
  split
  next rest heq =>
    -- a third quote would have to come from the text
    cases s with
    | nil => simp at heq
    | cons c s =>
      simp only [List.cons_append, List.cons.injEq, true_and] at heq
      exact absurd (heq.1 ▸ List.mem_cons_self) h
  next rest _ heq =>
    cases heq
    exact unquote?_concat s
  next hno => exact absurd rfl (hno (s ++ ['"']))

theorem contents?_written {s : String} (h : '"' ∉ s.toList) :
    contents? (written s) = some (String.ofList (Normal.escape s.toList)) := by
  rw [contents?, toList_written, contentsChars?_quoted fun hmem => h (Normal.mem_escape hmem)]
  rfl

end PatternHarvest.Java.Literal
