import PatternHarvest.Normal
import Mathlib.Data.List.Basic

/-!
# Doubled backslashes

In a string literal a backslash is written twice, and the normal form of a pattern makes each pair
one again. `Normal.normalizeChars_escape` says that nothing else happens to a text without control
characters: writing it with doubled backslashes and bringing it to normal form gives it back,
without the spaces around it. Doubling acts on each character alone, so it respects concatenation,
and it never makes or takes away a space, so it goes through the trimming.
-/

namespace PatternHarvest.Normal

/-! ## Doubling -/

/-- A character as it is written in a string literal. -/
def escapeChar (c : Char) : List Char :=
  if c = '\\' then ['\\', '\\'] else [c]

/-- Characters with every backslash doubled. -/
def escape (s : List Char) : List Char :=
  s.flatMap escapeChar

@[simp] theorem escape_nil : escape [] = [] := rfl

theorem escape_cons (c : Char) (s : List Char) : escape (c :: s) = escapeChar c ++ escape s :=
  List.flatMap_cons

theorem escapeChar_of_ne {c : Char} (h : c ≠ '\\') : escapeChar c = [c] :=
  if_neg h

theorem mem_escape {c : Char} {s : List Char} (h : c ∈ escape s) : c ∈ s := by
  obtain ⟨d, hd, hc⟩ := List.mem_flatMap.1 h
  have hcd : c = d := by
    by_cases hslash : d = '\\'
    · subst hslash
      simpa [escapeChar] using hc
    · simpa [escapeChar_of_ne hslash] using hc
  exact hcd ▸ hd

/-- Each character is doubled or not whichever way a text is read. -/
theorem escape_reverse (s : List Char) : escape s.reverse = (escape s).reverse := by
  have hchar : List.reverse ∘ escapeChar = escapeChar := by
    funext c
    rw [Function.comp_apply, escapeChar]
    split <;> rfl
  rw [escape, escape, List.reverse_flatMap, hchar]

/-! ## Making pairs one again -/

theorem collapse_cons_of_ne {c : Char} (h : c ≠ '\\') (s : List Char) :
    collapse (c :: s) = c :: collapse s := by
  rw [collapse]
  intro rest hc
  exact absurd hc h

theorem collapse_escape (s : List Char) : collapse (escape s) = s := by
  induction s with
  | nil => rfl
  | cons c s ih =>
    by_cases hc : c = '\\'
    · subst hc
      rw [escape_cons]
      change '\\' :: collapse (escape s) = '\\' :: s
      rw [ih]
    · rw [escape_cons, escapeChar_of_ne hc, List.singleton_append, collapse_cons_of_ne hc, ih]

/-! ## Trimming -/

variable {p : Char → Bool}

theorem dropWhile_escape (hslash : p '\\' = false) (s : List Char) :
    (escape s).dropWhile p = escape (s.dropWhile p) := by
  induction s with
  | nil => rfl
  | cons c s ih =>
    by_cases hc : c = '\\'
    · subst hc
      rw [escape_cons, List.dropWhile_cons_of_neg (by simp [hslash]), escape_cons]
      change List.dropWhile p ('\\' :: ('\\' :: escape s)) = _
      rw [List.dropWhile_cons_of_neg (by simp [hslash])]
      rfl
    · rw [escape_cons, escapeChar_of_ne hc, List.singleton_append, List.dropWhile_cons,
        List.dropWhile_cons]
      split
      · exact ih
      · rw [escape_cons, escapeChar_of_ne hc, List.singleton_append]

/-- Doubling goes through trimming, as long as no backslash is trimmed. -/
theorem trim_escape (hslash : p '\\' = false) (s : List Char) :
    Text.trim p (escape s) = escape (Text.trim p s) := by
  unfold Text.trim Text.trimEnd
  rw [dropWhile_escape hslash, ← escape_reverse, dropWhile_escape hslash, ← escape_reverse]

theorem dropWhile_congr {q : Char → Bool} {s : List Char} (h : ∀ c ∈ s, p c = q c) :
    s.dropWhile p = s.dropWhile q := by
  induction s with
  | nil => rfl
  | cons c s ih =>
    rw [List.dropWhile_cons, List.dropWhile_cons, h c List.mem_cons_self,
      ih fun d hd => h d (List.mem_cons_of_mem c hd)]

/-- Trimming asks only about the characters of the text. -/
theorem trim_congr {q : Char → Bool} {s : List Char} (h : ∀ c ∈ s, p c = q c) :
    Text.trim p s = Text.trim q s := by
  unfold Text.trim Text.trimEnd
  rw [dropWhile_congr h, dropWhile_congr]
  intro c hc
  exact h c ((List.dropWhile_sublist q).mem (List.mem_reverse.1 hc))

/-! ## The normal form of a literal -/

/-- A text without the spaces around it. -/
def trimSpaces (s : List Char) : List Char :=
  Text.trim (· == ' ') s

theorem isControlOrSpace_eq {c : Char} (h : ' ' ≤ c) : Text.isControlOrSpace c = (c == ' ') := by
  have hle : 0x20 ≤ c.toNat := h
  unfold Text.isControlOrSpace
  by_cases hc : c = ' '
  · subst hc
    rfl
  · have hne : c.toNat ≠ 0x20 := fun heq => hc (Char.ext (UInt32.toNat_inj.1 heq))
    have hgt : ¬ c.toNat ≤ 0x20 := by omega
    simp [hc, hgt]

/-- A text without control characters comes back from its doubled form, without the spaces around
it. -/
theorem normalizeChars_escape {s : List Char} (h : ∀ c ∈ s, ' ' ≤ c) :
    normalizeChars (escape s) = trimSpaces s := by
  have hslash : Text.isControlOrSpace '\\' = false := by decide
  rw [normalizeChars, trim_escape hslash, collapse_escape]
  exact trim_congr fun c hc => isControlOrSpace_eq (h c hc)

end PatternHarvest.Normal
