import PatternHarvest.Proofs.BackslashRuns
import PatternHarvest.Proofs.Sums
import Mathlib.Data.String.Basic

/-!
# Exactly the texts that are string literals

`Literal.contents?` trims a text, refuses one that opens with three quotes, and takes a quote off
either end. These steps overlap on short texts: with three quotes in all, the outer two enclose a
third one, yet the text opens a text block. `Literal.Encloses` says without any steps which contents
a text has, and `Literal.contents?_eq_some_iff` that just these are found. The split of a text into
blanks, quotes and contents is unique, since a quote is not blank.

Contents can also be cut out by bytes, one from either end (`Literal.cutQuotes`). A quote is a
single byte, so both cuts are between two characters, and the cut never fails
(`Literal.cutQuotes_eq`).
-/

namespace PatternHarvest

/-! ## Trimming -/

namespace Text

variable {p : Char → Bool}

/-- What is trimmed anyway can as well be there as not. -/
theorem trim_append {before after : List Char} (hbefore : ∀ c ∈ before, p c = true)
    (hafter : ∀ c ∈ after, p c = true) (s : List Char) :
    trim p (before ++ s ++ after) = trim p s := by
  have hafter' : after.dropWhile p = [] := List.dropWhile_eq_nil_iff.2 hafter
  have hend : ∀ c ∈ after.reverse, p c = true := fun c hc => hafter c (List.mem_reverse.1 hc)
  unfold trim trimEnd
  rw [List.append_assoc, List.dropWhile_append_of_pos hbefore, List.dropWhile_append]
  split
  next hempty =>
    rw [List.isEmpty_iff.1 hempty, hafter']
  next =>
    rw [List.reverse_append, List.dropWhile_append_of_pos hend]

/-- The text between two bytes, if both are places between two characters or at an end. -/
def slice? (s : String) (first last : String.Pos.Raw) : Option String :=
  if first ≤ last ∧ first.isValid s = true ∧ last.isValid s = true then
    some (String.Pos.Raw.extract s first last)
  else none

theorem slice?_append (before s after : String) :
    slice? (before ++ s ++ after) before.rawEndPos (before ++ s).rawEndPos = some s := by
  have hfirst : before.rawEndPos.isValid (before ++ s ++ after) = true :=
    String.Pos.Raw.isValid_eq_true_iff.2
      (String.Pos.Raw.isValid_iff_exists_append.2 ⟨before, s ++ after, String.append_assoc, rfl⟩)
  have hlast : (before ++ s).rawEndPos.isValid (before ++ s ++ after) = true :=
    String.Pos.Raw.isValid_eq_true_iff.2
      (String.Pos.Raw.isValid_iff_exists_append.2 ⟨before ++ s, after, rfl, rfl⟩)
  have hle : before.rawEndPos ≤ (before ++ s).rawEndPos := by
    rw [String.Pos.Raw.le_iff]
    simp
  have hsize (u : String) : String.utf8Len u.toList = u.utf8ByteSize := by
    simp
  have hextract := String.extract_of_valid before.toList s.toList after.toList
  simp only [String.ofList_append, String.ofList_toList, hsize] at hextract
  have hend : (before ++ s).rawEndPos = ⟨before.utf8ByteSize + s.utf8ByteSize⟩ :=
    String.Pos.Raw.ext String.utf8ByteSize_append
  rw [slice?, if_pos ⟨hle, hfirst, hlast⟩, hend]
  exact congrArg some hextract

end Text

namespace Java

open Syntax

namespace Literal

/-! ## Contents -/

/-- The text is `c` between two quotes with nothing but blanks around them, and the quotes are not
part of the three that open a text block. -/
def Encloses (t c : String) : Prop :=
  (∃ before after : String, t = before ++ "\"" ++ c ++ "\"" ++ after ∧
    (∀ x ∈ before.toList, Text.isBlank x = true) ∧ ∀ x ∈ after.toList, Text.isBlank x = true) ∧
  c ≠ "\"" ∧ ¬"\"\"".toList <+: c.toList

theorem unquote?_eq_some_iff {s c : List Char} : unquote? s = some c ↔ s = c ++ ['"'] := by
  constructor
  · intro h
    unfold unquote? at h
    split at h
    next inner hinner =>
      cases h
      rw [← List.reverse_cons, ← hinner, List.reverse_reverse]
    next => cases h
  · rintro rfl
    exact unquote?_concat c

/-- Text between quotes opens with three of them exactly if it is a quote or opens with two. -/
theorem three_quotes_prefix_iff {c : List Char} :
    ['"', '"', '"'] <+: '"' :: c ++ ['"'] ↔ c = ['"'] ∨ ['"', '"'] <+: c := by
  match c with
  | [] => simp
  | [a] => simp [eq_comm]
  | a :: b :: more => simp [eq_comm]

theorem contentsChars?_eq_some_iff {s c : List Char} :
    contentsChars? s = some c ↔
      Text.trim Text.isBlank s = '"' :: c ++ ['"'] ∧ c ≠ ['"'] ∧ ¬['"', '"'] <+: c := by
  rw [← not_or, ← three_quotes_prefix_iff]
  unfold contentsChars?
  generalize Text.trim Text.isBlank s = m
  split
  next rest =>
    refine ⟨nofun, fun ⟨hm, hthree⟩ => absurd ?_ hthree⟩
    exact ⟨rest, hm⟩
  next rest hthree =>
    rw [unquote?_eq_some_iff, List.cons_append, List.cons.injEq, eq_self, true_and]
    refine ⟨fun hrest => ⟨hrest, ?_⟩, fun h => h.1⟩
    rintro ⟨more, hmore⟩
    refine hthree more ?_
    rw [hrest]
    exact (List.cons.inj hmore).2.symm
  next hquote => exact ⟨nofun, fun ⟨hm, _⟩ => absurd hm (hquote _)⟩

/-- A text comes down to quotes with something between them exactly if nothing but blanks is around
these. -/
theorem trim_eq_quoted_iff {s c : List Char} :
    Text.trim Text.isBlank s = '"' :: c ++ ['"'] ↔
      ∃ before after, s = before ++ ('"' :: c ++ ['"']) ++ after ∧
        (∀ x ∈ before, Text.isBlank x = true) ∧ ∀ x ∈ after, Text.isBlank x = true := by
  constructor
  · intro h
    obtain ⟨-, before, after, hs, hblank⟩ := Normal.exists_trim Text.isBlank s
    rw [h] at hs
    exact ⟨before, after, hs, fun x hx => hblank x (List.mem_append_left _ hx),
      fun x hx => hblank x (List.mem_append_right _ hx)⟩
  · rintro ⟨before, after, rfl, hbefore, hafter⟩
    have hquote : Text.isBlank '"' = false := by decide
    rw [Text.trim_append hbefore hafter, Text.trim_eq_self hquote hquote]

/-- What is found in a text is what the text encloses. -/
theorem contents?_eq_some_iff {t c : String} : contents? t = some c ↔ Encloses t c := by
  have hchars : contents? t = some c ↔ contentsChars? t.toList = some c.toList := by
    rw [contents?, Option.map_eq_some_iff]
    constructor
    · rintro ⟨s, hs, rfl⟩
      rw [hs, String.toList_ofList]
    · intro h
      exact ⟨c.toList, h, String.ofList_toList⟩
  have hone : c.toList ≠ ['"'] ↔ c ≠ "\"" := by
    rw [Ne, Ne, ← String.toList_inj]
    rfl
  have hsplit (before after : String) :
      t = before ++ "\"" ++ c ++ "\"" ++ after ↔
        t.toList = before.toList ++ ('"' :: c.toList ++ ['"']) ++ after.toList := by
    rw [← String.toList_inj]
    simp
  rw [hchars, contentsChars?_eq_some_iff, trim_eq_quoted_iff, hone, Encloses]
  refine and_congr_left' ⟨?_, ?_⟩
  · rintro ⟨before, after, ht, hbefore, hafter⟩
    refine ⟨String.ofList before, String.ofList after, (hsplit _ _).2 ?_, ?_, ?_⟩
    all_goals simpa only [String.toList_ofList]
  · rintro ⟨before, after, ht, hbefore, hafter⟩
    exact ⟨before.toList, after.toList, (hsplit _ _).1 ht, hbefore, hafter⟩

/-! ## Cuts between bytes -/

/-- `contents?` by bytes: the quotes are found at the ends of the trimmed text, and what is cut out
leaves one byte at either end. There is no result if a cut is not between two characters. -/
def cutQuotes (t : String) : Option (Option String) :=
  let s := String.ofList (Text.trim Text.isBlank t.toList)
  if ['"', '"', '"'] <+: s.toList then some none
  else if 2 ≤ s.utf8ByteSize ∧ s.toList.head? = some '"' ∧ s.toList.getLast? = some '"' then
    (Text.slice? s ⟨1⟩ ⟨s.utf8ByteSize - 1⟩).map some
  else some none

/-- A text of at least two bytes with a quote at either end is something between two quotes. -/
theorem exists_eq_quoted {s : List Char} (hsize : 2 ≤ (String.ofList s).utf8ByteSize)
    (hhead : s.head? = some '"') (hlast : s.getLast? = some '"') :
    ∃ c, s = '"' :: c ++ ['"'] := by
  obtain ⟨rest, rfl⟩ := List.head?_eq_some_iff.1 hhead
  cases rest using List.reverseRecOn with
  | nil => exact absurd hsize (by decide)
  | append_singleton c a =>
    rw [← List.cons_append, List.getLast?_concat] at hlast
    cases hlast
    exact ⟨c, rfl⟩

/-- The cuts are always between two characters, and what is cut out are the contents. -/
theorem cutQuotes_eq (t : String) : cutQuotes t = some (contents? t) := by
  have hcontents (c : List Char) : contentsChars? t.toList = some c ↔
      Text.trim Text.isBlank t.toList = '"' :: c ++ ['"'] ∧
        ¬['"', '"', '"'] <+: Text.trim Text.isBlank t.toList := by
    rw [contentsChars?_eq_some_iff, ← not_or, ← three_quotes_prefix_iff]
    exact and_congr_right fun h => by rw [h]
  unfold cutQuotes contents?
  generalize Text.trim Text.isBlank t.toList = s at hcontents ⊢
  simp only [String.toList_ofList]
  cases hfound : contentsChars? t.toList with
  | some c =>
    obtain ⟨rfl, hthree⟩ := (hcontents c).1 hfound
    have hquoted : String.ofList ('"' :: c ++ ['"']) = "\"" ++ String.ofList c ++ "\"" := by
      rw [← String.toList_inj]
      simp
    rw [if_neg hthree, if_pos, hquoted]
    · have hend : (⟨("\"" ++ String.ofList c ++ "\"").utf8ByteSize - 1⟩ : String.Pos.Raw) =
          ("\"" ++ String.ofList c).rawEndPos := by
        apply String.Pos.Raw.ext
        rw [String.utf8ByteSize_append]
        rfl
      rw [hend]
      exact congrArg (Option.map some) (Text.slice?_append "\"" (String.ofList c) "\"")
    · refine ⟨?_, rfl, List.getLast?_concat⟩
      have hquote : "\"".utf8ByteSize = 1 := rfl
      rw [hquoted, String.utf8ByteSize_append, String.utf8ByteSize_append, hquote]
      omega
  | none =>
    split
    next => rfl
    next hthree =>
      rw [if_neg]
      · rfl
      rintro ⟨hsize, hhead, hlast⟩
      obtain ⟨c, hc⟩ := exists_eq_quoted hsize hhead hlast
      rw [(hcontents c).2 ⟨hc, hthree⟩] at hfound
      cases hfound

end Literal

/-! ## Literals in a tree -/

open Literal

/-- **What is read off a string literal.** The contents of a text are what it encloses between two
quotes, and there are none if it encloses nothing. Cutting them out by bytes never fails and gives
the same. Above the limit on nesting, the node of a string literal is reduced to exactly these
contents, or else to a text block; at the limit it is reduced to its kind, as every node is. -/
theorem lower_encloses :
    (∀ t c : String, contents? t = some c ↔ Encloses t c) ∧
    (∀ t : String, contents? t = none ↔ ¬∃ c, Encloses t c) ∧
    (∀ t : String, cutQuotes t = some (contents? t)) ∧
    ∀ (depth : ℕ) (node : Tree), node.kind = "string_literal" →
      (∀ c, lower (depth + 1) node = .literal c ↔ Encloses node.text c) ∧
      (lower (depth + 1) node = .other "text_block" ↔ ¬∃ c, Encloses node.text c) ∧
      lower 0 node = .other "string_literal" := by
  have hnone (t : String) : contents? t = none ↔ ¬∃ c, Encloses t c := by
    rw [Option.eq_none_iff_forall_ne_some, not_exists]
    exact forall_congr' fun c => not_congr contents?_eq_some_iff
  refine ⟨fun _ _ => contents?_eq_some_iff, hnone, cutQuotes_eq, fun depth node hkind => ?_⟩
  have hzero : lower 0 node = .other "string_literal" := by
    rw [lower, hkind]
  simp only [← contents?_eq_some_iff]
  cases hcontents : contents? node.text with
  | some text =>
    rw [lower_string_literal hkind hcontents depth]
    simpa using hzero
  | none =>
    have hlower : lower (depth + 1) node = .other "text_block" := by
      simp [lower, hkind, hcontents]
    rw [hlower]
    simpa using hzero

/-- The literal of a letter that takes two bytes and an escaped quote. -/
def accentLiteral : Tree :=
  literalOf " " [token "string_fragment" "" "é", token "escape_sequence" "" "\\\""]

/-- Only the outer quotes are taken off. -/
theorem lower_encloses_accent :
    accentLiteral.kind = "string_literal" ∧ lower 1 accentLiteral = .literal "é\\\"" := by
  have hencloses : Encloses accentLiteral.text "é\\\"" :=
    ⟨⟨"", "", rfl, by simp, by simp⟩, by decide, by decide⟩
  exact ⟨rfl, ((lower_encloses.2.2.2 0 accentLiteral rfl).1 _).2 hencloses⟩

/-- A literal that stands at the limit on nesting is reduced neither to its contents nor to a text
block. -/
theorem lower_encloses_limit :
    ¬∀ (depth : ℕ) (node : Tree), node.kind = "string_literal" →
      (∃ c, Encloses node.text c ∧ lower depth node = .literal c) ∨
        lower depth node = .other "text_block" := by
  intro h
  rcases h 0 accentLiteral rfl with ⟨c, -, hliteral⟩ | hother
  · rw [lower] at hliteral
    cases hliteral
  · rw [lower] at hother
    exact absurd (Expr.other.inj hother) (by decide)

end Java

end PatternHarvest
