import PatternHarvest.Proofs.NormalForm
import Mathlib.Algebra.Ring.Parity
import Mathlib.Data.List.DropRight

/-!
# Runs of backslashes

`Normal.collapse` pairs backslashes from left to right. Seen as a whole, it halves every maximal run
of them, an odd one being rounded up, and keeps all else: `Halves` says this without pairing
anything, and `halves_iff` that it describes `collapse`. What can be said about the normal form of a
text follows from there. Nothing depends on the direction of reading (`collapse_reverse`), so
trimming may come before or after (`trim_collapse`), and `normalize_halves` puts this together.

Two texts that are put together may bring two runs together. What this does is settled by the parity
of the two runs (`collapse_append_eq_iff`): a backslash is lost only if both are odd. A text that is
put together of pieces can therefore be collapsed piece by piece if no piece ends with an odd run
(`collapse_pieces`).
-/

namespace PatternHarvest.Normal

/-! ## Texts by their runs -/

/-- A run of backslashes. -/
def run (k : ℕ) : List Char :=
  List.replicate k '\\'

/-- The second text is the first one with each maximal run of `k` backslashes made one of `⌈k / 2⌉`
and every other character kept. A run is maximal where another character or the end follows. -/
inductive Halves : List Char → List Char → Prop
  | run (k : ℕ) : Halves (run k) (run ((k + 1) / 2))
  | cons (k : ℕ) {c : Char} {s t : List Char} : c ≠ '\\' → Halves s t →
      Halves (run k ++ c :: s) (run ((k + 1) / 2) ++ c :: t)

theorem run_add (j k : ℕ) : run (j + k) = run j ++ run k :=
  List.replicate_add j k '\\'

theorem run_succ (k : ℕ) : run (k + 1) = '\\' :: run k :=
  rfl

theorem reverse_run (k : ℕ) : (run k).reverse = run k :=
  List.reverse_replicate

theorem run_append_eq_iff {j k : ℕ} {s : List Char} : run j ++ s = run k ++ s ↔ j = k := by
  rw [List.append_left_inj]
  exact List.replicate_left_inj

/-- Every text begins with a maximal run, which may be empty. -/
theorem exists_eq_run_append (s : List Char) : ∃ k t, s = run k ++ t ∧ t.head? ≠ some '\\' := by
  induction s with
  | nil => exact ⟨0, [], rfl, by simp⟩
  | cons c s ih =>
    by_cases hc : c = '\\'
    · obtain ⟨k, t, hs, ht⟩ := ih
      exact ⟨k + 1, t, by rw [hc, hs, run_succ, List.cons_append], ht⟩
    · exact ⟨0, c :: s, rfl, by simpa using hc⟩

/-- Induction on a text, one maximal run and the character behind it at a time. -/
@[elab_as_elim]
theorem run_induction {motive : List Char → Prop} (run : ∀ k, motive (run k))
    (cons : ∀ k c s, c ≠ '\\' → motive s → motive (Normal.run k ++ c :: s)) (s : List Char) :
    motive s := by
  induction hlength : s.length using Nat.strong_induction_on generalizing s with
  | _ n ih =>
    obtain ⟨k, t, rfl, ht⟩ := exists_eq_run_append s
    cases t with
    | nil => simpa using run k
    | cons c t =>
      have hshorter : t.length < n := by
        rw [← hlength, List.length_append, List.length_cons]
        omega
      exact cons k c t (by simpa using ht) (ih t.length hshorter t rfl)

/-! ## What collapsing does to a run -/

/-- A run that ends where `s` begins is halved. -/
theorem collapse_run_append (k : ℕ) {s : List Char} (hs : s.head? ≠ some '\\') :
    collapse (run k ++ s) = run ((k + 1) / 2) ++ collapse s := by
  induction k using Nat.twoStepInduction with
  | zero => rfl
  | one =>
    change collapse ('\\' :: s) = '\\' :: collapse s
    rw [collapse]
    rintro rest - rfl
    exact hs rfl
  | more k ih _ =>
    have hhalf : (k + 2 + 1) / 2 = (k + 1) / 2 + 1 := by omega
    change '\\' :: collapse (run k ++ s) = _
    rw [ih, hhalf, run_succ, List.cons_append]

theorem collapse_run (k : ℕ) : collapse (run k) = run ((k + 1) / 2) := by
  have h := collapse_run_append k (s := []) (by simp)
  rwa [collapse, List.append_nil, List.append_nil] at h

theorem collapse_run_append_cons (k : ℕ) {c : Char} (hc : c ≠ '\\') (s : List Char) :
    collapse (run k ++ c :: s) = run ((k + 1) / 2) ++ c :: collapse s := by
  rw [collapse_run_append k (by simpa using hc), collapse_cons_of_ne hc]

/-- A character that is no backslash keeps the runs on its two sides apart. -/
theorem collapse_append_cons {c : Char} (hc : c ≠ '\\') (s t : List Char) :
    collapse (s ++ c :: t) = collapse s ++ c :: collapse t := by
  induction s using run_induction with
  | run k => rw [collapse_run_append_cons k hc, collapse_run]
  | cons k d s hd ih =>
    rw [List.append_assoc, List.cons_append, collapse_run_append_cons k hd, ih,
      collapse_run_append_cons k hd, List.append_assoc, List.cons_append]

theorem halves_collapse (s : List Char) : Halves s (collapse s) := by
  induction s using run_induction with
  | run k =>
    rw [collapse_run]
    exact .run k
  | cons k c s hc ih =>
    rw [collapse_run_append_cons k hc]
    exact .cons k hc ih

/-- Halving the runs of a text is a function, the one that pairs its backslashes from the left. -/
theorem halves_iff {s t : List Char} : Halves s t ↔ t = collapse s := by
  constructor
  · intro h
    induction h with
    | run k => rw [collapse_run]
    | cons k hc _ ih => rw [collapse_run_append_cons k hc, ih]
  · rintro rfl
    exact halves_collapse s

/-- Pairing from the right gives the same text. -/
theorem collapse_reverse (s : List Char) : collapse s.reverse = (collapse s).reverse := by
  induction s using run_induction with
  | run k => rw [reverse_run, collapse_run, reverse_run]
  | cons k c s hc ih =>
    have hreverse (j : ℕ) (u : List Char) :
        (run j ++ c :: u).reverse = u.reverse ++ c :: run j := by
      rw [List.reverse_append, List.reverse_cons, reverse_run, List.append_assoc,
        List.singleton_append]
    rw [hreverse, collapse_append_cons hc, ih, collapse_run, collapse_run_append_cons k hc,
      hreverse]

/-! ## Trimming -/

variable {p : Char → Bool}

/-- A text that begins with a backslash still does when it is collapsed. -/
theorem exists_collapse_backslash (s : List Char) : ∃ t, collapse ('\\' :: s) = '\\' :: t := by
  unfold collapse
  split
  next rest h => exact ⟨_, rfl⟩
  next c rest hpair h =>
    obtain ⟨rfl, rfl⟩ := List.cons.inj h
    exact ⟨_, rfl⟩
  next h => cases h

theorem dropWhile_collapse (hslash : p '\\' = false) (s : List Char) :
    (collapse s).dropWhile p = collapse (s.dropWhile p) := by
  induction s with
  | nil => rfl
  | cons c s ih =>
    by_cases hc : c = '\\'
    · subst hc
      obtain ⟨t, ht⟩ := exists_collapse_backslash s
      rw [List.dropWhile_cons_of_neg (by simp [hslash]), ht,
        List.dropWhile_cons_of_neg (by simp [hslash])]
    · rw [collapse_cons_of_ne hc, List.dropWhile_cons, List.dropWhile_cons]
      split
      · exact ih
      · rw [collapse_cons_of_ne hc]

/-- Collapsing goes through trimming, as long as no backslash is trimmed. -/
theorem trim_collapse (hslash : p '\\' = false) (s : List Char) :
    Text.trim p (collapse s) = collapse (Text.trim p s) := by
  unfold Text.trim Text.trimEnd
  rw [dropWhile_collapse hslash, ← collapse_reverse, dropWhile_collapse hslash, ← collapse_reverse]

/-- No character of a class stands at either end of a text. -/
def FreeEnds (p : Char → Bool) (s : List Char) : Prop :=
  (∀ c ∈ s.head?, p c = false) ∧ ∀ c ∈ s.getLast?, p c = false

theorem head?_dropWhile (s : List Char) : ∀ c ∈ (s.dropWhile p).head?, p c = false := by
  intro c hc
  have h := List.head?_dropWhile_not p s
  rwa [Option.mem_def.1 hc] at h

/-- Trimming takes off characters of the class only, and as many as stand at the ends. -/
theorem exists_trim (p : Char → Bool) (s : List Char) :
    FreeEnds p (Text.trim p s) ∧ ∃ before after, s = before ++ Text.trim p s ++ after ∧
      ∀ c ∈ before ++ after, p c = true := by
  have htrim : Text.trim p s = (s.dropWhile p).rdropWhile p := rfl
  refine ⟨⟨?_, ?_⟩, s.takeWhile p, (s.dropWhile p).rtakeWhile p, ?_, ?_⟩
  · -- what is left of the text begins where the text does, once its front is taken off
    intro c hc
    have hstart : Text.trim p s <+: s.dropWhile p :=
      htrim ▸ List.rdropWhile_prefix p (s.dropWhile p)
    obtain ⟨rest, hrest⟩ := hstart
    refine head?_dropWhile (p := p) s c ?_
    rw [← hrest, List.head?_append, Option.mem_def.1 hc]
    rfl
  · intro c hc
    rw [Text.trim, Text.trimEnd, List.getLast?_reverse] at hc
    exact head?_dropWhile _ c hc
  · rw [htrim, List.append_assoc, List.rdropWhile_append_rtakeWhile,
      List.takeWhile_append_dropWhile]
  · intro c hc
    rcases List.mem_append.1 hc with hbefore | hafter
    · exact List.mem_takeWhile_imp hbefore
    · exact List.mem_rtakeWhile_imp hafter

/-! ## The normal form of a text -/

/-- **The normal form of a text** is what lies between the controls and spaces at its two ends, with
every maximal run of backslashes halved. The runs may as well be halved before the ends are taken
off, and nothing that could be taken off is left. -/
theorem normalize_halves (s : String) :
    (∃ before core after, s.toList = before ++ core ++ after ∧
      (∀ c ∈ before ++ after, Text.isControlOrSpace c = true) ∧
      FreeEnds Text.isControlOrSpace core ∧ Halves core (normalize s).toList) ∧
    Text.trim Text.isControlOrSpace (collapse s.toList) =
      collapse (Text.trim Text.isControlOrSpace s.toList) ∧
    FreeEnds Text.isControlOrSpace (normalize s).toList := by
  have hslash : Text.isControlOrSpace '\\' = false := by decide
  have hcommute := trim_collapse hslash s.toList
  have hnormal : (normalize s).toList = collapse (Text.trim Text.isControlOrSpace s.toList) := by
    rw [normalize, String.toList_ofList, normalizeChars]
  refine ⟨?_, hcommute, ?_⟩
  · obtain ⟨hends, before, after, hs, houter⟩ := exists_trim Text.isControlOrSpace s.toList
    exact ⟨before, _, after, hs, houter, hends, halves_iff.2 hnormal⟩
  · rw [hnormal, ← hcommute]
    exact (exists_trim Text.isControlOrSpace (collapse s.toList)).1

/-! ## Texts that are put together -/

/-- The number of backslashes with which a text begins. -/
def leadingRun (s : List Char) : ℕ :=
  (s.takeWhile (· == '\\')).length

/-- The number of backslashes with which a text ends. -/
def trailingRun (s : List Char) : ℕ :=
  (s.rtakeWhile (· == '\\')).length

theorem leadingRun_run_append (k : ℕ) {s : List Char} (hs : s.head? ≠ some '\\') :
    leadingRun (run k ++ s) = k := by
  have hrest : s.takeWhile (· == '\\') = [] := by
    cases s with
    | nil => rfl
    | cons c s => simpa using hs
  rw [leadingRun, run, List.takeWhile_append_of_pos (by simp), hrest, List.append_nil,
    List.length_replicate]

theorem trailingRun_run (k : ℕ) : trailingRun (run k) = k := by
  simp [trailingRun, run, List.rtakeWhile]

theorem takeWhile_append_cons {c : Char} (hc : p c = false) (s t : List Char) :
    (s ++ c :: t).takeWhile p = s.takeWhile p := by
  induction s with
  | nil => simp [hc]
  | cons d s ih => rw [List.cons_append, List.takeWhile_cons, List.takeWhile_cons, ih]

/-- A run at the end of a text does not reach over a character that is no backslash. -/
theorem trailingRun_append_cons {c : Char} (hc : c ≠ '\\') (s t : List Char) :
    trailingRun (s ++ c :: t) = trailingRun t := by
  have hreverse : (s ++ c :: t).reverse = t.reverse ++ c :: s.reverse := by simp
  rw [trailingRun, trailingRun, List.rtakeWhile, List.rtakeWhile, hreverse,
    takeWhile_append_cons (by simpa using hc)]

/-- Two runs that come together are halved together, which makes a difference if both are odd. -/
theorem half_add_eq_iff (j k : ℕ) :
    (j + k + 1) / 2 = (j + 1) / 2 + (k + 1) / 2 ↔ ¬(Odd j ∧ Odd k) := by
  rw [Nat.odd_iff, Nat.odd_iff]
  omega

/-- Texts are collapsed one by one, unless an odd run ends the first and an odd run begins the
second. The induction is on the runs of the first text, of which only the last one counts. -/
theorem collapse_append_eq_iff (s t : List Char) :
    collapse (s ++ t) = collapse s ++ collapse t ↔
      ¬(Odd (trailingRun s) ∧ Odd (leadingRun t)) := by
  induction s using run_induction with
  | run j =>
    obtain ⟨k, t, rfl, ht⟩ := exists_eq_run_append t
    rw [← List.append_assoc, ← run_add, collapse_run_append _ ht, collapse_run_append k ht,
      collapse_run, ← List.append_assoc, ← run_add, run_append_eq_iff, half_add_eq_iff,
      trailingRun_run, leadingRun_run_append k ht]
  | cons j c s hc ih =>
    rw [List.append_assoc, List.cons_append, collapse_run_append_cons j hc,
      collapse_run_append_cons j hc, List.append_assoc, List.cons_append, List.append_right_inj,
      List.cons.injEq, trailingRun_append_cons hc, ih]
    simp

/-- Texts of which none ends with an odd run are collapsed one by one. -/
theorem collapse_flatMap {texts : List String}
    (h : ∀ text ∈ texts, Even (trailingRun text.toList)) :
    collapse (texts.flatMap String.toList) = texts.flatMap fun text => collapse text.toList := by
  induction texts with
  | nil => rfl
  | cons text texts ih =>
    have heven : Even (trailingRun text.toList) := h text List.mem_cons_self
    have happend : collapse (text.toList ++ texts.flatMap String.toList) =
        collapse text.toList ++ collapse (texts.flatMap String.toList) :=
      (collapse_append_eq_iff _ _).2 fun hodd => Nat.not_odd_iff_even.2 heven hodd.1
    rw [List.flatMap_cons, happend, ih fun t ht => h t (List.mem_cons_of_mem text ht),
      List.flatMap_cons]

/-- **The normal form of texts that are put together.** Collapsing two texts one by one or together
makes a difference exactly if an odd run ends the first and an odd run begins the second. So if no
text ends with an odd run, the normal form of all of them is what they are collapsed to one by one,
without the controls and spaces at the two ends of the whole. -/
theorem collapse_pieces :
    (∀ s t : List Char, collapse (s ++ t) = collapse s ++ collapse t ↔
      ¬(Odd (trailingRun s) ∧ Odd (leadingRun t))) ∧
    ∀ texts : List String, (∀ text ∈ texts, Even (trailingRun text.toList)) →
      normalize (String.join texts) = String.ofList
        (Text.trim Text.isControlOrSpace (texts.flatMap fun text => collapse text.toList)) := by
  refine ⟨collapse_append_eq_iff, fun texts h => ?_⟩
  have hslash : Text.isControlOrSpace '\\' = false := by decide
  rw [normalize, String.toList_join, normalizeChars, ← trim_collapse hslash, collapse_flatMap h]

/-- A run of two meets a run of one, and each is halved alone. Of two single backslashes that meet,
one is lost. -/
theorem collapse_pieces_three :
    (∀ text ∈ [" ^\\\\", "\\d", "+ "], Even (trailingRun text.toList)) ∧
      normalize (String.join [" ^\\\\", "\\d", "+ "]) = "^\\\\d+" ∧
      collapse (['\\'] ++ ['\\']) ≠ collapse ['\\'] ++ collapse ['\\'] := by
  have heven : ∀ text ∈ [" ^\\\\", "\\d", "+ "], Even (trailingRun text.toList) := by decide
  have hodd : Odd (trailingRun ['\\']) ∧ Odd (leadingRun ['\\']) := by decide
  obtain ⟨hiff, hnormal⟩ := collapse_pieces
  refine ⟨heven, ?_, fun heq => (hiff _ _).1 heq hodd⟩
  rw [hnormal _ heven]
  decide

end PatternHarvest.Normal
