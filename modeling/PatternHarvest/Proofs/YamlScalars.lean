import PatternHarvest.Yaml.Scalar
import Mathlib.Algebra.Group.Nat.Defs
import Mathlib.Data.List.Basic

/-!
# Scalars that can be told apart

Whatever style a text is written in, what is written gives the text back, and says where it ends.
A statement of this kind is about two texts that begin with scalars: if they are equal, so are the
scalars, and so is what comes behind them. There are two of them, for there are two places where a
scalar can stand: in front of a colon, where it takes no more than a line (`render_key_inj`), and
at the end of a line, where it may take several (`renderLine_inj`). Both start from the first
character, which announces the style (`render_eq_cons`).

What ends a scalar is different in each style. A bare one is followed by the first line break, or by
the first colon with a blank behind it. Between quotes a quote of the same kind is always marked.
A literal text goes on as long as lines are empty or have the whole margin, so it must be followed by
a line that is indented by less (`Outdented`).
-/

namespace PatternHarvest.Yaml

/-! ## Lists with a mark behind them -/

/-- A list ends at the first mark behind it. -/
theorem append_mark_inj {α : Type} {xs ys zs ws : List α} {a : α} (hxs : a ∉ xs) (hys : a ∉ ys)
    (h : xs ++ a :: zs = ys ++ a :: ws) : xs = ys ∧ zs = ws := by
  induction xs generalizing ys with
  | nil =>
    cases ys with
    | nil => exact ⟨rfl, (List.cons.inj h).2⟩
    | cons y ys => exact absurd ((List.cons.inj h).1 ▸ List.mem_cons_self) hys
  | cons x xs ih =>
    cases ys with
    | nil => exact absurd ((List.cons.inj h).1 ▸ List.mem_cons_self) hxs
    | cons y ys =>
      obtain ⟨rfl, hrest⟩ := List.cons.inj h
      obtain ⟨rfl, hzs⟩ := ih (fun hx => hxs (List.mem_cons_of_mem _ hx))
        (fun hy => hys (List.mem_cons_of_mem _ hy)) hrest
      exact ⟨rfl, hzs⟩

/-! ## What the style of a text says about it -/

namespace Style

theorem choose_eq_plain {s : List Char} (h : choose s = .plain) :
    plainAllowed s = true ∧ readsAsValue s = false := by
  unfold choose wanted at h
  by_cases hnewline : s.contains '\n' = true
  · rw [if_pos hnewline] at h
    by_cases hliteral : literalAllowed s = true <;> simp [hliteral] at h
  · rw [if_neg hnewline] at h
    by_cases hvalue : readsAsValue s = true
    · by_cases hquoted : singleQuotedAllowed s = true <;> simp [hvalue, hquoted] at h
    · by_cases hplain : plainAllowed s = true
      · exact ⟨hplain, by simpa using hvalue⟩
      · by_cases hquoted : singleQuotedAllowed s = true <;> simp [hvalue, hplain, hquoted] at h

theorem newline_mem_of_choose_eq_literal {s : List Char} (h : choose s = .literal) : '\n' ∈ s := by
  unfold choose wanted at h
  by_cases hnewline : s.contains '\n' = true
  · simpa using hnewline
  · rw [if_neg hnewline] at h
    by_cases hvalue : readsAsValue s = true <;> by_cases hplain : plainAllowed s = true <;>
      by_cases hquoted : singleQuotedAllowed s = true <;> simp [hvalue, hplain, hquoted] at h

/-- The style that the first character of a scalar announces. -/
def announced (c : Char) : Style :=
  if c = '\'' then .singleQuoted else if c = '"' then .doubleQuoted
  else if c = '|' then .literal else .plain

end Style

theorem announced_eq_plain {c : Char} {s : List Char} (h : opensIndicator (c :: s) = false) :
    Style.announced c = .plain := by
  have hc : c ∉ indicators := by
    intro hc
    simp [opensIndicator, hc] at h
  have hne : c ≠ '\'' ∧ c ≠ '"' ∧ c ≠ '|' := by
    refine ⟨?_, ?_, ?_⟩ <;> rintro rfl <;> exact hc (by decide)
  rw [Style.announced, if_neg hne.1, if_neg hne.2.1, if_neg hne.2.2]

/-- What is known of a text that is written bare. -/
structure Bare (s : List Char) : Prop where
  ne_nil : s ≠ []
  head?_ne : s.head? ≠ some ' '
  opensIndicator_eq : opensIndicator s = false
  isBreak_eq : ∀ c ∈ s, isBreak c = false
  holdsIndicator_eq : ∀ c rest, s = c :: rest → holdsIndicator c rest = false

theorem bare_of_choose_eq_plain {s : List Char} (h : Style.choose s = .plain) : Bare s := by
  obtain ⟨hallowed, hvalue⟩ := Style.choose_eq_plain h
  simp only [Style.plainAllowed, Bool.and_eq_true, Bool.not_eq_true', List.any_eq_false,
    Bool.not_eq_true] at hallowed
  obtain ⟨⟨⟨⟨hloose, hbreak⟩, -⟩, hopens⟩, hholds⟩ := hallowed
  refine ⟨?_, ?_, hopens, hbreak, ?_⟩
  · rintro rfl
    revert hvalue
    decide
  · intro hspace
    simp [hasLooseEnd, hspace] at hloose
  · rintro c rest rfl
    simpa using hholds

/-- No colon inside a bare text is taken for the one behind it. -/
theorem Bare.separatorNext_eq {s before after : List Char} (hs : Bare s)
    (hsplit : s = before ++ ':' :: after) : separatorNext after = false := by
  cases before with
  | nil =>
    have hopens := hs.opensIndicator_eq
    rw [hsplit, List.nil_append] at hopens
    simp only [opensIndicator, Bool.or_eq_false_iff] at hopens
    simpa using hopens.2.2
  | cons c before =>
    have hholds : holdsIndicator c (before ++ ':' :: after) = false :=
      hs.holdsIndicator_eq c _ hsplit
    clear hsplit
    induction before generalizing c with
    | nil =>
      rw [List.nil_append, holdsIndicator, Bool.or_eq_false_iff, Bool.or_eq_false_iff] at hholds
      simpa using hholds.1.1
    | cons d before ih =>
      rw [List.cons_append, holdsIndicator, Bool.or_eq_false_iff] at hholds
      exact ih d hholds.2

namespace Scalar

/-! ## Margins -/

variable {indent : Nat} {broken : Bool}

/-- What stands in front of a character in a scalar of several lines. -/
def lead (indent : Nat) (broken : Bool) (c : Char) : List Char :=
  if broken && !isBreak c then margin indent else []

theorem singleQuotedBody_cons (c : Char) (s : List Char) :
    singleQuotedBody indent broken (c :: s) = lead indent broken c ++
      c :: ((if c = '\'' then ['\''] else []) ++ singleQuotedBody indent (isBreak c) s) := by
  by_cases hc : isBreak c = true
  · have hquote : c ≠ '\'' := by
      rintro rfl
      revert hc
      decide
    simp [singleQuotedBody, lead, hc, hquote]
  · rw [Bool.not_eq_true] at hc
    by_cases hquote : c = '\'' <;> cases broken <;>
      simp [singleQuotedBody, lead, hc, hquote, show isBreak '\'' = false from rfl]

theorem literalBody_cons (c : Char) (s : List Char) :
    literalBody indent broken (c :: s) =
      lead indent broken c ++ c :: literalBody indent (isBreak c) s := by
  by_cases hc : isBreak c = true <;> cases broken <;> simp [literalBody, lead, hc]

/-- A margin cannot be taken for a break: it consists of blanks. -/
theorem lead_append_cons_inj (hindent : 0 < indent) {c d : Char} {x y : List Char}
    (h : lead indent broken c ++ c :: x = lead indent broken d ++ d :: y) : c = d ∧ x = y := by
  obtain ⟨n, rfl⟩ : ∃ n, indent = n + 1 := ⟨indent - 1, by omega⟩
  have hspace : isBreak ' ' = false := rfl
  unfold lead at h
  by_cases hc : (broken && !isBreak c) = true <;> by_cases hd : (broken && !isBreak d) = true
  · rw [if_pos hc, if_pos hd] at h
    exact List.cons.inj (List.append_cancel_left h)
  · -- behind a break, only another break stands without a margin
    rw [if_pos hc, if_neg hd] at h
    obtain ⟨rfl, -⟩ := List.cons.inj h
    simp_all
  · rw [if_neg hc, if_pos hd] at h
    obtain ⟨rfl, -⟩ := List.cons.inj h
    simp_all
  · rw [if_neg hc, if_neg hd] at h
    exact List.cons.inj h

/-! ## Single quotes -/

/-- The quote that closes a scalar is the first one that has no other behind it. -/
theorem singleQuotedBody_inj (hindent : 0 < indent) {s u x y : List Char}
    (hx : x.head? ≠ some '\'') (hy : y.head? ≠ some '\'')
    (h : singleQuotedBody indent broken s ++ '\'' :: x =
      singleQuotedBody indent broken u ++ '\'' :: y) : s = u ∧ x = y := by
  have hclose (broken : Bool) (z : List Char) : singleQuotedBody indent broken [] ++ '\'' :: z =
      lead indent broken '\'' ++ '\'' :: z := by
    cases broken <;> rfl
  induction s generalizing u broken with
  | nil =>
    cases u with
    | nil =>
      obtain ⟨-, hrest⟩ := List.cons.inj (List.append_cancel_left h)
      exact ⟨rfl, hrest⟩
    | cons d u =>
      rw [hclose, singleQuotedBody_cons, List.append_assoc, List.cons_append] at h
      obtain ⟨rfl, rfl⟩ := lead_append_cons_inj hindent h
      exact absurd rfl hx
  | cons c s ih =>
    cases u with
    | nil =>
      rw [hclose, singleQuotedBody_cons, List.append_assoc, List.cons_append] at h
      obtain ⟨rfl, rfl⟩ := lead_append_cons_inj hindent h.symm
      exact absurd rfl hy
    | cons d u =>
      rw [singleQuotedBody_cons, singleQuotedBody_cons, List.append_assoc, List.append_assoc,
        List.cons_append, List.cons_append] at h
      obtain ⟨rfl, hrest⟩ := lead_append_cons_inj hindent h
      rw [List.append_assoc, List.append_assoc] at hrest
      obtain ⟨rfl, hxy⟩ := ih (List.append_cancel_left hrest)
      exact ⟨rfl, hxy⟩

theorem singleQuoted_inj (hindent : 0 < indent) {s u x y : List Char} (hx : x.head? ≠ some '\'')
    (hy : y.head? ≠ some '\'') (h : singleQuoted indent s ++ x = singleQuoted indent u ++ y) :
    s = u ∧ x = y := by
  simp only [singleQuoted, List.cons_append, List.append_assoc, List.nil_append, List.cons.injEq,
    true_and] at h
  exact singleQuotedBody_inj hindent hx hy h

/-! ## Double quotes -/

/-- The value of a hexadecimal digit in upper case. -/
def hexValue (c : Char) : Nat :=
  if c ≤ '9' then c.toNat - '0'.toNat else c.toNat - 'A'.toNat + 10

/-- The number that hexadecimal digits write. -/
def hexNumber (s : List Char) : Nat :=
  s.foldl (fun n c => n * 16 + hexValue c) 0

theorem hexValue_hexDigit : ∀ n < 16, hexValue (hexDigit n) = n := by
  decide

theorem length_hexDigits (width n : Nat) : (hexDigits width n).length = width := by
  induction width generalizing n with
  | zero => rfl
  | succ width ih => rw [hexDigits, List.length_append, ih, List.length_singleton]

theorem hexNumber_hexDigits {width n : Nat} (h : n < 16 ^ width) :
    hexNumber (hexDigits width n) = n := by
  induction width generalizing n with
  | zero =>
    have hn : n = 0 := by simpa using h
    rw [hn]
    rfl
  | succ width ih =>
    have hhigh : hexNumber (hexDigits width (n / 16)) = n / 16 :=
      ih (Nat.div_lt_of_lt_mul (by rwa [Nat.pow_succ'] at h))
    have hlow : hexValue (hexDigit (n % 16)) = n % 16 :=
      hexValue_hexDigit _ (Nat.mod_lt n (by decide))
    rw [hexNumber, hexDigits, List.foldl_append, ← hexNumber, hhigh, List.foldl_cons,
      List.foldl_nil, hlow]
    omega

/-- The character that a letter behind a backslash stands for. -/
def named? (c : Char) : Option Char :=
  match c with
  | '0' => some '\x00'
  | 'a' => some '\x07'
  | 'b' => some '\x08'
  | 't' => some '\t'
  | 'n' => some '\n'
  | 'v' => some '\x0b'
  | 'f' => some '\x0c'
  | 'r' => some '\r'
  | 'e' => some '\x1b'
  | '"' => some '"'
  | '\\' => some '\\'
  | 'N' => some '\u0085'
  | 'L' => some '\u2028'
  | 'P' => some '\u2029'
  | _ => none

/-- The number of digits behind a letter that announces a code point. -/
def width? (c : Char) : Option Nat :=
  match c with
  | 'x' => some 2
  | 'u' => some 4
  | 'U' => some 8
  | _ => none

/-- Read what stands behind a backslash: the character, and the rest of the text. -/
def readName : List Char → Option (Char × List Char)
  | [] => none
  | c :: s =>
    match width? c with
    | some width => some (Char.ofNat (hexNumber (s.take width)), s.drop width)
    | none => (named? c).map (·, s)

theorem readName_hexDigits {mark : Char} {width : Nat} (hmark : width? mark = some width) {c : Char}
    (hc : c.toNat < 16 ^ width) (x : List Char) :
    readName (mark :: hexDigits width c.toNat ++ x) = some (c, x) := by
  have hlength := length_hexDigits width c.toNat
  simp only [List.cons_append, readName, hmark, List.take_left' hlength, List.drop_left' hlength,
    hexNumber_hexDigits hc, Char.ofNat_toNat]

theorem readName_codePoint (c : Char) (x : List Char) :
    readName (codePoint c ++ x) = some (c, x) := by
  have hvalid : c.toNat < 0x110000 := by
    have h := c.valid
    simp only [UInt32.isValidChar, Nat.isValidChar] at h
    have : c.toNat = c.val.toNat := rfl
    omega
  simp only [codePoint]
  split
  next h => exact readName_hexDigits rfl (by omega) x
  next =>
    split
    next h => exact readName_hexDigits rfl (by omega) x
    next => exact readName_hexDigits rfl (by omega) x

/-- A character is read as it was written, whether it has a letter of its own or not. -/
theorem readName_escapeName (c : Char) (x : List Char) :
    readName (escapeName c ++ x) = some (c, x) := by
  unfold escapeName
  split
  iterate 14 rfl
  exact readName_codePoint c x

theorem escape_inj {c d : Char} {x y : List Char} (h : escape c ++ x = escape d ++ y) :
    c = d ∧ x = y := by
  have hslash : needsEscape '\\' = true := rfl
  unfold escape at h
  by_cases hc : needsEscape c = true <;> by_cases hd : needsEscape d = true
  · rw [if_pos hc, if_pos hd] at h
    have hname : readName (escapeName c ++ x) = readName (escapeName d ++ y) :=
      congrArg readName (List.cons.inj h).2
    rw [readName_escapeName, readName_escapeName] at hname
    simpa using hname
  · rw [if_pos hc, if_neg hd] at h
    exact absurd ((List.cons.inj h).1 ▸ hslash) hd
  · rw [if_neg hc, if_pos hd] at h
    exact absurd ((List.cons.inj h).1 ▸ hslash) hc
  · rw [if_neg hc, if_neg hd] at h
    simpa using h

theorem quote_cons_ne_escape_append (c : Char) (x y : List Char) : '"' :: x ≠ escape c ++ y := by
  intro h
  unfold escape at h
  by_cases hc : needsEscape c = true
  · rw [if_pos hc] at h
    exact absurd (List.cons.inj h).1 (by decide)
  · rw [if_neg hc] at h
    exact hc ((List.cons.inj h).1 ▸ rfl)

theorem doubleQuoted_inj {s u x y : List Char} (h : doubleQuoted s ++ x = doubleQuoted u ++ y) :
    s = u ∧ x = y := by
  simp only [doubleQuoted, List.cons_append, List.append_assoc, List.nil_append, List.cons.injEq,
    true_and] at h
  induction s generalizing u with
  | nil =>
    cases u with
    | nil => exact ⟨rfl, (List.cons.inj h).2⟩
    | cons d u =>
      rw [List.flatMap_cons, List.append_assoc] at h
      exact absurd h (quote_cons_ne_escape_append d _ _)
  | cons c s ih =>
    cases u with
    | nil =>
      rw [List.flatMap_cons, List.append_assoc] at h
      exact absurd h.symm (quote_cons_ne_escape_append c _ _)
    | cons d u =>
      rw [List.flatMap_cons, List.flatMap_cons, List.append_assoc, List.append_assoc] at h
      obtain ⟨rfl, hrest⟩ := escape_inj h
      obtain ⟨rfl, hxy⟩ := ih hrest
      exact ⟨rfl, hxy⟩

/-! ## Literal texts -/

/-- What may follow a literal text: nothing, or a line that is indented by two blanks and no
more. -/
def Outdented (x : List Char) : Prop :=
  x = [] ∨ ∃ c y, x = ' ' :: ' ' :: c :: y ∧ c ≠ ' '

/-- Whether a break comes before the end of a text. -/
def endsBroken : (broken : Bool) → List Char → Bool
  | broken, [] => broken
  | _, c :: s => endsBroken (isBreak c) s

theorem endsBroken_eq (broken : Bool) {s : List Char} (hs : s ≠ []) :
    endsBroken broken s = s.getLast?.any isBreak := by
  induction s generalizing broken with
  | nil => exact absurd rfl hs
  | cons c s ih =>
    cases s with
    | nil => rfl
    | cons d s => rw [endsBroken, ih _ (List.cons_ne_nil d s), List.getLast?_cons_cons]

theorem Outdented.ne_lead_append (hindent : 2 < indent) {x : List Char} (hx : Outdented x) (c : Char)
    (y : List Char) : x ≠ lead indent true c ++ c :: y := by
  obtain ⟨n, rfl⟩ : ∃ n, indent = n + 3 := ⟨indent - 3, by omega⟩
  rintro rfl
  rcases hx with hnil | ⟨d, z, heq, hd⟩
  · simp at hnil
  · unfold lead at heq
    by_cases hc : isBreak c = true
    · simp only [hc, Bool.not_true, Bool.and_false, Bool.false_eq_true, if_false,
        List.nil_append] at heq
      rw [(List.cons.inj heq).1] at hc
      exact absurd hc (by decide)
    · simp only [hc, Bool.not_false, Bool.and_true, if_true, margin, List.replicate_succ,
        List.cons_append, List.cons.injEq, true_and] at heq
      exact hd heq.1.symm

/-- The lines of a literal text end where the margin does. -/
theorem literalBody_inj (hindent : 2 < indent) {s u x y : List Char}
    (hs : endsBroken broken s = true) (hu : endsBroken broken u = true) (hx : Outdented x)
    (hy : Outdented y) (h : literalBody indent broken s ++ x = literalBody indent broken u ++ y) :
    s = u ∧ x = y := by
  induction s generalizing u broken with
  | nil =>
    obtain rfl : broken = true := hs
    cases u with
    | nil => exact ⟨rfl, h⟩
    | cons d u =>
      rw [literalBody_cons, List.append_assoc] at h
      exact absurd h (hx.ne_lead_append hindent d _)
  | cons c s ih =>
    cases u with
    | nil =>
      obtain rfl : broken = true := hu
      rw [literalBody_cons, List.append_assoc] at h
      exact absurd h.symm (hy.ne_lead_append hindent c _)
    | cons d u =>
      rw [literalBody_cons, literalBody_cons, List.append_assoc, List.append_assoc,
        List.cons_append, List.cons_append] at h
      obtain ⟨rfl, hrest⟩ := lead_append_cons_inj (by omega) h
      obtain ⟨rfl, hxy⟩ := ih hs hu hrest
      exact ⟨rfl, hxy⟩

theorem literalBody_append_newline (s : List Char) :
    literalBody indent broken (s ++ ['\n']) = literalBody indent broken s ++ ['\n'] := by
  induction s generalizing broken with
  | nil => rfl
  | cons c s ih =>
    rw [List.cons_append, literalBody_cons, literalBody_cons, ih, List.append_assoc,
      List.cons_append]

/-- The header of a literal text tells whether the text ends with a break. -/
theorem dash_mem_literalHeader_iff (s : List Char) :
    '-' ∈ literalHeader s ↔ s.getLast?.any isBreak = false := by
  have hhint : '-' ∉ (if s.head?.any (fun c => c = ' ' || isBreak c) then ['2'] else []) := by
    split <;> decide
  have hheader : '-' ∈ literalHeader s ↔ '-' ∈ chomping s := by
    rw [literalHeader, List.mem_cons, List.mem_append]
    simp [hhint]
  rw [hheader, chomping, ← List.head?_reverse]
  cases s.reverse with
  | nil => simp
  | cons c before =>
    by_cases hc : isBreak c = true
    · by_cases hbefore : before.head?.all isBreak = true <;> simp [hc, hbefore]
    · simp [hc]

theorem newline_notMem_literalHeader (s : List Char) : '\n' ∉ literalHeader s := by
  have hhint : '\n' ∉ (if s.head?.any (fun c => c = ' ' || isBreak c) then ['2'] else []) := by
    split <;> decide
  have hchomping : '\n' ∉ chomping s := by
    unfold chomping
    split
    next => decide
    next =>
      split
      next => decide
      next => split <;> decide
  rw [literalHeader, List.mem_cons, List.mem_append]
  simp [hhint, hchomping]

/-- The lines of a literal text: the last one is ended if the text does not end it. -/
def lines (s : List Char) : List Char :=
  if s.getLast?.any isBreak then s else s ++ ['\n']

theorem endsBroken_lines (broken : Bool) (s : List Char) : endsBroken broken (lines s) = true := by
  have hne : lines s ≠ [] := by
    rintro h
    unfold lines at h
    split at h
    next hbreak => simp [h] at hbreak
    next => simp at h
  rw [endsBroken_eq broken hne, lines]
  split
  next hbreak => exact hbreak
  next => simp [isBreak]

theorem renderLine_of_literal {s : List Char} (h : Style.choose s = .literal) :
    renderLine indent s = literalHeader s ++ '\n' :: literalBody indent true (lines s) := by
  by_cases hbreak : s.getLast?.any isBreak = true
  · simp [renderLine, render, h, literal, endsLine, hbreak, lines]
  · simp [renderLine, render, h, literal, endsLine, hbreak, lines, literalBody_append_newline]

theorem literalLine_inj (hindent : 2 < indent) {s u x y : List Char} (hx : Outdented x)
    (hy : Outdented y)
    (h : literalHeader s ++ '\n' :: literalBody indent true (lines s) ++ x =
      literalHeader u ++ '\n' :: literalBody indent true (lines u) ++ y) : s = u ∧ x = y := by
  rw [List.append_assoc, List.append_assoc, List.cons_append, List.cons_append] at h
  obtain ⟨hheader, hbody⟩ := append_mark_inj (newline_notMem_literalHeader s)
    (newline_notMem_literalHeader u) h
  obtain ⟨hlines, hxy⟩ := literalBody_inj hindent (endsBroken_lines true s)
    (endsBroken_lines true u) hx hy hbody
  have hends : s.getLast?.any isBreak = false ↔ u.getLast?.any isBreak = false := by
    rw [← dash_mem_literalHeader_iff, ← dash_mem_literalHeader_iff, hheader]
  refine ⟨?_, hxy⟩
  unfold lines at hlines
  by_cases hs : s.getLast?.any isBreak = true <;> by_cases hu : u.getLast?.any isBreak = true
  · rwa [if_pos hs, if_pos hu] at hlines
  · simp_all
  · simp_all
  · rw [if_neg hs, if_neg hu] at hlines
    exact List.append_cancel_right hlines

/-! ## Any style -/

/-- The first character of a scalar announces its style. -/
theorem render_eq_cons (indent : Nat) (s : List Char) :
    ∃ c cs, render indent s = c :: cs ∧ Style.announced c = Style.choose s := by
  cases hstyle : Style.choose s with
  | plain =>
    have hbare := bare_of_choose_eq_plain hstyle
    obtain ⟨c, cs, rfl⟩ := List.exists_cons_of_ne_nil hbare.ne_nil
    exact ⟨c, cs, by rw [render, hstyle], announced_eq_plain hbare.opensIndicator_eq⟩
  | singleQuoted => exact ⟨'\'', _, by rw [render, hstyle, singleQuoted], rfl⟩
  | doubleQuoted => exact ⟨'"', _, by rw [render, hstyle, doubleQuoted], rfl⟩
  | literal => exact ⟨'|', _, by rw [render, hstyle, literal, literalHeader, List.cons_append], rfl⟩

theorem choose_eq_of_render_append_eq {s u x y : List Char}
    (h : render indent s ++ x = render indent u ++ y) : Style.choose s = Style.choose u := by
  obtain ⟨c, cs, hs, hc⟩ := render_eq_cons indent s
  obtain ⟨d, ds, hu, hd⟩ := render_eq_cons indent u
  rw [hs, hu] at h
  rw [← hc, ← hd, (List.cons.inj h).1]

theorem renderLine_of_not_literal {s : List Char} (h : Style.choose s ≠ .literal) :
    renderLine indent s = render indent s ++ ['\n'] := by
  simp [renderLine, endsLine, h]

/-- **A scalar that ends a line** is the only one that begins a text as it does, if what comes
behind it is not indented like its own lines. -/
theorem renderLine_inj (hindent : 2 < indent) {s u x y : List Char} (hx : Outdented x)
    (hy : Outdented y) (h : renderLine indent s ++ x = renderLine indent u ++ y) :
    s = u ∧ x = y := by
  have hstyle : Style.choose s = Style.choose u := by
    rw [renderLine, renderLine, List.append_assoc, List.append_assoc] at h
    exact choose_eq_of_render_append_eq h
  by_cases hliteral : Style.choose s = .literal
  · rw [renderLine_of_literal hliteral, renderLine_of_literal (hstyle ▸ hliteral)] at h
    exact literalLine_inj hindent hx hy h
  rw [renderLine_of_not_literal hliteral, renderLine_of_not_literal (hstyle ▸ hliteral),
    List.append_assoc, List.append_assoc, List.singleton_append, List.singleton_append] at h
  have hnewline {z : List Char} : ('\n' :: z).head? ≠ some '\'' := by simp
  have hrest {z w : List Char} (hzw : s = u ∧ '\n' :: z = '\n' :: w) : s = u ∧ z = w :=
    hzw.imp_right fun h => (List.cons.inj h).2
  cases hs : Style.choose s with
  | literal => exact absurd hs hliteral
  | singleQuoted =>
    rw [render, render, ← hstyle, hs] at h
    exact hrest (singleQuoted_inj (by omega) hnewline hnewline h)
  | doubleQuoted =>
    rw [render, render, ← hstyle, hs] at h
    exact hrest (doubleQuoted_inj h)
  | plain =>
    have hnone {t : List Char} (ht : Style.choose t = .plain) : '\n' ∉ t := fun hmem =>
      absurd ((bare_of_choose_eq_plain ht).isBreak_eq _ hmem) (by decide)
    rw [render, render, ← hstyle, hs] at h
    exact append_mark_inj (hnone hs) (hnone (hstyle ▸ hs)) h

/-- A bare text is not the beginning of another one with the colon of a key behind it. -/
theorem bare_key_inj {s u x y : List Char} (hs : Bare s) (hu : Bare u)
    (h : s ++ ':' :: ' ' :: x = u ++ ':' :: ' ' :: y) : s = u ∧ x = y := by
  have hcontra {s u x y m : List Char} (hu : Bare u) (hm : u = s ++ m)
      (hx : ':' :: ' ' :: x = m ++ ':' :: ' ' :: y) : m = [] := by
    cases m with
    | nil => rfl
    | cons c m =>
      obtain ⟨hc, hx⟩ := List.cons.inj hx
      have hnext := hu.separatorNext_eq (hc ▸ hm)
      cases m with
      | nil => cases hnext
      | cons d m =>
        rw [← (List.cons.inj hx).1] at hnext
        cases hnext
  rcases List.append_eq_append_iff.1 h with ⟨m, hm, hx⟩ | ⟨m, hm, hy⟩
  · obtain rfl := hcontra hu hm hx
    simp_all
  · obtain rfl := hcontra hs hm hy
    simp_all

/-- **A scalar in front of a colon** that takes a single line is the only one that begins a text as
it does. -/
theorem render_key_inj (hindent : 0 < indent) {s u x y : List Char} (hs : s.any isBreak = false)
    (h : render indent s ++ ':' :: ' ' :: x = render indent u ++ ':' :: ' ' :: y) :
    s = u ∧ x = y := by
  have hstyle := choose_eq_of_render_append_eq h
  have hcolon {z : List Char} : (':' :: ' ' :: z).head? ≠ some '\'' := by simp
  have hrest {z w : List Char} (hzw : s = u ∧ ':' :: ' ' :: z = ':' :: ' ' :: w) : s = u ∧ z = w :=
    hzw.imp_right fun h => (List.cons.inj (List.cons.inj h).2).2
  cases hchoose : Style.choose s with
  | literal =>
    have hmem := Style.newline_mem_of_choose_eq_literal hchoose
    exact absurd (List.any_eq_false.1 hs _ hmem) (by decide)
  | singleQuoted =>
    rw [render, render, ← hstyle, hchoose] at h
    exact hrest (singleQuoted_inj hindent hcolon hcolon h)
  | doubleQuoted =>
    rw [render, render, ← hstyle, hchoose] at h
    exact hrest (doubleQuoted_inj h)
  | plain =>
    rw [render, render, ← hstyle, hchoose] at h
    exact bare_key_inj (bare_of_choose_eq_plain hchoose)
      (bare_of_choose_eq_plain (hstyle ▸ hchoose)) h

end Scalar

end PatternHarvest.Yaml
