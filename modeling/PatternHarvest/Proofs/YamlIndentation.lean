import PatternHarvest.Proofs.YamlDocuments

/-!
# Nothing gets out of its field

The YAML of a report is a mapping with one key, and `Report.format_yaml_indented` says that no name
and no text in the report can add to it: behind the line of that key, every line is empty or begins
with two blanks, wherever a reader ends a line. The names and texts bring breaks, marks and blanks
of their own, so this is followed through every style. `Indented` says how a part of a document goes
on with the lines around it, and parts that fit are put together by `Indented.append`.

A break that is not written as it is ends no line. That holds of all control characters but the
newline: whatever stands in a document is printable (`isPrintable_of_mem_renderChars`).
-/

namespace PatternHarvest

namespace Yaml

/-! ## Lines -/

/-- Whether a character ends a line of a document. -/
def isLineEnd (c : Char) : Bool :=
  c = '\n' || c = '\u2028' || c = '\u2029'

/-- The control characters, those of the general category `Cc`. -/
def isControl (c : Char) : Bool :=
  c.toNat < 0x20 || (0x7F ≤ c.toNat && c.toNat < 0xA0)

/-- What a line of a document is like inside its only field: it is empty or begins with two
blanks. -/
def IsInside (line : List Char) : Prop :=
  line = [] ∨ [' ', ' '] <+: line

/-- Every line that begins in `s` is empty or begins with two blanks. The first mark tells whether a
line begins in front of `s`, the last one whether a line begins behind it. So a break may stand
anywhere, but another character only within a line, and it takes two blanks to get there. -/
inductive Indented : Bool → List Char → Bool → Prop
  | nil (b : Bool) : Indented b [] b
  | ends {b b' : Bool} {c : Char} {s : List Char} : isBreak c = true → Indented true s b' →
      Indented b (c :: s) b'
  | blanks {b' : Bool} {s : List Char} : Indented false s b' → Indented true (' ' :: ' ' :: s) b'
  | within {b' : Bool} {c : Char} {s : List Char} : isBreak c = false → Indented false s b' →
      Indented false (c :: s) b'

theorem isBreak_eq_of_any {s : List Char} (h : s.any isBreak = false) :
    ∀ c ∈ s, isBreak c = false := by
  simpa using h

namespace Indented

variable {b b' b'' : Bool} {s t : List Char}

theorem append (hs : Indented b s b') (ht : Indented b' t b'') : Indented b (s ++ t) b'' := by
  induction hs with
  | nil => exact ht
  | ends hc _ ih => exact .ends hc (ih ht)
  | blanks _ ih => exact .blanks (ih ht)
  | within hc _ ih => exact .within hc (ih ht)

theorem of_forall (h : ∀ c ∈ s, isBreak c = false) : Indented false s false := by
  induction s with
  | nil => exact .nil false
  | cons c s ih =>
    exact .within (h c List.mem_cons_self) (ih fun d hd => h d (List.mem_cons_of_mem c hd))

theorem of_any (h : s.any isBreak = false) : Indented false s false :=
  .of_forall (isBreak_eq_of_any h)

/-- A character that ends no line belongs to the first line of what follows it. -/
theorem splitOnP_cons_of_isBreak_eq {c : Char} (hc : isBreak c = false) (s : List Char) :
    ∃ first rest, s.splitOnP isBreak = first :: rest ∧
      (c :: s).splitOnP isBreak = (c :: first) :: rest := by
  obtain ⟨first, rest, hs⟩ := List.exists_cons_of_ne_nil (List.splitOnP_ne_nil isBreak s)
  exact ⟨first, rest, hs, by simp [List.splitOnP_cons_eq_if_modifyHead, hc, hs]⟩

/-- The lines of an indented part are inside, but for the first one if it begins further ahead. -/
theorem isInside (h : Indented b s b') :
    (∀ line ∈ (s.splitOnP isBreak).tail, IsInside line) ∧
      (b = true → ∀ line ∈ s.splitOnP isBreak, IsInside line) := by
  induction h with
  | nil => simp [IsInside]
  | ends hc _ ih =>
    rw [List.splitOnP_cons_eq_if_modifyHead, if_pos hc]
    refine ⟨ih.2 rfl, fun _ line hline => ?_⟩
    rcases List.mem_cons.1 hline with rfl | hline
    · exact .inl rfl
    · exact ih.2 rfl line hline
  | @blanks b' s _ ih =>
    have hspace : isBreak ' ' = false := rfl
    obtain ⟨first, rest, hs, hone⟩ := splitOnP_cons_of_isBreak_eq hspace s
    obtain ⟨_, _, hone', htwo⟩ := splitOnP_cons_of_isBreak_eq hspace (' ' :: s)
    rw [hone] at hone'
    obtain ⟨rfl, rfl⟩ := List.cons.inj hone'
    rw [hs] at ih
    rw [htwo]
    refine ⟨ih.1, fun _ line hline => ?_⟩
    rcases List.mem_cons.1 hline with rfl | hline
    · exact .inr ⟨first, rfl⟩
    · exact ih.1 line hline
  | @within b' c s hc _ ih =>
    obtain ⟨first, rest, hs, hcons⟩ := splitOnP_cons_of_isBreak_eq hc s
    rw [hs] at ih
    rw [hcons]
    exact ⟨ih.1, nofun⟩

end Indented

/-! ## Characters -/

theorem isControl_of_isPrintable {c : Char} (h : isPrintable c = true) :
    isControl c = true → c = '\n' := by
  intro hcontrol
  simp only [isPrintable, isControl, Bool.or_eq_true, Bool.and_eq_true, decide_eq_true_eq,
    beq_iff_eq, bne_iff_ne] at h hcontrol
  have hnewline : c.toNat = '\n'.toNat := by
    change c.toNat = 10
    omega
  exact Char.toNat_inj.1 hnewline

theorem isLineEnd_eq_isBreak {c : Char} (h : isPrintable c = true) : isLineEnd c = isBreak c := by
  have hne {d : Char} (hd : isPrintable d = false) : c ≠ d := by
    rintro rfl
    rw [h] at hd
    cases hd
  have hreturn : c ≠ '\r' := hne rfl
  have hnext : c ≠ '\u0085' := hne rfl
  simp [isLineEnd, isBreak, hreturn, hnext]

theorem splitOnP_congr {p q : Char → Bool} {s : List Char} (h : ∀ c ∈ s, p c = q c) :
    s.splitOnP p = s.splitOnP q := by
  induction s with
  | nil => rfl
  | cons c s ih =>
    rw [List.splitOnP_cons_eq_if_modifyHead, List.splitOnP_cons_eq_if_modifyHead,
      h c List.mem_cons_self, ih fun d hd => h d (List.mem_cons_of_mem c hd)]

/-- Only between double quotes may there be a character that cannot stand as it is. -/
theorem Style.isSpecial_of_choose {s : List Char} (h : choose s ≠ .doubleQuoted) :
    isSpecial s = false := by
  by_contra hspecial
  rw [Bool.not_eq_false] at hspecial
  refine h ?_
  have hplain : plainAllowed s = false := by simp [plainAllowed, hspecial]
  have hquoted : singleQuotedAllowed s = false := by simp [singleQuotedAllowed, hspecial]
  have hliteral : literalAllowed s = false := by simp [literalAllowed, hspecial]
  unfold choose
  cases wanted s <;> simp [hplain, hquoted, hliteral]

namespace Scalar

variable {indent : ℕ} {broken : Bool}

theorem mem_lead {c d : Char} (h : d ∈ lead indent broken c) : d = ' ' := by
  unfold lead margin at h
  split at h
  next => exact List.eq_of_mem_replicate h
  next => simp at h

/-- Between single quotes only margins and quotes are added to a text. -/
theorem mem_singleQuotedBody {s : List Char} {d : Char}
    (h : d ∈ singleQuotedBody indent broken s) : d ∈ s ∨ d = ' ' ∨ d = '\'' := by
  induction s generalizing broken with
  | nil =>
    cases broken with
    | false => simp [singleQuotedBody] at h
    | true => exact .inr (.inl (List.eq_of_mem_replicate h))
  | cons c s ih =>
    rw [singleQuotedBody_cons, List.mem_append, List.mem_cons, List.mem_append] at h
    rcases h with hlead | rfl | hquote | hrest
    · exact .inr (.inl (mem_lead hlead))
    · exact .inl List.mem_cons_self
    · split at hquote
      next => exact .inr (.inr (List.mem_singleton.1 hquote))
      next => simp at hquote
    · exact (ih hrest).imp_left (List.mem_cons_of_mem c)

/-- Line by line only margins are added to a text. -/
theorem mem_literalBody {s : List Char} {d : Char} (h : d ∈ literalBody indent broken s) :
    d ∈ s ∨ d = ' ' := by
  induction s generalizing broken with
  | nil => simp [literalBody] at h
  | cons c s ih =>
    rw [literalBody_cons, List.mem_append, List.mem_cons] at h
    rcases h with hlead | rfl | hrest
    · exact .inr (mem_lead hlead)
    · exact .inl List.mem_cons_self
    · exact (ih hrest).imp_left (List.mem_cons_of_mem c)

/-! ## Within a line -/

/-- What may stand within a line. -/
def IsInline (c : Char) : Prop :=
  isPrintable c = true ∧ isBreak c = false

instance : DecidablePred IsInline := fun c =>
  inferInstanceAs (Decidable (isPrintable c = true ∧ isBreak c = false))

theorem isInline_of_mem_literalHeader {s : List Char} {d : Char} (h : d ∈ literalHeader s) :
    IsInline d := by
  have hone {c : Char} (hc : IsInline c) (h : d ∈ [c]) : IsInline d := List.mem_singleton.1 h ▸ hc
  rw [literalHeader, List.mem_cons, List.mem_append] at h
  rcases h with rfl | hhint | hchomping
  · decide
  · split at hhint
    next => exact hone (by decide) hhint
    next => simp at hhint
  · unfold chomping at hchomping
    split at hchomping
    next => exact hone (by decide) hchomping
    next =>
      split at hchomping
      next => exact hone (by decide) hchomping
      next =>
        split at hchomping
        next => exact hone (by decide) hchomping
        next => simp at hchomping

theorem isInline_hexDigit : ∀ n < 16, IsInline (hexDigit n) := by
  decide

theorem isInline_of_mem_hexDigits {width n : ℕ} {d : Char} (h : d ∈ hexDigits width n) :
    IsInline d := by
  induction width generalizing n with
  | zero => simp [hexDigits] at h
  | succ width ih =>
    rw [hexDigits, List.mem_append, List.mem_singleton] at h
    rcases h with hhigh | rfl
    · exact ih hhigh
    · exact isInline_hexDigit _ (Nat.mod_lt n (by decide))

theorem isInline_of_mem_codePoint {c d : Char} (h : d ∈ codePoint c) : IsInline d := by
  have hmark {mark : Char} {width : ℕ} (hmark : IsInline mark)
      (h : d ∈ mark :: hexDigits width c.toNat) : IsInline d := by
    rcases List.mem_cons.1 h with rfl | h
    · exact hmark
    · exact isInline_of_mem_hexDigits h
  simp only [codePoint] at h
  split at h
  next => exact hmark (by decide) h
  next =>
    split at h
    next => exact hmark (by decide) h
    next => exact hmark (by decide) h

/-- The escape of a character stays within the line, whatever the character is. -/
theorem isInline_of_mem_escape {c d : Char} (h : d ∈ escape c) : IsInline d := by
  have hletter {letter : Char} (hletter : IsInline letter) (h : d ∈ [letter]) : IsInline d :=
    List.mem_singleton.1 h ▸ hletter
  unfold escape at h
  split at h
  next =>
    rcases List.mem_cons.1 h with rfl | h
    · decide
    · unfold escapeName at h
      split at h
      iterate 14 exact hletter (by decide) h
      exact isInline_of_mem_codePoint h
  next hescape =>
    refine hletter ?_ h
    simp only [needsEscape, Bool.or_eq_true, not_or, Bool.not_eq_true', Bool.not_eq_true,
      Bool.not_eq_false] at hescape
    exact ⟨hescape.2, hescape.1.2⟩

theorem isInline_of_mem_doubleQuoted {s : List Char} {d : Char} (h : d ∈ doubleQuoted s) :
    IsInline d := by
  rw [doubleQuoted, List.mem_cons, List.mem_append, List.mem_singleton] at h
  rcases h with rfl | hescape | rfl
  · decide
  · obtain ⟨c, -, hc⟩ := List.mem_flatMap.1 hescape
    exact isInline_of_mem_escape hc
  · decide

/-! ## In any style -/

/-- Whatever a text holds, the scalar that is written for it is printable. -/
theorem isPrintable_of_mem_render {s : List Char} {d : Char} (h : d ∈ render indent s) :
    isPrintable d = true := by
  by_cases hdouble : Style.choose s = .doubleQuoted
  · rw [render, hdouble] at h
    exact (isInline_of_mem_doubleQuoted h).1
  -- in every other style the text itself is printable
  have htext (c : Char) (hc : c ∈ s) : isPrintable c = true := by
    have hspecial := Style.isSpecial_of_choose hdouble
    simp only [isSpecial, List.any_eq_false, Bool.not_eq_true', Bool.not_eq_false] at hspecial
    exact hspecial c hc
  cases hstyle : Style.choose s with
  | doubleQuoted => exact absurd hstyle hdouble
  | plain =>
    rw [render, hstyle] at h
    exact htext d h
  | singleQuoted =>
    rw [render, hstyle] at h
    simp only [singleQuoted, List.mem_cons, List.mem_append, List.not_mem_nil, or_false] at h
    rcases h with rfl | hbody | rfl
    · decide
    · rcases mem_singleQuotedBody hbody with hmem | rfl | rfl
      · exact htext d hmem
      · decide
      · decide
    · decide
  | literal =>
    rw [render, hstyle] at h
    simp only [literal, List.mem_cons, List.mem_append] at h
    rcases h with hheader | rfl | hbody
    · exact (isInline_of_mem_literalHeader hheader).1
    · decide
    · rcases mem_literalBody hbody with hmem | rfl
      · exact htext d hmem
      · decide

theorem isPrintable_of_mem_renderLine {s : List Char} {d : Char} (h : d ∈ renderLine indent s) :
    isPrintable d = true := by
  rw [renderLine, List.mem_append] at h
  rcases h with h | hend
  · exact isPrintable_of_mem_render h
  · split at hend
    next => simp at hend
    next =>
      rw [List.mem_singleton.1 hend]
      decide

/-! ## Indentation -/

/-- A character with its margin begins no line that is not indented. -/
theorem indented_lead_append_cons (hindent : 2 ≤ indent) (broken : Bool) {c : Char}
    {s : List Char} {b : Bool} (h : Indented (isBreak c) s b) :
    Indented broken (lead indent broken c ++ c :: s) b := by
  obtain ⟨n, rfl⟩ : ∃ n, indent = n + 2 := ⟨indent - 2, by omega⟩
  by_cases hc : isBreak c = true
  · rw [hc] at h
    simpa [lead, hc] using Indented.ends hc h
  rw [Bool.not_eq_true] at hc
  rw [hc] at h
  cases broken with
  | false => simpa [lead] using Indented.within hc h
  | true =>
    have hmargin : Indented false (margin n) false :=
      .of_forall fun d hd => List.eq_of_mem_replicate hd ▸ rfl
    have hlead : lead (n + 2) true c = ' ' :: ' ' :: margin n := by
      simp [lead, hc, margin, List.replicate_succ]
    rw [hlead]
    exact .blanks (hmargin.append (.within hc h))

theorem indented_singleQuotedBody (hindent : 2 ≤ indent) (broken : Bool) (s : List Char) :
    Indented broken (singleQuotedBody indent broken s ++ ['\'']) false := by
  induction s generalizing broken with
  | nil =>
    have hclose : singleQuotedBody indent broken [] = lead indent broken '\'' := by
      cases broken <;> rfl
    rw [hclose]
    exact indented_lead_append_cons hindent broken (.nil false)
  | cons c s ih =>
    rw [singleQuotedBody_cons, List.append_assoc, List.cons_append, List.append_assoc]
    refine indented_lead_append_cons hindent broken ?_
    split
    next hquote =>
      subst hquote
      exact .within rfl (ih false)
    next => exact ih (isBreak c)

theorem indented_literalBody (hindent : 2 ≤ indent) (broken : Bool) (s : List Char) :
    Indented broken (literalBody indent broken s) (endsBroken broken s) := by
  induction s generalizing broken with
  | nil => exact .nil broken
  | cons c s ih =>
    rw [literalBody_cons]
    exact indented_lead_append_cons hindent broken (ih (isBreak c))

/-- A scalar that is no literal text ends in the middle of a line. -/
theorem indented_render (hindent : 2 ≤ indent) {s : List Char} (h : Style.choose s ≠ .literal) :
    Indented false (render indent s) false := by
  cases hstyle : Style.choose s with
  | literal => exact absurd hstyle h
  | plain =>
    rw [render, hstyle]
    exact .of_forall (bare_of_choose_eq_plain hstyle).isBreak_eq
  | doubleQuoted =>
    rw [render, hstyle]
    exact .of_forall fun c hc => (isInline_of_mem_doubleQuoted hc).2
  | singleQuoted =>
    rw [render, hstyle]
    exact .within rfl (indented_singleQuotedBody hindent false s)

theorem indented_renderLine (hindent : 2 ≤ indent) (s : List Char) :
    Indented false (renderLine indent s) true := by
  by_cases hliteral : Style.choose s = .literal
  · have hheader : Indented false (literalHeader s) false :=
      .of_forall fun c hc => (isInline_of_mem_literalHeader hc).2
    have hbody := indented_literalBody hindent true (lines s)
    rw [endsBroken_lines] at hbody
    rw [renderLine_of_literal hliteral]
    exact hheader.append (.ends rfl hbody)
  · rw [renderLine_of_not_literal hliteral]
    exact (indented_render hindent hliteral).append (.ends rfl (.nil true))

end Scalar

end Yaml

namespace Report

namespace Yaml

open PatternHarvest.Yaml
open PatternHarvest.Yaml.Scalar hiding render

/-! ## Entries and reports -/

theorem indented_entry (name text : List Char) : Indented true (entry name text) true := by
  have hindent : 2 ≤ scalarIndent := by decide
  have htext := indented_renderLine hindent text
  have hcolon : Indented false [':', ' '] false := .of_any rfl
  by_cases hname : isSimpleKey name = true
  · have hkey : Style.choose name ≠ .literal := by
      intro hliteral
      simp only [isSimpleKey, Bool.and_eq_true, Bool.not_eq_true', List.any_eq_false] at hname
      exact absurd (hname.1 _ (Style.newline_mem_of_choose_eq_literal hliteral)) (by decide)
    rw [entry, if_pos hname, List.append_assoc, List.append_assoc]
    exact .blanks ((indented_render hindent hkey).append (hcolon.append htext))
  · have hmark : Indented false ['?', ' '] false := .of_any rfl
    rw [entry, if_neg hname, List.append_assoc, List.append_assoc]
    exact .blanks (hmark.append ((indented_renderLine hindent name).append
      (.blanks (hcolon.append htext))))

theorem indented_body (es : List (String × String)) : Indented true (body es) true := by
  induction es with
  | nil => exact .nil true
  | cons e es ih =>
    rw [body, List.flatMap_cons]
    exact (indented_entry _ _).append ih

theorem isPrintable_of_mem_entry {name text : List Char} {c : Char} (h : c ∈ entry name text) :
    isPrintable c = true := by
  unfold entry at h
  split at h
  next =>
    have hblanks : ∀ c ∈ [' ', ' '], isPrintable c = true := List.all_eq_true.1 rfl
    have hcolon : ∀ c ∈ [':', ' '], isPrintable c = true := List.all_eq_true.1 rfl
    simp only [List.mem_append] at h
    rcases h with ((h | h) | h) | h
    · exact hblanks c h
    · exact isPrintable_of_mem_render h
    · exact hcolon c h
    · exact isPrintable_of_mem_renderLine h
  next =>
    have hmark : ∀ c ∈ [' ', ' ', '?', ' '], isPrintable c = true := List.all_eq_true.1 rfl
    have hcolon : ∀ c ∈ [' ', ' ', ':', ' '], isPrintable c = true := List.all_eq_true.1 rfl
    simp only [List.mem_append] at h
    rcases h with ((h | h) | h) | h
    · exact hmark c h
    · exact isPrintable_of_mem_renderLine h
    · exact hcolon c h
    · exact isPrintable_of_mem_renderLine h

theorem isPrintable_of_mem_renderChars {r : Report} {c : Char} (h : c ∈ renderChars r) :
    isPrintable c = true := by
  rw [renderChars_eq] at h
  split at h
  next =>
    have hempty : ∀ c ∈ "patterns: \x7b\x7d\n".toList, isPrintable c = true :=
      List.all_eq_true.1 rfl
    exact hempty c h
  next =>
    have hkey : ∀ c ∈ "patterns:\n".toList, isPrintable c = true := List.all_eq_true.1 rfl
    rcases List.mem_append.1 h with hfirst | hbody
    · exact hkey c hfirst
    · obtain ⟨e, -, he⟩ := List.mem_flatMap.1 hbody
      exact isPrintable_of_mem_entry he

end Yaml

/-- **Nothing gets out of its field.** The YAML of a report is a single line if there is nothing to
report. Otherwise it opens with the line of its only key, and every other line is empty or begins
with two blanks, whatever is in the names and texts. No control character but the newline is written
as it is. -/
theorem format_yaml_indented (r : Report) (compact : Bool) :
    (if r.isEmpty then r.format .yaml compact = "patterns: \x7b\x7d\n"
      else ∃ rest, (r.format .yaml compact).toList.splitOnP Yaml.isLineEnd =
          "patterns:".toList :: rest ∧ ∀ line ∈ rest, Yaml.IsInside line) ∧
      ∀ c ∈ (r.format .yaml compact).toList, Yaml.isControl c = true → c = '\n' := by
  have hchars : (r.format .yaml compact).toList = Yaml.renderChars r := String.toList_ofList
  have hprintable (c : Char) (hc : c ∈ Yaml.renderChars r) : Yaml.isPrintable c = true :=
    Yaml.isPrintable_of_mem_renderChars hc
  have hentries : r.isEmpty = true ↔ r.patterns.entries = [] := by
    simp [isEmpty, size, Table.size]
  refine ⟨?_, fun c hc => Yaml.isControl_of_isPrintable (hprintable c (hchars ▸ hc))⟩
  split
  next hempty =>
    have hline : Yaml.renderChars r = "patterns: \x7b\x7d\n".toList := by
      rw [Yaml.renderChars_eq, if_pos (hentries.1 hempty)]
    exact String.toList_inj.1 (hchars.trans hline)
  next hempty =>
    refine ⟨(Yaml.body r.patterns.entries).splitOnP Yaml.isBreak, ?_,
      (Yaml.indented_body r.patterns.entries).isInside.2 rfl⟩
    have hfirst : Yaml.renderChars r =
        "patterns:".toList ++ '\n' :: Yaml.body r.patterns.entries := by
      rw [Yaml.renderChars_eq, if_neg (mt hentries.2 hempty)]
      rfl
    have hbreaks : (Yaml.renderChars r).splitOnP Yaml.isLineEnd =
        (Yaml.renderChars r).splitOnP Yaml.isBreak :=
      Yaml.splitOnP_congr fun c hc => Yaml.isLineEnd_eq_isBreak (hprintable c hc)
    have hkey : ∀ c ∈ "patterns:".toList, Yaml.isBreak c = false := Yaml.isBreak_eq_of_any rfl
    rw [hchars, hbreaks, hfirst, List.splitOnP_append_cons_of_forall_mem hkey _ rfl]

/-- A name of two lines, and a text that would open another key if its break were left alone. -/
theorem format_yaml_indented_breaks :
    let r : Report := ⟨Table.empty.insert "a\nb" "\u2028patterns:"⟩
    r.format .yaml false = "patterns:\n  ? |-\n    a\n    b\n  : '\u2028    patterns:'\n" ∧
      (∃ rest, (r.format .yaml false).toList.splitOnP Yaml.isLineEnd = "patterns:".toList :: rest ∧
        ∀ line ∈ rest, Yaml.IsInside line) ∧
      '\n' ∈ (r.format .yaml false).toList ∧ Yaml.isControl '\n' = true := by
  intro r
  have htext : r.format .yaml false =
      "patterns:\n  ? |-\n    a\n    b\n  : '\u2028    patterns:'\n" := by decide +kernel
  have hentry : ¬r.isEmpty = true := by decide
  obtain ⟨hlines, -⟩ := format_yaml_indented r false
  rw [if_neg hentry] at hlines
  refine ⟨htext, hlines, ?_, rfl⟩
  rw [htext]
  decide

end Report

end PatternHarvest
