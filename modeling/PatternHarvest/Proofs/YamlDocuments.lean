import PatternHarvest.Proofs.YamlScalars
import PatternHarvest.Report.Format

/-!
# Different reports have different YAML

`Report.format_yaml_eq_iff` says that the YAML of a report determines the report. Two documents are
compared entry by entry, from the front. An entry begins with two blanks and no more, so what comes
behind a scalar is never mistaken for a line of the scalar (`outdented_entry`), and the scalars are
told apart by `Scalar.render_key_inj` and `Scalar.renderLine_inj`. A name on a line of its own is
marked with a question mark and a blank, with which no name in front of a colon begins.
-/

namespace PatternHarvest

namespace Yaml.Scalar

/-- A name in front of a colon does not begin like the mark of a name on a line of its own. -/
theorem render_append_ne_mark {indent : Nat} (s x y : List Char) :
    render indent s ++ ':' :: x ≠ '?' :: ' ' :: y := by
  intro h
  obtain ⟨c, cs, hrender, hannounced⟩ := render_eq_cons indent s
  rw [hrender, List.cons_append] at h
  obtain rfl : c = '?' := (List.cons.inj h).1
  have hplain : Style.choose s = .plain := hannounced.symm
  have hs : s = '?' :: cs := by rwa [render, hplain] at hrender
  have hopens := (bare_of_choose_eq_plain hplain).opensIndicator_eq
  rw [hs] at hopens
  simp only [opensIndicator, Bool.or_eq_false_iff] at hopens
  have hnext : separatorNext cs = false := by simpa using hopens.2.2
  cases cs with
  | nil => cases hnext
  | cons d cs =>
    have hd : d = ' ' := (List.cons.inj (List.cons.inj h).2).1
    rw [hd] at hnext
    cases hnext

theorem head?_render_ne_space (indent : Nat) (s : List Char) :
    (render indent s).head? ≠ some ' ' := by
  cases hstyle : Style.choose s with
  | plain =>
    rw [render, hstyle]
    exact (bare_of_choose_eq_plain hstyle).head?_ne
  | singleQuoted => simp [render, hstyle, singleQuoted]
  | doubleQuoted => simp [render, hstyle, doubleQuoted]
  | literal => simp [render, hstyle, literal, literalHeader]

end Yaml.Scalar

namespace Report

namespace Yaml

open PatternHarvest.Yaml
open PatternHarvest.Yaml.Scalar hiding render

/-! ## Entries -/

variable {name name' text text' x y : List Char}

theorem entry_of_isSimpleKey (h : isSimpleKey name = true) (text x : List Char) :
    entry name text ++ x = ' ' :: ' ' ::
      (Scalar.render scalarIndent name ++ ':' :: ' ' :: (renderLine scalarIndent text ++ x)) := by
  simp [entry, h]

theorem entry_of_not_isSimpleKey (h : ¬isSimpleKey name = true) (text x : List Char) :
    entry name text ++ x = ' ' :: ' ' :: '?' :: ' ' :: (renderLine scalarIndent name ++
      ' ' :: ' ' :: ':' :: ' ' :: (renderLine scalarIndent text ++ x)) := by
  simp [entry, h]

theorem outdented_entry (name text x : List Char) : Outdented (entry name text ++ x) := by
  refine .inr ?_
  by_cases h : isSimpleKey name = true
  · have hspace := head?_render_ne_space scalarIndent name
    obtain ⟨c, cs, hrender, -⟩ := render_eq_cons scalarIndent name
    rw [entry_of_isSimpleKey h, hrender]
    exact ⟨c, _, rfl, by simpa [hrender] using hspace⟩
  · rw [entry_of_not_isSimpleKey h]
    exact ⟨'?', _, rfl, by decide⟩

/-- An entry is the only one that begins a text as it does, if no line of a scalar follows. -/
theorem entry_inj (hx : Outdented x) (hy : Outdented y)
    (h : entry name text ++ x = entry name' text' ++ y) : name = name' ∧ text = text' ∧ x = y := by
  have hindent : 2 < scalarIndent := by decide
  by_cases hname : isSimpleKey name = true <;> by_cases hname' : isSimpleKey name' = true
  · rw [entry_of_isSimpleKey hname, entry_of_isSimpleKey hname'] at h
    have hbreak : name.any isBreak = false := by
      simp only [isSimpleKey, Bool.and_eq_true, Bool.not_eq_true'] at hname
      exact hname.1
    simp only [List.cons.injEq, true_and] at h
    obtain ⟨rfl, hrest⟩ := render_key_inj (Nat.lt_of_lt_of_le (by decide) hindent) hbreak h
    obtain ⟨rfl, hxy⟩ := renderLine_inj hindent hx hy hrest
    exact ⟨rfl, rfl, hxy⟩
  · rw [entry_of_isSimpleKey hname, entry_of_not_isSimpleKey hname'] at h
    exact absurd (List.cons.inj (List.cons.inj h).2).2 (render_append_ne_mark _ _ _)
  · rw [entry_of_not_isSimpleKey hname, entry_of_isSimpleKey hname'] at h
    exact absurd (List.cons.inj (List.cons.inj h).2).2.symm (render_append_ne_mark _ _ _)
  · rw [entry_of_not_isSimpleKey hname, entry_of_not_isSimpleKey hname'] at h
    -- the colon behind the first scalar is outdented as well
    have hcolon (z : List Char) : Outdented (' ' :: ' ' :: ':' :: z) :=
      .inr ⟨':', z, rfl, by decide⟩
    simp only [List.cons.injEq, true_and] at h
    obtain ⟨rfl, hrest⟩ := renderLine_inj hindent (hcolon _) (hcolon _) h
    simp only [List.cons.injEq, true_and] at hrest
    obtain ⟨rfl, hxy⟩ := renderLine_inj hindent hx hy hrest
    exact ⟨rfl, rfl, hxy⟩

/-! ## Reports -/

/-- Entries one after the other, up to the end of the document. -/
def body (es : List (String × String)) : List Char :=
  es.flatMap fun e => entry e.1.toList e.2.toList

theorem outdented_body (es : List (String × String)) : Outdented (body es) := by
  cases es with
  | nil => exact .inl rfl
  | cons e es =>
    rw [body, List.flatMap_cons]
    exact outdented_entry _ _ _

theorem body_inj {es ds : List (String × String)} (h : body es = body ds) : es = ds := by
  have hne (e : String × String) (es : List (String × String)) : body (e :: es) ≠ [] := by
    intro hnil
    rw [body, List.flatMap_cons] at hnil
    by_cases hkey : isSimpleKey e.1.toList = true <;> simp [entry, hkey] at hnil
  induction es generalizing ds with
  | nil =>
    cases ds with
    | nil => rfl
    | cons d ds => exact absurd h.symm (hne d ds)
  | cons e es ih =>
    cases ds with
    | nil => exact absurd h (hne e es)
    | cons d ds =>
      rw [body, body, List.flatMap_cons, List.flatMap_cons] at h
      obtain ⟨hname, htext, hrest⟩ := entry_inj (outdented_body es) (outdented_body ds) h
      rw [String.toList_inj] at hname htext
      rw [Prod.ext hname htext, ih hrest]

theorem renderChars_eq (r : Report) :
    renderChars r = if r.patterns.entries = [] then "patterns: \x7b\x7d\n".toList
      else "patterns:\n".toList ++ body r.patterns.entries := by
  unfold renderChars body
  cases r.patterns.entries <;> simp

theorem entries_eq_of_renderChars_eq {r r' : Report} (h : renderChars r = renderChars r') :
    r.patterns.entries = r'.patterns.entries := by
  rw [renderChars_eq, renderChars_eq] at h
  by_cases hr : r.patterns.entries = [] <;> by_cases hr' : r'.patterns.entries = []
  · rw [hr, hr']
  · rw [if_pos hr, if_neg hr'] at h
    simp at h
  · rw [if_neg hr, if_pos hr'] at h
    simp at h
  · rw [if_neg hr, if_neg hr'] at h
    exact body_inj (List.append_cancel_left h)

end Yaml

/-- **YAML loses nothing.** Two reports have the same YAML exactly if they are the same report,
whatever characters are in their names and texts. -/
theorem format_yaml_eq_iff (r r' : Report) (compact compact' : Bool) :
    r.format .yaml compact = r'.format .yaml compact' ↔ r = r' := by
  constructor
  · intro h
    have hchars : Yaml.renderChars r = Yaml.renderChars r' := String.ofList_injective h
    have hentries := Yaml.entries_eq_of_renderChars_eq hchars
    obtain ⟨⟨es, hes⟩⟩ := r
    obtain ⟨⟨ds, hds⟩⟩ := r'
    cases hentries
    rfl
  · rintro rfl
    rfl

end Report

end PatternHarvest
