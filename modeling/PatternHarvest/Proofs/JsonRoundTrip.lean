import PatternHarvest.Report.Format
import PatternHarvest.Report.Json.Reader

/-!
# A report in JSON reads back

`Report.Json.read_format_json` says that the JSON of a report, on one line or laid out, is read as
that report, with or without a line break behind it. The reader takes one character at a time, and
`State.Leads` is the relation that is shown of each part of the text in turn: reading the part
takes the reader from one state to another, and at no place before the end would it have been
satisfied with what it had. Parts that stand side by side compose (`Leads.trans`), so the proof
follows the writer: a character of a text, a text, an entry, the entries of an object, an object,
the report. Because the relation looks at every place on the way, it also says what is read of a text
that is cut off there: nothing, for want of the rest (`Report.Json.read_of_cut`).

The entries arrive in the order of their names, each being written behind the ones before it, and
that is how the table was stored (`Table.ofList_entries`).
-/

namespace PatternHarvest

namespace Json

/-! ## Hexadecimal digits -/

theorem hexValue?_hexDigit : ∀ n < 16, hexValue? (hexDigit n) = some n := by
  decide

theorem utf8Size_hexDigit : ∀ n < 16, (hexDigit n).utf8Size = 1 := by
  decide

/-- The four digits of a code unit below 256 as they are written. -/
theorem hexNumber?_hexDigits {n : Nat} (h : n < 256) :
    hexNumber? ['0', '0', hexDigit (n / 16), hexDigit (n % 16)] = some n := by
  have hhigh : hexValue? (hexDigit (n / 16)) = some (n / 16) := hexValue?_hexDigit _ (by omega)
  have hlow : hexValue? (hexDigit (n % 16)) = some (n % 16) := hexValue?_hexDigit _ (by omega)
  have hzero : hexValue? '0' = some 0 := rfl
  simp only [hexNumber?, List.foldl_cons, List.foldl_nil, Option.bind_some, Option.map_some,
    hzero, hhigh, hlow]
  congr 1
  omega

namespace TextState

/-- The third digit of a code unit is not the last. -/
theorem step_third_digit (read : List Char) {d : Char} (h : d.utf8Size = 1) :
    step true { read, mode := .unit ['0', '0'] none } d =
      .more { read, mode := .unit [d, '0', '0'] none } := by
  have hsize : Text.Utf8.size [d, '0', '0'] < 4 := by
    simp only [Text.Utf8.size, h]
    decide
  simp only [step, if_pos hsize]

/-- The fourth digit of a code unit makes the control character whose number was written. -/
theorem step_fourth_digit (read : List Char) {c : Char} (h : c.toNat < 0x20) :
    step true { read, mode := .unit [hexDigit (c.toNat / 16), '0', '0'] none }
      (hexDigit (c.toNat % 16)) = .more { read := c :: read } := by
  have hhigh : (hexDigit (c.toNat / 16)).utf8Size = 1 := utf8Size_hexDigit _ (by omega)
  have hlow : (hexDigit (c.toNat % 16)).utf8Size = 1 := utf8Size_hexDigit _ (by omega)
  have hsize :
      ¬ Text.Utf8.size [hexDigit (c.toNat % 16), hexDigit (c.toNat / 16), '0', '0'] < 4 := by
    simp only [Text.Utf8.size, hhigh, hlow]
    decide
  have hnumber : hexNumber? [hexDigit (c.toNat % 16), hexDigit (c.toNat / 16), '0', '0'].reverse =
      some c.toNat := hexNumber?_hexDigits (by omega)
  have htrail : isTrail c.toNat = false := by simp [isTrail]; omega
  have hlead : isLead c.toNat = false := by simp [isLead]; omega
  simp only [step, if_neg hsize, hnumber, takeUnit, htrail, hlead, push, Char.ofNat_toNat,
    if_true, Bool.false_eq_true, if_false]

end TextState

end Json

namespace Report.Json

open PatternHarvest.Json

namespace State

/-! ## Reading a part of a report -/

/-- Reading `cs` takes the reader from one state to another, and a text that ended on the way
would be cut off. -/
inductive Leads : State → List Char → State → Prop
  | nil (s : State) : Leads s [] s
  | cons {s t u : State} {c : Char} {cs : List Char} (hopen : s.finish = .error .truncated)
      (hstep : s.step c = .ok t) (hrest : Leads t cs u) : Leads s (c :: cs) u

namespace Leads

variable {s t u : State} {c : Char} {cs ds : List Char}

theorem single (hopen : s.finish = .error .truncated) (hstep : s.step c = .ok t) :
    s.Leads [c] t :=
  .cons hopen hstep (.nil t)

theorem trans (h : s.Leads cs t) (h' : t.Leads ds u) : s.Leads (cs ++ ds) u := by
  induction h with
  | nil => exact h'
  | cons hopen hstep _ ih => exact .cons hopen hstep (ih h')

/-- What was read counts only through the state it leads to. -/
theorem run_append (h : s.Leads cs t) (ds : List Char) : run s (cs ++ ds) = run t ds := by
  induction h with
  | nil => rfl
  | cons _ hstep _ ih => simp only [List.cons_append, run, hstep, ih]

theorem run_eq_finish (h : s.Leads cs t) : run s cs = t.finish := by
  have hrun := h.run_append []
  rwa [List.append_nil] at hrun

/-- A text that ends on the way is cut off. -/
theorem run_of_prefix (h : s.Leads cs t) (hds : ds <+: cs) (hne : ds ≠ cs) :
    run s ds = .error .truncated := by
  induction h generalizing ds with
  | nil => exact absurd (List.prefix_nil.1 hds) hne
  | @cons s t _ c cs hopen hstep _ ih =>
    cases ds with
    | nil => exact hopen
    | cons d ds =>
      obtain ⟨rfl, htail⟩ := List.cons_prefix_cons.1 hds
      simp only [run, hstep]
      exact ih htail fun heq => hne (congrArg _ heq)

end Leads

/-! ## Between tokens -/

/-- The states in which a token has to follow and blanks may stand in front of it. -/
def isBetween : State → Bool
  | start | firstField | afterField _ | nextField _ | fieldColon .. | table _ | firstEntry _
  | afterEntry .. | nextEntry .. | entryColon .. | entryValue .. | endArray _ => true
  | skip .. | text .. | word _ | number _ | finished _ => false

theorem finish_of_isBetween {s : State} (hs : s.isBetween = true) :
    s.finish = .error .truncated := by
  cases s <;> simp [isBetween] at hs <;> rfl

theorem step_of_isSpace {s : State} (hs : s.isBetween = true) {c : Char}
    (hc : isSpace c = true) : s.step c = .ok s := by
  cases s <;> simp [isBetween] at hs <;> exact if_pos hc

theorem leads_of_isSpace {s : State} (hs : s.isBetween = true) {cs : List Char}
    (hcs : ∀ c ∈ cs, isSpace c = true) : s.Leads cs s := by
  induction cs with
  | nil => exact .nil s
  | cons c cs ih =>
    exact .cons (finish_of_isBetween hs) (step_of_isSpace hs (hcs c List.mem_cons_self))
      (ih fun d hd => hcs d (List.mem_cons_of_mem c hd))

theorem leads_newline {s : State} (hs : s.isBetween = true) (layout : Layout) (level : Nat) :
    s.Leads (layout.newline level) s := by
  refine leads_of_isSpace hs fun c hc => ?_
  cases layout with
  | compact => cases hc
  | pretty =>
    rcases List.mem_cons.1 hc with rfl | hc
    · rfl
    · obtain rfl := List.eq_of_mem_replicate hc
      rfl

theorem leads_colon {s t : State} (hs : s.isBetween = true) (hstep : s.step ':' = .ok t)
    (ht : t.isBetween = true) (layout : Layout) : s.Leads layout.colon t := by
  have hcolon : s.Leads [':'] t := .single (finish_of_isBetween hs) hstep
  cases layout with
  | compact => exact hcolon
  | pretty => exact hcolon.trans (.single (finish_of_isBetween ht) (step_of_isSpace ht rfl))

/-! ## Texts -/

/-- A character is read as it was written, whichever of its spellings the writer chose. -/
theorem leads_escape (role : Role) (read : List Char) (c : Char) :
    (text role { read }).Leads (escape c) (text role { read := c :: read }) := by
  unfold escape
  split
  -- the characters that have an escape of their own
  iterate 7 exact .cons rfl rfl (.single rfl rfl)
  next hquote hslash _ _ _ _ _ =>
    split
    next hcontrol =>
      let high := hexDigit (c.toNat / 16)
      have hmark : (text role { read }).Leads ['\\', 'u', '0', '0']
          (text role { read, mode := .unit ['0', '0'] none }) :=
        .cons rfl rfl (.cons rfl rfl (.cons rfl rfl (.single rfl rfl)))
      have hthird : (text role { read, mode := .unit ['0', '0'] none }).Leads [high]
          (text role { read, mode := .unit [high, '0', '0'] none }) :=
        .single rfl (by
          rw [step, TextState.step_third_digit read (utf8Size_hexDigit (c.toNat / 16) (by omega))])
      have hfourth : (text role { read, mode := .unit [high, '0', '0'] none }).Leads
          [hexDigit (c.toNat % 16)] (text role { read := c :: read }) :=
        .single rfl (by rw [step, TextState.step_fourth_digit read hcontrol])
      exact hmark.trans (hthird.trans hfourth)
    next hplain =>
      have hstep : TextState.step true { read } c = .more { read := c :: read } := by
        simp only [TextState.step, if_neg hquote, if_neg hslash, if_neg hplain, TextState.push]
      exact .single rfl (by rw [step, hstep])

/-- Characters are read one after the other. -/
theorem leads_flatMap_escape (role : Role) (read chars : List Char) :
    (text role { read }).Leads (chars.flatMap escape)
      (text role { read := chars.reverse ++ read }) := by
  induction chars generalizing read with
  | nil => exact .nil _
  | cons c chars ih =>
    rw [List.flatMap_cons, List.reverse_cons, List.append_assoc, List.singleton_append]
    exact (leads_escape role read c).trans (ih (c :: read))

/-- A text between quotes is read to its characters. -/
theorem leads_quote {s t : State} {role : Role} {chars : List Char} (hs : s.isBetween = true)
    (hstart : s.step '"' = .ok (text role {})) (hend : endText role chars = .ok t) :
    s.Leads (quote chars) t := by
  have hclose : (text role { read := chars.reverse ++ [] }).step '"' = .ok t := by
    rw [List.append_nil, ← hend]
    exact congrArg (endText role) (List.reverse_reverse chars)
  exact .cons (finish_of_isBetween hs) hstart
    ((leads_flatMap_escape role [] chars).trans (.single rfl hclose))

/-! ## Entries and objects -/

section

variable (layout : Layout)

theorem leads_entry {s t u v : State} {key : String} {value : List Char}
    (hkey : s.Leads (quote key.toList) t) (ht : t.isBetween = true)
    (hcolon : t.step ':' = .ok u) (hu : u.isBetween = true) (hvalue : u.Leads value v) :
    s.Leads (entry layout key value) v :=
  (hkey.trans (leads_colon ht hcolon hu layout)).trans hvalue

/-- An object is read by what stands between its brackets. -/
theorem leads_object {level : Nat} {s t u v : State} {es : List (List Char)} (hes : es ≠ [])
    (hs : s.isBetween = true) (hopening : s.step '\x7b' = .ok t)
    (hmembers : t.Leads (members layout (level + 1) es) u) (hu : u.isBetween = true)
    (hclosing : u.step '\x7d' = .ok v) : s.Leads (object layout level es) v := by
  obtain ⟨e, es, rfl⟩ := List.exists_cons_of_ne_nil hes
  have hend : u.Leads ['\x7d'] v := .single (finish_of_isBetween hu) hclosing
  exact .cons (finish_of_isBetween hs) hopening
    ((hmembers.trans (leads_newline hu layout level)).trans hend)

/-- A text under a name is written into the table. -/
theorem leads_entry_quote {s : State} {place : Place} {t : Table String}
    (hs : s.isBetween = true) (hname : s.step '"' = .ok (text (.name place t) {}))
    (key value : String) :
    s.Leads (entry layout key (quote value.toList)) (afterEntry place (t.insert key value)) := by
  have hkey : s.Leads (quote key.toList) (entryColon place t key) :=
    leads_quote hs hname (by rw [endText, String.ofList_toList])
  have hvalue : (entryValue place t key).Leads (quote value.toList)
      (afterEntry place (t.insert key value)) :=
    leads_quote rfl rfl (by rw [endText, String.ofList_toList])
  exact leads_entry layout hkey rfl rfl rfl hvalue

/-- The entries of an object are written into the table one after the other. -/
theorem leads_members (level : Nat) {s : State} {place : Place} {t : Table String}
    (hs : s.isBetween = true) (hname : s.step '"' = .ok (text (.name place t) {}))
    {es : List (String × String)} (hes : es ≠ []) :
    s.Leads (members layout level (es.map fun e => entry layout e.1 (quote e.2.toList)))
      (afterEntry place (es.foldl (fun t e => t.insert e.1 e.2) t)) := by
  induction es generalizing s t with
  | nil => exact absurd rfl hes
  | cons e es ih =>
    have hfirst := (leads_newline hs layout level).trans
      (leads_entry_quote layout hs hname e.1 e.2)
    cases es with
    | nil => exact hfirst
    | cons e' es =>
      have hcomma : (afterEntry place (t.insert e.1 e.2)).Leads [',']
          (nextEntry place (t.insert e.1 e.2)) := .single rfl rfl
      have hrest := ih (s := nextEntry place (t.insert e.1 e.2)) rfl rfl (List.cons_ne_nil e' es)
      exact hfirst.trans (hcomma.trans hrest)

/-- A table is read as it was written. -/
theorem leads_table (level : Nat) (place : Place) (t : Table String) :
    (table place).Leads (Json.table layout level t) (endTable place t) := by
  by_cases hes : t.entries = []
  · obtain ⟨es, hsorted⟩ := t
    subst hes
    exact .cons rfl rfl (.single rfl rfl)
  · have hmembers := leads_members layout (level + 1) (s := firstEntry place) rfl rfl hes
    rw [← Table.ofList, Table.ofList_entries] at hmembers
    exact leads_object layout (by simpa using hes) rfl rfl hmembers rfl rfl

end

/-- **The text of a report leads to the end of that report**, and to no end before. -/
theorem leads_renderChars (layout : Layout) (r : Report) :
    start.Leads (renderChars layout r) (finished r.patterns) := by
  have hkey : firstField.Leads (quote "patterns".toList) (fieldColon none true) :=
    leads_quote rfl rfl rfl
  have hentry : firstField.Leads
      (entry layout "patterns" (Json.table layout 1 r.patterns)) (afterField (some r.patterns)) :=
    leads_entry layout hkey rfl rfl rfl (leads_table layout 1 .object r.patterns)
  exact leads_object layout (List.cons_ne_nil _ []) rfl rfl
    ((leads_newline rfl layout 1).trans hentry) rfl rfl

end State

/-! ## The report -/

/-- **JSON loses nothing.** Read back, the JSON of a report is that report, on a single line or
laid out, and with the line break that the program prints behind it. -/
theorem read_format_json (r : Report) (compact : Bool) :
    read (r.format .json compact) = .ok r ∧
      read (r.format .json compact ++ "\n") = .ok r := by
  have hleads := State.leads_renderChars (if compact then .compact else .pretty) r
  constructor
  · rw [read, Report.format, render, String.toList_ofList]
    exact hleads.run_eq_finish
  · rw [read, Report.format, render, String.toList_append, String.toList_ofList]
    exact hleads.run_append ['\n']

/-! ## A report that is cut off -/

/-- **A report that is cut off is found out.** Whatever is missing at the end of the JSON of a
report, on a single line or laid out, be it only the last bracket, the rest is refused because it
ends too early, and for no other reason. -/
theorem read_of_cut (r : Report) (compact : Bool) {front back : String}
    (hcut : front ++ back = r.format .json compact) (hback : back ≠ "") :
    read front = .error .truncated := by
  have hleads := State.leads_renderChars (if compact then .compact else .pretty) r
  have hchars : front.toList ++ back.toList =
      renderChars (if compact then .compact else .pretty) r := by
    rw [← String.toList_append, hcut, Report.format, render, String.toList_ofList]
  refine hleads.run_of_prefix ⟨back.toList, hchars⟩ fun hall => hback ?_
  rw [← hall, List.append_right_eq_self] at hchars
  exact String.toList_eq_nil_iff.1 hchars

/-- The name is a control character, and the cut is inside its escape. -/
theorem read_of_cut_escape :
    let r : Report := ⟨.ofList [("\x1f", "a+")]⟩
    let front := "\x7b\"patterns\":\x7b\"\\u00"
    let back := "1f\":\"a+\"\x7d\x7d"
    front ++ back = r.format .json true ∧ back ≠ "" ∧ read front = .error .truncated := by
  have hcut : "\x7b\"patterns\":\x7b\"\\u00" ++ "1f\":\"a+\"\x7d\x7d" =
      Report.format .json true ⟨.ofList [("\x1f", "a+")]⟩ := by decide
  have hback : "1f\":\"a+\"\x7d\x7d" ≠ "" := by decide
  exact ⟨hcut, hback, read_of_cut _ true hcut hback⟩

end Report.Json

end PatternHarvest
