import PatternHarvest.Proofs.JsonRoundTrip
import PatternHarvest.Proofs.Recordings
import PatternHarvest.Proofs.YamlDocuments

/-!
# The document of a history

What is printed of a context depends on the patterns that its names have in the end, and on nothing
else in its history (`Report.format_ofContext_canonical`). Two histories after which every name has
the same pattern give the same text in each format; and the entries of the text are the names that
have a pattern, each with its pattern in normal form, once and in increasing order.

The entries of a text are said of the text and not of the table it was printed from: any list of
entries, in whatever order and with whatever repetitions, has a text (`Report.formatEntries`), and
no two lists have the same one (`Report.formatEntries_inj`). For YAML this is how different
documents were told apart. For JSON it comes from reading: the reader takes a quoted text off
whatever stands behind it (`TextState.readOff_quoted`), so entries can be compared from the front.
-/

namespace PatternHarvest

namespace Json

/-! ## Quoted texts with something behind them -/

/-- Read a text up to its closing quote: its characters, and what stands behind the quote. -/
def TextState.readOff (s : TextState) : List Char → Option (List Char × List Char)
  | [] => none
  | c :: cs =>
    match s.step true c with
    | .more s => s.readOff cs
    | .done text => some (text, cs)
    | .refused => none

end Json

namespace Report.Json

open PatternHarvest.Json

/-- Where the reader of reports goes on with a text, so does the reader of texts. -/
theorem State.Leads.readOff_eq {s t : TextState} {cs : List Char}
    (h : (text .misplaced s).Leads cs (text .misplaced t)) (x : List Char) :
    s.readOff (cs ++ x) = t.readOff x := by
  generalize hs : text .misplaced s = u at h
  generalize ht : text .misplaced t = v at h
  induction h generalizing s with
  | nil =>
    subst hs
    cases ht
    rfl
  | @cons u v w c cs _ hstep _ ih =>
    subst hs
    rw [List.cons_append, TextState.readOff]
    rw [step] at hstep
    cases hnext : s.step true c with
    | more s' =>
      rw [hnext] at hstep
      exact ih (Except.ok.inj hstep) ht
    | done chars =>
      rw [hnext] at hstep
      cases hstep
    | refused =>
      rw [hnext] at hstep
      cases hstep

/-- What is read off a quoted text are its characters, whatever stands behind it. -/
theorem readOff_quoted (s x : List Char) :
    ({} : TextState).readOff (s.flatMap escape ++ '"' :: x) = some (s, x) := by
  rw [(State.leads_flatMap_escape .misplaced [] s).readOff_eq]
  simp [TextState.readOff, TextState.step]

theorem quote_append_inj {s u x y : List Char} (h : quote s ++ x = quote u ++ y) :
    s = u ∧ x = y := by
  simp only [quote, List.cons_append, List.append_assoc, List.nil_append, List.cons.injEq,
    true_and] at h
  have hread := congrArg ({} : TextState).readOff h
  rw [readOff_quoted, readOff_quoted] at hread
  simpa using hread

/-! ## Entries of a JSON document -/

variable {layout : Layout}

/-- A name and its text as an entry of an object. -/
def entryOf (layout : Layout) (e : String × String) : List Char :=
  entry layout e.1 (quote e.2.toList)

/-- The JSON of some entries, in their order, whether or not they are those of a table. -/
def renderEntries (layout : Layout) (es : List (String × String)) : List Char :=
  object layout 0 [entry layout "patterns" (object layout 1 (es.map (entryOf layout)))]

theorem renderChars_eq_renderEntries (layout : Layout) (r : Report) :
    renderChars layout r = renderEntries layout r.patterns.entries := rfl

theorem entryOf_append_inj {e d : String × String} {x y : List Char}
    (h : entryOf layout e ++ x = entryOf layout d ++ y) : e = d ∧ x = y := by
  simp only [entryOf, entry, List.append_assoc] at h
  obtain ⟨hname, hrest⟩ := quote_append_inj h
  obtain ⟨htext, hxy⟩ := quote_append_inj (List.append_cancel_left hrest)
  exact ⟨Prod.ext (String.toList_inj.1 hname) (String.toList_inj.1 htext), hxy⟩

/-- What stands between an entry and the end of its object. -/
def membersBehind (layout : Layout) (level : Nat) (es : List (List Char)) : List Char :=
  match es with
  | [] => []
  | es => ',' :: members layout level es

theorem members_cons (layout : Layout) (level : Nat) (e : List Char) (es : List (List Char)) :
    members layout level (e :: es) =
      layout.newline level ++ e ++ membersBehind layout level es := by
  cases es with
  | nil => simp [members, membersBehind]
  | cons d ds => simp [members, membersBehind]

/-- The entries of an object can be told apart, if no further one follows them. -/
theorem membersBehind_inj {level : Nat} {es ds : List (String × String)} {x : List Char}
    (hx : x.head? ≠ some ',')
    (h : membersBehind layout level (es.map (entryOf layout)) ++ x =
      membersBehind layout level (ds.map (entryOf layout)) ++ x) : es = ds := by
  induction es generalizing ds with
  | nil =>
    cases ds with
    | nil => rfl
    | cons d ds =>
      have hcomma : x.head? = some ',' := congrArg List.head? h
      exact absurd hcomma hx
  | cons e es ih =>
    cases ds with
    | nil =>
      have hcomma : x.head? = some ',' := congrArg List.head? h.symm
      exact absurd hcomma hx
    | cons d ds =>
      simp only [List.map_cons, membersBehind, members_cons, List.cons_append, List.append_assoc,
        List.cons.injEq, true_and, List.append_cancel_left_eq] at h
      obtain ⟨rfl, hrest⟩ := entryOf_append_inj h
      rw [ih hrest]

theorem object_nil_ne (level : Nat) (e : String × String) (es : List (String × String)) :
    object layout level [] ≠ object layout level ((e :: es).map (entryOf layout)) := by
  intro h
  have hsecond := congrArg (fun s : List Char => s.tail.head?) h
  cases layout <;>
    simp [object, members_cons, Layout.newline, entryOf, entry, quote] at hsecond

/-- Objects are told apart by their entries. -/
theorem object_inj {level : Nat} {es ds : List (String × String)}
    (h : object layout level (es.map (entryOf layout)) =
      object layout level (ds.map (entryOf layout))) : es = ds := by
  cases es with
  | nil =>
    cases ds with
    | nil => rfl
    | cons d ds => exact absurd h (object_nil_ne level d ds)
  | cons e es =>
    cases ds with
    | nil => exact absurd h.symm (object_nil_ne level e es)
    | cons d ds =>
      have hend : (layout.newline level ++ ['\x7d']).head? ≠ some ',' := by
        cases layout <;> simp [Layout.newline]
      simp only [List.map_cons, object, members_cons, List.append_assoc, List.cons.injEq,
        List.append_cancel_left_eq, true_and] at h
      obtain ⟨rfl, hrest⟩ := entryOf_append_inj h
      rw [membersBehind_inj hend hrest]

theorem renderEntries_inj {es ds : List (String × String)}
    (h : renderEntries layout es = renderEntries layout ds) : es = ds := by
  have hsplit (es : List (String × String)) : renderEntries layout es =
      '\x7b' :: (layout.newline 1 ++ (quote "patterns".toList ++ layout.colon ++
        object layout 1 (es.map (entryOf layout))) ++ layout.newline 0 ++ ['\x7d']) := rfl
  rw [hsplit, hsplit] at h
  simp only [List.cons.injEq, true_and, List.append_cancel_right_eq,
    List.append_cancel_left_eq] at h
  exact object_inj h

end Report.Json

namespace Report

/-! ## Entries of a document -/

/-- The YAML of some entries, in their order, whether or not they are those of a table. -/
def Yaml.renderEntries (es : List (String × String)) : List Char :=
  if es = [] then "patterns: \x7b\x7d\n".toList else "patterns:\n".toList ++ Yaml.body es

theorem Yaml.renderEntries_inj {es ds : List (String × String)}
    (h : renderEntries es = renderEntries ds) : es = ds := by
  unfold renderEntries at h
  by_cases hes : es = [] <;> by_cases hds : ds = []
  · rw [hes, hds]
  · rw [if_pos hes, if_neg hds] at h
    simp at h
  · rw [if_neg hes, if_pos hds] at h
    simp at h
  · rw [if_neg hes, if_neg hds] at h
    exact body_inj (List.append_cancel_left h)

/-- The text of some entries in a format: what would be printed of a table that listed them like
this. -/
def formatEntries (format : Format) (compact : Bool) (es : List (String × String)) : String :=
  match format with
  | .json => String.ofList (Json.renderEntries (if compact then .compact else .pretty) es)
  | .yaml => String.ofList (Yaml.renderEntries es)

theorem format_eq_formatEntries (r : Report) (format : Format) (compact : Bool) :
    r.format format compact = formatEntries format compact r.patterns.entries := by
  cases format with
  | json => exact congrArg String.ofList (Json.renderChars_eq_renderEntries _ r)
  | yaml => exact congrArg String.ofList (Yaml.renderChars_eq r)

/-- A text has one list of entries at most. -/
theorem formatEntries_inj {format : Format} {compact : Bool} {es ds : List (String × String)}
    (h : formatEntries format compact es = formatEntries format compact ds) : es = ds := by
  cases format with
  | json => exact Json.renderEntries_inj (String.ofList_injective h)
  | yaml => exact Yaml.renderEntries_inj (String.ofList_injective h)

/-! ## The report of a context -/

theorem find?_ofContext (c : Context) (name : String) :
    (ofContext c).patterns.find? name = (c.pattern? name).map Normal.normalize :=
  c.patterns.find?_map Normal.normalize name

/-- Contexts in which every name has the same pattern have the same report. -/
theorem ofContext_congr {c c' : Context} (h : ∀ name, c.pattern? name = c'.pattern? name) :
    ofContext c = ofContext c' := by
  have hpatterns : (ofContext c).patterns = (ofContext c').patterns :=
    Table.ext_find? fun name => by rw [find?_ofContext, find?_ofContext, h name]
  exact congrArg Report.mk hpatterns

/-- The names of a report are those that have a pattern. -/
theorem mem_keys_ofContext_iff {c : Context} {name : String} :
    name ∈ (ofContext c).patterns.keys ↔ name ∈ c.patterns.keys := by
  rw [Table.mem_keys_iff, Table.mem_keys_iff, find?_ofContext, Option.isSome_map]
  rfl

/-- **The document depends on the patterns alone.** Two histories of recordings after which every
name has the same pattern, or none, are printed as the same text in every format. The entries of that
text, of which it has one list and no other, are the names with a pattern and their patterns in
normal form. Their names increase, so each stands there once; a name that is a constant or
unresolved does not. -/
theorem format_ofContext_canonical :
    (∀ rs rs' : List Recording,
      (∀ name, (Context.empty.performAll rs).pattern? name =
        (Context.empty.performAll rs').pattern? name) →
      ∀ format compact,
        (ofContext (Context.empty.performAll rs)).format format compact =
          (ofContext (Context.empty.performAll rs')).format format compact) ∧
    (∀ (rs : List Recording) (format : Format) (compact : Bool),
      ∃ es : List (String × String),
        (∀ ds, (ofContext (Context.empty.performAll rs)).format format compact =
          formatEntries format compact ds ↔ ds = es) ∧
        (∀ name text, (name, text) ∈ es ↔
          ∃ pattern, (Context.empty.performAll rs).pattern? name = some pattern ∧
            text = Normal.normalize pattern) ∧
        (es.map Prod.fst).Pairwise (· < ·) ∧
        (∀ name, (es.map Prod.fst).count name =
          if ((Context.empty.performAll rs).pattern? name).isSome then 1 else 0) ∧
        (∀ name, ((Context.empty.performAll rs).constant? name).isSome ∨
          (Context.empty.performAll rs).isUnresolved name = true → name ∉ es.map Prod.fst)) := by
  refine ⟨?_, ?_⟩
  · intro rs rs' hpattern format compact
    rw [ofContext_congr hpattern]
  · intro rs format compact
    have hdisjoint := (Context.represents_performAll_empty rs).disjoint_keys
    generalize Context.empty.performAll rs = c at hdisjoint ⊢
    have hkeys (name : String) :
        name ∈ (ofContext c).patterns.keys ↔ (c.pattern? name).isSome = true :=
      mem_keys_ofContext_iff.trans Table.mem_keys_iff
    refine ⟨(ofContext c).patterns.entries, fun ds => ?_, fun name text => ?_,
      List.pairwise_map.2 (ofContext c).patterns.sorted, fun name => ?_, fun name hname hmem => ?_⟩
    · rw [format_eq_formatEntries]
      exact ⟨fun h => (formatEntries_inj h).symm, fun h => by rw [h]⟩
    · rw [← Table.find?_eq_some_iff_mem, find?_ofContext, Option.map_eq_some_iff]
      exact exists_congr fun pattern => and_congr_right fun _ => eq_comm
    · rw [← Table.keys, (ofContext c).patterns.nodup_keys.count]
      simp only [hkeys]
    · have hpattern : name ∈ c.patterns.keys := mem_keys_ofContext_iff.1 hmem
      rcases hname with hconstant | hunresolved
      · exact hdisjoint.1 (Table.mem_keys_iff.2 hconstant) hpattern
      · exact hdisjoint.2.2 hpattern (Table.mem_keys_iff.2 hunresolved)

/-- A name that was unresolved before it had a pattern, and one that had another pattern before: with
or without a constant beside them, the same document. -/
theorem format_ofContext_canonical_histories :
    let rs : List Recording :=
      [⟨"q", .constant "x"⟩, ⟨"p", .unresolved⟩, ⟨"p", .pattern "a+"⟩]
    let rs' : List Recording := [⟨"p", .pattern "b"⟩, ⟨"p", .pattern "a+"⟩]
    (∀ name, (Context.empty.performAll rs).pattern? name =
      (Context.empty.performAll rs').pattern? name) ∧
    (ofContext (Context.empty.performAll rs)).format .yaml false =
      (ofContext (Context.empty.performAll rs')).format .yaml false := by
  intro rs rs'
  have hpattern (name : String) : (Context.empty.performAll rs).pattern? name =
      (Context.empty.performAll rs').pattern? name := by
    simp only [rs, rs', Context.performAll, List.foldl_cons, List.foldl_nil, Context.perform,
      Context.pattern?_recordPattern, Context.pattern?_recordUnresolved,
      Context.pattern?_recordConstant]
    split
    · rfl
    · split <;> rfl
  exact ⟨hpattern, format_ofContext_canonical.1 rs rs' hpattern .yaml false⟩

end Report

end PatternHarvest
