import PatternHarvest.CommandLine.Arguments
import PatternHarvest.Proofs.Results

/-!
# Flags for the log

The flags that say how much is logged have no influence on the other settings: a command line can
do without them (`Arguments.parse_unlogged`).

The command line and what is left of it without these flags are read side by side. What has been
taken in then agrees up to how much is logged, and the shorter line is never the one that is refused:
its flags are among those of the longer one (`Given.Quieter`). The one thing that can differ for a
while is what is pending, since a flag has the longer line take it in, while the shorter line still
waits for its next argument (`ReadState.Behind`).
-/

namespace PatternHarvest.CommandLine

/-! ## What is taken in -/

namespace Given

/-- What has been taken in, with another word on how much is logged. -/
def logging (g : Given) (verbose : Nat) (quiet : Bool) : Given :=
  { g with verbose, quiet }

/-- What has been taken in agrees, and if logging is off for the first, then for the second. -/
def Quieter (g' g : Given) : Prop :=
  ∃ verbose quiet, g' = g.logging verbose quiet ∧ (quiet = true → g.quiet = true)

theorem Quieter.refl (g : Given) : g.Quieter g :=
  ⟨g.verbose, g.quiet, rfl, id⟩

theorem Quieter.trans {g'' g' g : Given} (h' : g''.Quieter g') (h : g'.Quieter g) :
    g''.Quieter g := by
  obtain ⟨verbose, quiet, rfl, hquiet⟩ := h
  obtain ⟨verbose', quiet', rfl, hquiet'⟩ := h'
  exact ⟨verbose', quiet', rfl, fun h => hquiet (hquiet' h)⟩

theorem takeValue_logging (g : Given) (verbose : Nat) (quiet : Bool) (what : Valued)
    (value : String) : (g.logging verbose quiet).takeValue what value =
      (g.takeValue what value).map fun g => g.logging verbose quiet := by
  cases what with
  | outputFile =>
    by_cases hsome : g.outputFile.isSome = true
    · simp [takeValue, logging, hsome, Except.map]
    · by_cases hempty : value = "" <;> simp [takeValue, logging, hsome, hempty, Except.map]
  | format =>
    by_cases hsome : g.format.isSome = true
    · simp [takeValue, logging, hsome, Except.map]
    · cases hformat : Format.ofName? value <;>
        simp [takeValue, logging, hsome, hformat, Except.map]
  | root =>
    by_cases hempty : value = "" <;> simp [takeValue, logging, hempty, Except.map]

theorem quiet_of_takeValue {g r : Given} {what : Valued} {value : String}
    (h : g.takeValue what value = .ok r) : r.quiet = g.quiet := by
  have hsame : g.takeValue what value =
      (g.takeValue what value).map fun r => r.logging g.verbose g.quiet :=
    takeValue_logging g g.verbose g.quiet what value
  rw [h] at hsame
  have hr : r = r.logging g.verbose g.quiet := Except.ok.inj hsame
  rw [hr]
  rfl

theorem follows_takeValue (what : Valued) (value : String) :
    Follows Quieter Quieter fun g : Given => g.takeValue what value := by
  rintro g' g r ⟨verbose, quiet, rfl, hquiet⟩ hr
  refine ⟨r.logging verbose quiet, ?_, verbose, quiet, rfl, fun h => ?_⟩
  · show (g.logging verbose quiet).takeValue what value = .ok (r.logging verbose quiet)
    have hr : g.takeValue what value = .ok r := hr
    rw [takeValue_logging, hr]
    rfl
  · exact (quiet_of_takeValue hr).trans (hquiet h)

theorem follows_takeFlag (f : Flag) :
    Follows Quieter Quieter fun g : Given => g.takeFlag f := by
  rintro g' g r ⟨verbose, quiet, rfl, hquiet⟩ hr
  cases f with
  | compact =>
    simp only [takeFlag] at hr ⊢
    split at hr
    next => cases hr
    next hcompact =>
      cases hr
      exact ⟨_, if_neg hcompact, verbose, quiet, rfl, hquiet⟩
  | verbose =>
    cases hr
    exact ⟨_, rfl, min (verbose + 1) verboseLimit, quiet, rfl, hquiet⟩
  | quiet =>
    simp only [takeFlag] at hr ⊢
    split at hr
    next => cases hr
    next hloud =>
      cases hr
      have hloud' : ¬(g.logging verbose quiet).quiet = true := fun h => hloud (hquiet h)
      exact ⟨_, if_neg hloud', verbose, true, rfl, fun _ => rfl⟩
  | help => cases hr

theorem quieter_of_takeFlag {g r : Given} {f : Flag} (hf : f ≠ .compact)
    (h : g.takeFlag f = .ok r) : g.Quieter r := by
  cases f with
  | compact => exact absurd rfl hf
  | verbose =>
    cases h
    exact ⟨g.verbose, g.quiet, rfl, id⟩
  | quiet =>
    simp only [takeFlag] at h
    split at h
    next => cases h
    next =>
      cases h
      exact ⟨g.verbose, g.quiet, rfl, fun _ => rfl⟩
  | help => cases h

end Given

/-! ## What is read -/

namespace ReadState

/-- Two states agree up to how much is logged, as `Given.Quieter` says it, and `met` tells whether
the mark was met. -/
structure Quieter (met : Bool) (s' s : ReadState) : Prop where
  given : s'.given.Quieter s.given
  pending : s'.pending = s.pending
  rootMet : s'.rootMet = s.rootMet
  verbatim_left : s'.verbatim = met
  verbatim : s.verbatim = met

variable {met : Bool}

theorem Quieter.trans {s'' s' s : ReadState} (h' : Quieter met s'' s') (h : Quieter met s' s) :
    Quieter met s'' s :=
  ⟨h'.given.trans h.given, h'.pending.trans h.pending, h'.rootMet.trans h.rootMet, h'.verbatim_left,
    h.verbatim⟩

/-- Only what has been taken in can differ between states that agree. -/
theorem follows_of_given {met' : Bool} {f : ReadState → Except ArgumentError ReadState}
    (hf : ∀ pending rootMet, Follows Given.Quieter (Quieter met') fun given =>
      f ⟨given, pending, met, rootMet⟩) :
    Follows (Quieter met) (Quieter met') f := by
  rintro ⟨g', _, _, _⟩ ⟨g, pending, _, rootMet⟩ r ⟨hg, rfl, rfl, rfl, hmet⟩ hr
  cases hmet
  exact hf _ _ hg hr

theorem follows_at {f : ReadState → Except ArgumentError ReadState}
    (hf : Follows (Quieter met) (Quieter met) f) (pending : Option Pending) (rootMet : Bool) :
    Follows Given.Quieter (Quieter met) fun given => f ⟨given, pending, met, rootMet⟩ := by
  intro g' g r hg
  exact hf ⟨hg, rfl, rfl, rfl, rfl⟩

theorem follows_state (pending : Option Pending) (met rootMet : Bool) :
    Follows Given.Quieter (Quieter met) fun given =>
      (pure ⟨given, pending, met, rootMet⟩ : Except ArgumentError ReadState) :=
  follows_pure fun _ _ hg => ⟨hg, rfl, rfl, rfl, rfl⟩

theorem follows_settle : Follows (Quieter met) (Quieter met) settle := by
  refine follows_of_given fun pending rootMet => ?_
  match pending with
  | none => exact follows_state none met rootMet
  | some ⟨what, none⟩ => exact follows_error _
  | some ⟨what, some value⟩ =>
    exact (Given.follows_takeValue what value).bind (follows_state none met rootMet)

theorem follows_flag (f : Flag) : Follows (Quieter met) (Quieter met) fun s => s.flag f := by
  refine follows_settle.bind (follows_of_given fun pending rootMet => ?_)
  exact (Given.follows_takeFlag f).bind (follows_state pending met rootMet)

theorem follows_option (what : Valued) (value : Option String) :
    Follows (Quieter met) (Quieter met) fun s => s.option what value := by
  refine follows_settle.bind (follows_of_given fun pending rootMet => ?_)
  cases value with
  | some value =>
    exact (Given.follows_takeValue what value).bind (follows_state pending met rootMet)
  | none => exact follows_state (some ⟨what, none⟩) met rootMet

theorem follows_root (argument : String) :
    Follows (Quieter met) (Quieter met) fun s => s.root argument := by
  refine follows_of_given fun pending rootMet => ?_
  cases rootMet with
  | true => exact follows_error _
  | false =>
    have hroot : Follows (Quieter met) (Quieter met) fun s => s.settle >>= fun s =>
        pure { s with pending := some ⟨.root, some argument⟩, rootMet := true } :=
      follows_settle.bind (follows_of_given fun _ _ => follows_state _ met true)
    exact follows_at hroot pending false

theorem follows_long (body : List Char) :
    Follows (Quieter met) (Quieter met) fun s => s.long body := by
  unfold long
  dsimp only
  cases Valued.ofLong? (String.ofList (body.takeWhile (· ≠ '='))) with
  | some what => exact follows_option what _
  | none =>
    cases Flag.ofLong? (String.ofList (body.takeWhile (· ≠ '='))) with
    | none => exact follows_error _
    | some f =>
      cases body.dropWhile (· ≠ '=') with
      | nil => exact follows_flag f
      | cons c value => exact follows_error _

theorem letters_of_flag {s : ReadState} {c : Char} {f : Flag} (hvalued : Valued.ofShort? c = none)
    (hflag : Flag.ofShort? c = some f) (rest : List Char) :
    s.letters (c :: rest) = s.flag f >>= fun s => s.letters rest := by
  simp only [letters, hvalued, hflag]
  cases s.flag f <;> rfl

theorem follows_letters (letters : List Char) :
    Follows (Quieter met) (Quieter met) fun s => s.letters letters := by
  induction letters with
  | nil => exact follows_pure fun s' s hs => hs
  | cons c rest ih =>
    cases hvalued : Valued.ofShort? c with
    | some what =>
      simp only [letters, hvalued]
      exact follows_option what _
    | none =>
      cases hflag : Flag.ofShort? c with
      | none =>
        simp only [letters, hvalued, hflag]
        exact follows_error _
      | some f =>
        simp only [letters_of_flag hvalued hflag]
        exact (follows_flag f).bind ih

theorem follows_word (argument : String) :
    Follows (Quieter met) (Quieter met) fun s => s.word argument := by
  refine follows_of_given fun pending rootMet => ?_
  match pending with
  | none => exact follows_at (follows_root argument) none rootMet
  | some ⟨what, some value⟩ =>
    exact follows_at (follows_root argument) (some ⟨what, some value⟩) rootMet
  | some ⟨what, none⟩ => exact follows_state (some ⟨what, some argument⟩) met rootMet

theorem follows_read (argument : String) :
    Follows (Quieter met) (Quieter (met || argument = "--")) fun s => s.read argument := by
  cases met with
  | true => exact follows_of_given fun pending rootMet => follows_at (follows_root argument) _ _
  | false =>
    have hmark (h : argument ≠ "--") : (false || decide (argument = "--")) = false := by
      simp [h]
    refine follows_of_given fun pending rootMet => ?_
    simp only [read, Bool.false_eq_true, if_false]
    split
    next htoList =>
      have hargument : argument = "--" := String.toList_inj.1 htoList
      subst hargument
      exact follows_state pending true rootMet
    next body hbody htoList =>
      rw [hmark]
      · exact follows_at (follows_long body) pending rootMet
      · rintro rfl
        exact hbody (List.cons.inj (List.cons.inj htoList).2).2.symm
    next c rest _ hdash htoList =>
      rw [hmark]
      · exact follows_at (follows_letters (c :: rest)) pending rootMet
      · rintro rfl
        exact hdash (List.cons.inj (List.cons.inj htoList).2).1.symm
    next hword _ _ =>
      rw [hmark]
      · exact follows_at (follows_word argument) pending rootMet
      · rintro rfl
        exact hword rfl

/-! ## What is pending -/

variable {s t : ReadState}

theorem settle_of_pending (h : s.pending = none) : s.settle = .ok s := by
  rw [settle, h]

theorem settle_eq_ok (h : s.settle = .ok t) :
    t.pending = none ∧ t.verbatim = s.verbatim ∧ t.rootMet = s.rootMet := by
  obtain ⟨given, pending, verbatim, rootMet⟩ := s
  match pending with
  | none =>
    cases h
    exact ⟨rfl, rfl, rfl⟩
  | some ⟨what, none⟩ => cases h
  | some ⟨what, some value⟩ =>
    obtain ⟨given', -, h⟩ := bind_eq_ok_iff.1 h
    cases h
    exact ⟨rfl, rfl, rfl⟩

theorem settle_verbatim (s : ReadState) (verbatim : Bool) :
    { s with verbatim }.settle = s.settle.map fun t => { t with verbatim } := by
  obtain ⟨given, pending, _, rootMet⟩ := s
  match pending with
  | none => rfl
  | some ⟨what, none⟩ => rfl
  | some ⟨what, some value⟩ =>
    simp only [settle, Bind.bind, Except.bind]
    cases given.takeValue what value <;> rfl

section

variable (h : s.settle = .ok t)
include h

theorem settle_of_settle : t.settle = .ok t :=
  settle_of_pending (settle_eq_ok h).1

theorem flag_of_settle (f : Flag) : s.flag f = t.flag f := by
  rw [flag, flag, h, settle_of_settle h]

theorem option_of_settle (what : Valued) (value : Option String) :
    s.option what value = t.option what value := by
  rw [option, option, h, settle_of_settle h]

theorem root_of_settle (argument : String) : s.root argument = t.root argument := by
  rw [root, root, h, settle_of_settle h, (settle_eq_ok h).2.2]

theorem long_of_settle (body : List Char) : s.long body = t.long body := by
  simp only [long, flag_of_settle h, option_of_settle h]

theorem letters_of_settle (c : Char) (rest : List Char) :
    s.letters (c :: rest) = t.letters (c :: rest) := by
  simp only [letters, flag_of_settle h, option_of_settle h]

theorem word_of_settle (argument : String) : s.word argument = t.word argument := by
  obtain ⟨hpending, -, -⟩ := settle_eq_ok h
  match hs : s.pending with
  | none =>
    rw [settle_of_pending hs] at h
    cases h
    rfl
  | some ⟨what, none⟩ =>
    rw [settle, hs] at h
    cases h
  | some ⟨what, some value⟩ =>
    rw [word, word, hs, hpending]
    exact root_of_settle h argument

/-- Whether what is pending is taken in before the next argument or with it does not matter, unless
that argument is the mark, behind which it is still pending. -/
theorem read_of_settle (argument : String) : s.read argument = t.read argument ∨
    ∃ r, s.read argument = .ok r ∧ r.settle = t.read argument := by
  obtain ⟨-, hverbatim, -⟩ := settle_eq_ok h
  unfold read
  rw [hverbatim]
  split
  next => exact .inl (root_of_settle h argument)
  next =>
    split
    next =>
      refine .inr ⟨_, rfl, ?_⟩
      rw [settle_verbatim, h]
      rfl
    next body _ _ => exact .inl (long_of_settle h body)
    next c rest _ _ _ => exact .inl (letters_of_settle h c rest)
    next => exact .inl (word_of_settle h argument)

end

/-- What the shorter line has come to agrees with what the longer line has come to, or will do so
once what is pending is taken in. -/
def Behind (met : Bool) (s' s : ReadState) : Prop :=
  Quieter met s' s ∨ ∃ t', s'.settle = .ok t' ∧ Quieter met t' s

theorem behind_read (argument : String) :
    Follows (Behind met) (Behind (met || argument = "--")) fun s => s.read argument := by
  rintro s' s r (hs | ⟨t', hsettle, hs⟩) hr
  · obtain ⟨r', hr', hrr⟩ := follows_read argument hs hr
    exact ⟨r', hr', .inl hrr⟩
  · obtain ⟨r', hr', hrr⟩ := follows_read argument hs hr
    rcases read_of_settle hsettle argument with heq | ⟨u, hu, hsettle'⟩
    · exact ⟨r', heq.trans hr', .inl hrr⟩
    · exact ⟨u, hu, .inr ⟨r', hsettle'.trans hr', hrr⟩⟩

theorem behind_foldlM (argv : List String) :
    Follows (Behind met) (fun s' s => ∃ met', Behind met' s' s) fun s => argv.foldlM read s := by
  induction argv generalizing met with
  | nil => exact follows_pure fun s' s hs => ⟨met, hs⟩
  | cons argument argv ih => exact (behind_read argument).bind ih

/-- Once everything is taken in, nothing is behind any more. -/
theorem behind_settle : Follows (Behind met) (Quieter met) settle := by
  rintro s' s r (hs | ⟨t', hsettle, hs⟩) hr
  · exact follows_settle hs hr
  · have hpending : s.pending = none := hs.pending.symm.trans (settle_eq_ok hsettle).1
    cases (settle_of_pending hpending).symm.trans hr
    exact ⟨t', hsettle, hs⟩

end ReadState

/-! ## Flags left out -/

/-- Whether a letter says how much is logged. -/
def isLoggingLetter (c : Char) : Bool :=
  c = 'v' || c = 'q'

/-- Whether an argument does nothing but say how much is logged. -/
def isLoggingFlag (argument : String) : Bool :=
  argument = "--verbose" || argument = "--quiet" ||
    match argument.toList with
    | '-' :: c :: letters => (c :: letters).all isLoggingLetter
    | _ => false

/-- A command line without the arguments that say how much is logged. Behind the mark every argument
stands for itself. -/
def unlogged : List String → List String
  | [] => []
  | argument :: argv =>
    if argument = "--" then argument :: argv
    else if isLoggingFlag argument then unlogged argv
    else argument :: unlogged argv

theorem flag_of_isLoggingLetter {c : Char} (hc : isLoggingLetter c = true) :
    ∃ f : Flag, f ≠ .compact ∧ Valued.ofShort? c = none ∧ Flag.ofShort? c = some f := by
  simp only [isLoggingLetter, Bool.or_eq_true, decide_eq_true_eq] at hc
  rcases hc with rfl | rfl
  · exact ⟨.verbose, by decide, rfl, rfl⟩
  · exact ⟨.quiet, by decide, rfl, rfl⟩

namespace ReadState

variable {s' s r : ReadState}

theorem exists_settle_of_flag {f : Flag} (hf : f ≠ .compact) (hr : s.flag f = .ok r) :
    ∃ t, s.settle = .ok t ∧ Quieter s.verbatim t r := by
  obtain ⟨t, ht, hr⟩ := bind_eq_ok_iff.1 hr
  obtain ⟨given, htake, hr⟩ := bind_eq_ok_iff.1 hr
  cases hr
  have hverbatim := (settle_eq_ok ht).2.1
  exact ⟨t, ht, Given.quieter_of_takeFlag hf htake, rfl, rfl, hverbatim, hverbatim⟩

theorem exists_letters_of_letters {c : Char} {rest : List Char} (hc : isLoggingLetter c = true)
    (hr : s.letters (c :: rest) = .ok r) : ∃ t u, s.settle = .ok t ∧ Quieter s.verbatim t u ∧
      u.pending = none ∧ u.letters rest = .ok r := by
  obtain ⟨f, hf, hvalued, hflag⟩ := flag_of_isLoggingLetter hc
  rw [letters_of_flag hvalued hflag] at hr
  obtain ⟨u, hu, hr⟩ := bind_eq_ok_iff.1 hr
  obtain ⟨t, ht, htu⟩ := exists_settle_of_flag hf hu
  exact ⟨t, u, ht, htu, htu.pending.symm.trans (settle_eq_ok ht).1, hr⟩

theorem quieter_of_letters {letters : List Char} (hletters : letters.all isLoggingLetter = true)
    (hpending : s.pending = none) (hr : s.letters letters = .ok r) : Quieter s.verbatim s r := by
  induction letters generalizing s with
  | nil =>
    cases hr
    exact ⟨.refl _, rfl, rfl, rfl, rfl⟩
  | cons c letters ih =>
    rw [List.all_cons, Bool.and_eq_true] at hletters
    obtain ⟨t, u, ht, htu, hu, hr⟩ := exists_letters_of_letters hletters.1 hr
    cases (settle_of_pending hpending).symm.trans ht
    exact htu.trans (htu.verbatim ▸ ih hletters.2 hu hr)

theorem exists_settle_of_letters {c : Char} {letters : List Char}
    (hletters : (c :: letters).all isLoggingLetter = true) (hr : s.letters (c :: letters) = .ok r) :
    ∃ t, s.settle = .ok t ∧ Quieter s.verbatim t r := by
  rw [List.all_cons, Bool.and_eq_true] at hletters
  obtain ⟨t, u, ht, htu, hu, hr⟩ := exists_letters_of_letters hletters.1 hr
  exact ⟨t, ht, htu.trans (htu.verbatim ▸ quieter_of_letters hletters.2 hu hr)⟩

/-- An argument that says how much is logged has what is pending taken in, and nothing else
happens. -/
theorem exists_settle_of_read {argument : String} (hflag : isLoggingFlag argument = true)
    (hverbatim : s.verbatim = false) (hr : s.read argument = .ok r) :
    ∃ t, s.settle = .ok t ∧ Quieter false t r := by
  simp only [isLoggingFlag, Bool.or_eq_true, decide_eq_true_eq] at hflag
  rw [← hverbatim]
  rcases hflag with (rfl | rfl) | hletters
  · have hread : s.read "--verbose" = s.flag .verbose := by
      simp only [read, hverbatim]
      rfl
    exact exists_settle_of_flag (by decide) (hread ▸ hr)
  · have hread : s.read "--quiet" = s.flag .quiet := by
      simp only [read, hverbatim]
      rfl
    exact exists_settle_of_flag (by decide) (hread ▸ hr)
  · split at hletters
    next c letters hargument =>
      have hc : c ≠ '-' := by
        rintro rfl
        simp [isLoggingLetter] at hletters
      have hread : s.read argument = s.letters (c :: letters) := by
        unfold read
        rw [hverbatim, hargument]
        simp [hc]
      exact exists_settle_of_letters hletters (hread ▸ hr)
    next => cases hletters

theorem Behind.of_read {argument : String} (hflag : isLoggingFlag argument = true)
    (hs : Behind false s' s) (hr : s.read argument = .ok r) : Behind false s' r := by
  have hverbatim : s.verbatim = false := by
    rcases hs with hs | ⟨_, _, hs⟩ <;> exact hs.verbatim
  obtain ⟨t, ht, htr⟩ := exists_settle_of_read hflag hverbatim hr
  obtain ⟨t', ht', htt⟩ := behind_settle hs ht
  exact .inr ⟨t', ht', htt.trans htr⟩

/-- The shorter line is read when the longer one is. -/
theorem behind_unlogged {argv : List String} (hs : Behind false s' s)
    (hr : argv.foldlM read s = .ok r) :
    ∃ r', (unlogged argv).foldlM read s' = .ok r' ∧ ∃ met, Behind met r' r := by
  induction argv generalizing s' s with
  | nil =>
    cases hr
    exact ⟨s', rfl, false, hs⟩
  | cons argument argv ih =>
    obtain ⟨u, hu, hr⟩ := bind_eq_ok_iff.1 hr
    obtain ⟨u', hu', hbehind⟩ := behind_read argument hs hu
    unfold unlogged
    split
    next =>
      obtain ⟨r', hr', hrr⟩ := behind_foldlM argv hbehind hr
      exact ⟨r', bind_eq_ok_iff.2 ⟨u', hu', hr'⟩, hrr⟩
    next hmark =>
      split
      next hflag => exact ih (hs.of_read hflag hu) hr
      next =>
        have hbehind : Behind false u' u := by simpa [hmark] using hbehind
        obtain ⟨r', hr', hrr⟩ := ih hbehind hr
        exact ⟨r', bind_eq_ok_iff.2 ⟨u', hu', hr'⟩, hrr⟩

end ReadState

/-! ## Settings -/

/-- Settings, how much is logged left aside. -/
def Arguments.silent (a : Arguments) : Arguments :=
  { a with verbose := 0, quiet := false }

theorem Given.settings_logging (g : Given) (verbose : Nat) (quiet : Bool)
    (rootVariable : Option String) : (g.logging verbose quiet).settings rootVariable =
      (g.settings rootVariable).map fun a => { a with verbose, quiet } := by
  obtain ⟨root, outputFile, format, compact, _, _⟩ := g
  cases root with
  | some root => rfl
  | none =>
    cases rootVariable with
    | none => rfl
    | some value =>
      by_cases hempty : value = "" <;>
        simp [settings, logging, takeValue, hempty, Bind.bind, Except.bind, Except.map, pure,
          Except.pure]

theorem ReadState.follows_settings (met : Bool) (rootVariable : Option String) :
    Follows (ReadState.Quieter met) (fun a' a => a'.silent = a.silent) fun s =>
      s.given.settings rootVariable := by
  intro s' s a hs ha
  obtain ⟨verbose, quiet, hgiven, -⟩ := hs.given
  have ha : s.given.settings rootVariable = .ok a := ha
  refine ⟨{ a with verbose, quiet }, ?_, rfl⟩
  show s'.given.settings rootVariable = _
  rw [hgiven, Given.settings_logging, ha]
  rfl

/-- Where a command line gives settings, it gives the same ones without the flags for the log, how
much is logged left aside. -/
theorem Arguments.parse_unlogged {argv : List String} {rootVariable : Option String}
    {a : Arguments} (h : parse argv rootVariable = .ok a) :
    ∃ a', parse (unlogged argv) rootVariable = .ok a' ∧ a'.silent = a.silent := by
  have hsettings (met : Bool) : Follows (ReadState.Behind met)
      (fun a' a : Arguments => a'.silent = a.silent) fun s =>
        s.settle >>= fun s => s.given.settings rootVariable :=
    ReadState.behind_settle.bind (ReadState.follows_settings met rootVariable)
  have hstart : ReadState.Behind false {} {} := .inl ⟨.refl _, rfl, rfl, rfl, rfl⟩
  obtain ⟨r, hr, ha⟩ := bind_eq_ok_iff.1 h
  obtain ⟨r', hr', met, hbehind⟩ := ReadState.behind_unlogged hstart hr
  obtain ⟨a', ha', hsilent⟩ := hsettings met hbehind ha
  exact ⟨a', bind_eq_ok_iff.2 ⟨r', hr', ha'⟩, hsilent⟩

example : unlogged ["-vq", "src", "--quiet", "--", "-v"] = ["src", "--", "-v"] := by decide

end PatternHarvest.CommandLine
