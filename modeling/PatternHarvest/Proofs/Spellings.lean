import PatternHarvest.Proofs.LoggingFlags

/-!
# Settings in any order and spelling

What is to be said on a command line is a list of items, and `Spelled` says, without reading any,
which arguments say which items. However the items are ordered and spelled, reading gives the
settings that they stand for (`Arguments.parse_spelled`).

Order and spelling are settled apart from each other. Items are taken in one by one where each finds
its place free (`Given.Takes`), and then any two neighbours can change places (`Given.put_swap`), so
any order will do. What has been read is compared with what has been taken in only after what is
pending is taken in as well (`ReadState.Ready`): then a value that is an argument of its own, one
that is attached and a letter of a group each come to one item, whatever stood in front of them.
-/

namespace PatternHarvest.CommandLine

/-! ## What a command line says -/

/-- What can be said on a command line. -/
inductive Item where
  | flag (f : Flag)
  | value (what : Valued) (value : String)
  deriving DecidableEq

/-- What has to be said for all this to be taken in: every item once, and the flag that is counted
once for each time it counts. -/
def Given.items (g : Given) : List Item :=
  g.root.toList.map (.value .root) ++ g.outputFile.toList.map (.value .outputFile) ++
    g.format.toList.map (fun format => .value .format format.name) ++
    (if g.compact then [.flag .compact] else []) ++ (if g.quiet then [.flag .quiet] else []) ++
    List.replicate g.verbose (.flag .verbose)

/-- A text that can stand for itself on a command line: it is not empty and begins with no dash. -/
def IsPlain (s : String) : Prop :=
  s ≠ "" ∧ s.toList.head? ≠ some '-'

/-- What a letter of a group says. -/
def letterItem (c : Char) : Item :=
  .flag (if c = 'v' then .verbose else .quiet)

/-- The arguments say the items, in this order. A value is attached to its option or follows it, and
letters can be put into groups. -/
inductive Spelled : List String → List Item → Prop
  | nil : Spelled [] []
  | root {root : String} {argv : List String} {items : List Item} (hroot : IsPlain root)
    (hrest : Spelled argv items) : Spelled (root :: argv) (.value .root root :: items)
  | outputFile {file : String} {arguments argv : List String} {items : List Item}
    (hfile : IsPlain file)
    (hspelling : arguments ∈ [["-O", file], ["--output-file", file], ["--output-file=" ++ file]])
    (hrest : Spelled argv items) :
    Spelled (arguments ++ argv) (.value .outputFile file :: items)
  | format {format : Format} {arguments argv : List String} {items : List Item}
    (hspelling : arguments ∈ [["-f", format.name], ["-f" ++ format.name], ["-f=" ++ format.name],
      ["--format", format.name], ["--format=" ++ format.name]])
    (hrest : Spelled argv items) :
    Spelled (arguments ++ argv) (.value .format format.name :: items)
  | long {f : Flag} {argument : String} {argv : List String} {items : List Item}
    (hspelling : (argument, f) ∈ [("--compact", .compact), ("--verbose", .verbose),
      ("--quiet", .quiet)])
    (hrest : Spelled argv items) : Spelled (argument :: argv) (.flag f :: items)
  | group {letters : List Char} {argv : List String} {items : List Item} (hne : letters ≠ [])
    (hletters : ∀ c ∈ letters, c = 'v' ∨ c = 'q') (hrest : Spelled argv items) :
    Spelled (String.ofList ('-' :: letters) :: argv) (letters.map letterItem ++ items)

/-! ## Taking items in -/

namespace Given

/-- Nothing has been taken in that an item would be a repetition of, and its value is one that the
item can have. -/
def Free (g : Given) : Item → Prop
  | .flag .compact => g.compact = false
  | .flag .verbose => True
  | .flag .quiet => g.quiet = false
  | .flag .help => False
  | .value .outputFile value => g.outputFile = none ∧ value ≠ ""
  | .value .format value => g.format = none ∧ (Format.ofName? value).isSome
  | .value .root value => g.root = none ∧ value ≠ ""

/-- What has been taken in, with one more item. -/
def put (g : Given) : Item → Given
  | .flag .compact => { g with compact := true }
  | .flag .verbose => { g with verbose := min (g.verbose + 1) verboseLimit }
  | .flag .quiet => { g with quiet := true }
  | .flag .help => g
  | .value .outputFile value => { g with outputFile := some value }
  | .value .format value => { g with format := Format.ofName? value }
  | .value .root value => { g with root := some value }

variable {g r : Given} {x y : Item} {xs ys : List Item}

theorem takeFlag_of_free {f : Flag} (h : g.Free (.flag f)) :
    g.takeFlag f = .ok (g.put (.flag f)) := by
  cases f with
  | compact => exact if_neg (Bool.eq_false_iff.1 h)
  | verbose => rfl
  | quiet => exact if_neg (Bool.eq_false_iff.1 h)
  | help => exact h.elim

theorem takeValue_of_free {what : Valued} {value : String} (h : g.Free (.value what value)) :
    g.takeValue what value = .ok (g.put (.value what value)) := by
  cases what with
  | outputFile =>
    obtain ⟨hfree, hvalue⟩ := h
    simp [takeValue, put, hfree, hvalue]
  | format =>
    obtain ⟨hfree, hvalue⟩ := h
    obtain ⟨format, hformat⟩ := Option.isSome_iff_exists.1 hvalue
    simp [takeValue, put, hfree, hformat]
  | root =>
    obtain ⟨-, hvalue⟩ := h
    simp [takeValue, put, hvalue]

/-- Two items that are taken in one after the other can change places: each of them looks only at
its own place and leaves the others as they are, and the flag that is counted looks at none. -/
theorem put_swap (hx : g.Free x) (hy : (g.put x).Free y) :
    g.Free y ∧ (g.put y).Free x ∧ (g.put y).put x = (g.put x).put y := by
  match x, y with
  | .flag f, .flag f' => cases f <;> cases f' <;> simp_all [Free, put]
  | .flag f, .value what value => cases f <;> cases what <;> simp_all [Free, put]
  | .value what value, .flag f => cases f <;> cases what <;> simp_all [Free, put]
  | .value what value, .value what' value' =>
    cases what <;> cases what' <;> simp_all [Free, put]

/-- The items can be taken in one after the other, and lead from `g` to `r`. -/
inductive Takes : Given → List Item → Given → Prop
  | nil {g : Given} : Takes g [] g
  | cons {g r : Given} {x : Item} {xs : List Item} (hfree : g.Free x)
    (hrest : Takes (g.put x) xs r) : Takes g (x :: xs) r

/-- The order of the items does not matter. The induction is on the permutation, which changes the
places of two neighbours at a time. -/
theorem takes_perm (h : xs.Perm ys) (hx : Takes g xs r) : Takes g ys r := by
  induction h generalizing g with
  | nil => exact hx
  | cons x _ ih =>
    cases hx with
    | cons hfree hrest => exact .cons hfree (ih hrest)
  | swap x y xs =>
    cases hx with
    | cons hy hrest =>
      cases hrest with
      | cons hx hrest =>
        obtain ⟨hx', hy', hsame⟩ := put_swap hy hx
        exact .cons hx' (.cons hy' (hsame ▸ hrest))
  | trans _ _ ih₁ ih₂ => exact ih₂ (ih₁ hx)

theorem Takes.append {m : Given} (hx : Takes g xs m) (hy : Takes m ys r) :
    Takes g (xs ++ ys) r := by
  induction hx with
  | nil => exact hy
  | cons hfree _ ih => exact .cons hfree (ih hy)

theorem Takes.of_append (h : Takes g (xs ++ ys) r) : ∃ m, Takes g xs m ∧ Takes m ys r := by
  induction xs generalizing g with
  | nil => exact ⟨g, .nil, h⟩
  | cons x xs ih =>
    cases h with
    | cons hfree hrest =>
      obtain ⟨m, hx, hy⟩ := ih hrest
      exact ⟨m, .cons hfree hx, hy⟩

/-- The flags for more of the log are counted, up to the limit. -/
theorem takes_verbose (g : Given) (k : Nat) (hlimit : g.verbose ≤ verboseLimit) :
    Takes g (List.replicate k (.flag .verbose))
      { g with verbose := min (g.verbose + k) verboseLimit } := by
  induction k generalizing g with
  | zero =>
    rw [Nat.add_zero, Nat.min_eq_left hlimit]
    exact .nil
  | succ k ih =>
    have hcount : min (min (g.verbose + 1) verboseLimit + k) verboseLimit =
        min (g.verbose + (k + 1)) verboseLimit := by omega
    have hrest := ih (g.put (.flag .verbose)) (Nat.min_le_right _ _)
    rw [put, hcount] at hrest
    exact .cons trivial hrest

theorem ofName?_name (format : Format) : Format.ofName? format.name = some format := by
  cases format <;> decide

/-- All that has been taken in can be taken in once more from the start. -/
theorem takes_items (g : Given) (hroot : ∀ root ∈ g.root, root ≠ "")
    (hfile : ∀ file ∈ g.outputFile, file ≠ "") :
    Takes {} g.items { g with verbose := min g.verbose verboseLimit } := by
  obtain ⟨root, file, format, compact, verbose, quiet⟩ := g
  have htakeRoot : Takes {} (root.toList.map (.value .root)) { root } := by
    cases root with
    | none => exact .nil
    | some root => exact .cons ⟨rfl, hroot root rfl⟩ .nil
  have htakeFile : Takes { root } (file.toList.map (.value .outputFile))
      { root, outputFile := file } := by
    cases file with
    | none => exact .nil
    | some file => exact .cons ⟨rfl, hfile file rfl⟩ .nil
  have htakeFormat : Takes { root, outputFile := file }
      (format.toList.map fun format => .value .format format.name)
      { root, outputFile := file, format } := by
    cases format with
    | none => exact .nil
    | some format =>
      refine .cons ⟨rfl, ?_⟩ ?_
      · rw [ofName?_name]
        rfl
      · rw [put, ofName?_name]
        exact .nil
  have htakeCompact : Takes { root, outputFile := file, format }
      (if compact then [.flag .compact] else [])
      { root, outputFile := file, format, compact } := by
    cases compact with
    | false => exact .nil
    | true => exact .cons rfl .nil
  have htakeQuiet : Takes { root, outputFile := file, format, compact }
      (if quiet then [.flag .quiet] else [])
      { root, outputFile := file, format, compact, quiet } := by
    cases quiet with
    | false => exact .nil
    | true => exact .cons rfl .nil
  have htakeVerbose := takes_verbose { root, outputFile := file, format, compact, quiet } verbose
    (Nat.zero_le _)
  rw [Nat.zero_add] at htakeVerbose
  exact ((((htakeRoot.append htakeFile).append htakeFormat).append htakeCompact).append
    htakeQuiet).append htakeVerbose

end Given

/-! ## Reading what is spelled -/

namespace ReadState

/-- Once what is pending is taken in, just `g` has been taken in, and the mark was not met. -/
def Ready (s : ReadState) (g : Given) : Prop :=
  s.settle = .ok ⟨g, none, false, g.root.isSome⟩

variable {s : ReadState} {g r : Given}

theorem ready_of_settled (g : Given) : Ready ⟨g, none, false, g.root.isSome⟩ g :=
  rfl

theorem Ready.verbatim (h : s.Ready g) : s.verbatim = false :=
  (settle_eq_ok h).2.1.symm

/-- The arguments are read one after the other, and then `r` has been taken in. -/
def Reads (s : ReadState) (argv : List String) (r : Given) : Prop :=
  ∃ t, argv.foldlM read s = .ok t ∧ t.Ready r

theorem reads_nil (h : s.Ready g) : s.Reads [] g :=
  ⟨s, rfl, h⟩

theorem reads_singleton {t : ReadState} {argument : String} (hread : s.read argument = .ok t)
    (ht : t.Ready g) : s.Reads [argument] g :=
  ⟨t, bind_eq_ok_iff.2 ⟨t, hread, rfl⟩, ht⟩

theorem Reads.append {first rest : List String} (hfirst : s.Reads first g)
    (hrest : ∀ t : ReadState, t.Ready g → t.Reads rest r) : s.Reads (first ++ rest) r := by
  obtain ⟨t, ht, hready⟩ := hfirst
  obtain ⟨u, hu, hready⟩ := hrest t hready
  refine ⟨u, ?_, hready⟩
  rw [List.foldlM_append]
  exact bind_eq_ok_iff.2 ⟨t, ht, hu⟩

/-! ### What kind of argument it is -/

section

variable (hs : s.verbatim = false) {argument : String}
include hs

theorem read_long (body : List Char) (hargument : argument.toList = '-' :: '-' :: body)
    (hbody : body ≠ []) : s.read argument = s.long body := by
  unfold read
  rw [hs, hargument]
  cases body with
  | nil => exact absurd rfl hbody
  | cons c body => rfl

theorem read_letters {c : Char} {rest : List Char} (hargument : argument.toList = '-' :: c :: rest)
    (hc : c ≠ '-') : s.read argument = s.letters (c :: rest) := by
  unfold read
  rw [hs, hargument]
  simp [hc]

theorem read_plain (h : IsPlain argument) : s.read argument = s.word argument := by
  unfold read
  rw [hs]
  split
  next hverbatim => cases hverbatim
  next =>
    obtain ⟨-, hdash⟩ := h
    split
    next htoList => simp [htoList] at hdash
    next htoList => simp [htoList] at hdash
    next htoList => simp [htoList] at hdash
    next => rfl

end

/-! ### Flags -/

/-- A flag that was not given before is taken in. -/
theorem Ready.flag (h : s.Ready g) {f : Flag} (hfree : g.Free (.flag f)) :
    ∃ t, s.flag f = .ok t ∧ t.Ready (g.put (.flag f)) := by
  have hroot : (g.put (.flag f)).root = g.root := by cases f <;> rfl
  refine ⟨⟨g.put (.flag f), none, false, (g.put (.flag f)).root.isSome⟩, ?_, rfl⟩
  rw [flag_of_settle h, ReadState.flag, hroot]
  exact bind_eq_ok_iff.2
    ⟨_, settle_of_settle h, bind_eq_ok_iff.2 ⟨_, Given.takeFlag_of_free hfree, rfl⟩⟩

theorem Ready.reads_flag (h : s.Ready g) {f : Flag} (hfree : g.Free (.flag f)) {argument : String}
    (hspelling : (argument, f) ∈ [("--compact", .compact), ("--verbose", .verbose),
      ("--quiet", .quiet)]) :
    s.Reads [argument] (g.put (.flag f)) := by
  have hread : s.read argument = s.flag f := by
    simp only [List.mem_cons, Prod.mk.injEq, List.not_mem_nil, or_false] at hspelling
    rcases hspelling with ⟨rfl, rfl⟩ | ⟨rfl, rfl⟩ | ⟨rfl, rfl⟩
    · exact read_long h.verbatim "compact".toList rfl (by decide)
    · exact read_long h.verbatim "verbose".toList rfl (by decide)
    · exact read_long h.verbatim "quiet".toList rfl (by decide)
  obtain ⟨t, ht, hready⟩ := h.flag hfree
  exact reads_singleton (hread.trans ht) hready

/-- The letters of a group are taken in one by one. -/
theorem Ready.letters (h : s.Ready g) {letters : List Char}
    (hletters : ∀ c ∈ letters, c = 'v' ∨ c = 'q')
    (htakes : Given.Takes g (letters.map letterItem) r) :
    ∃ t, s.letters letters = .ok t ∧ t.Ready r := by
  induction letters generalizing s g with
  | nil =>
    cases htakes
    exact ⟨s, rfl, h⟩
  | cons c letters ih =>
    rw [List.forall_mem_cons] at hletters
    cases htakes with
    | cons hfree hrest =>
      have hletter : Valued.ofShort? c = none ∧
          Flag.ofShort? c = some (if c = 'v' then .verbose else .quiet) := by
        rcases hletters.1 with rfl | rfl <;> exact ⟨rfl, rfl⟩
      obtain ⟨t, ht, hready⟩ := h.flag hfree
      obtain ⟨u, hu, hready⟩ := ih hready hletters.2 hrest
      rw [letters_of_flag hletter.1 hletter.2]
      exact ⟨u, bind_eq_ok_iff.2 ⟨t, ht, hu⟩, hready⟩

theorem Ready.reads_group (h : s.Ready g) {letters : List Char} (hne : letters ≠ [])
    (hletters : ∀ c ∈ letters, c = 'v' ∨ c = 'q')
    (htakes : Given.Takes g (letters.map letterItem) r) :
    s.Reads [String.ofList ('-' :: letters)] r := by
  obtain ⟨t, ht, hready⟩ := h.letters hletters htakes
  have hread : s.read (String.ofList ('-' :: letters)) = s.letters letters := by
    cases letters with
    | nil => exact absurd rfl hne
    | cons c letters =>
      apply read_letters h.verbatim String.toList_ofList
      rcases hletters c List.mem_cons_self with rfl | rfl <;> decide
  exact reads_singleton (hread.trans ht) hready

/-! ### Values -/

/-- A value that is pending is taken in as if it had been taken in at once. -/
theorem ready_of_pending {what : Valued} {value : String} (hfree : g.Free (.value what value)) :
    Ready ⟨g, some ⟨what, some value⟩, false, (g.put (.value what value)).root.isSome⟩
      (g.put (.value what value)) :=
  bind_eq_ok_iff.2 ⟨_, Given.takeValue_of_free hfree, rfl⟩

theorem Ready.reads_root (h : s.Ready g) {root : String} (hroot : IsPlain root)
    (hfree : g.Free (.value .root root)) : s.Reads [root] (g.put (.value .root root)) := by
  refine reads_singleton ?_ (ready_of_pending hfree)
  have hmet : g.root.isSome = false := by rw [hfree.1]; rfl
  rw [read_plain h.verbatim hroot, word_of_settle h]
  show ReadState.root _ root = _
  rw [ReadState.root, settle_of_settle h, hmet]
  rfl

theorem root_put_value {what : Valued} (hwhat : what ≠ .root) (value : String) :
    (g.put (.value what value)).root = g.root := by
  cases what with
  | root => exact absurd rfl hwhat
  | _ => rfl

section

variable {what : Valued} (hwhat : what ≠ .root) {value : String}
  (hfree : g.Free (.value what value))
include hwhat hfree

/-- An option awaits its value, which is the next argument. -/
theorem Ready.reads_apart (h : s.Ready g) (hvalue : IsPlain value) {argument : String}
    (hread : s.read argument = s.option what none) :
    s.Reads [argument, value] (g.put (.value what value)) := by
  have hawait : s.read argument = .ok ⟨g, some ⟨what, none⟩, false, g.root.isSome⟩ := by
    rw [hread, option_of_settle h, option, settle_of_settle h]
    rfl
  have hready := ready_of_pending hfree
  rw [root_put_value hwhat] at hready
  refine ⟨_, bind_eq_ok_iff.2 ⟨_, hawait, bind_eq_ok_iff.2 ⟨_, ?_, rfl⟩⟩, hready⟩
  exact read_plain rfl hvalue

/-- A value that is attached to its option is taken in at once. -/
theorem Ready.reads_attached (h : s.Ready g) {argument : String}
    (hread : s.read argument = s.option what (some value)) :
    s.Reads [argument] (g.put (.value what value)) := by
  refine reads_singleton ?_ (ready_of_settled (g.put (.value what value)))
  rw [hread, option_of_settle h, option, root_put_value hwhat]
  exact bind_eq_ok_iff.2
    ⟨_, settle_of_settle h, bind_eq_ok_iff.2 ⟨_, Given.takeValue_of_free hfree, rfl⟩⟩

end

section

variable (hs : s.verbatim = false) {what : Valued}
include hs

/-- A long option is cut at the first equals sign. -/
theorem read_long_attached (name : String) (hname : name ≠ "" ∧ '=' ∉ name.toList)
    (hlong : Valued.ofLong? name = some what) (value : String) :
    s.read ("--" ++ name ++ "=" ++ value) = s.option what (some value) := by
  have hargument : ("--" ++ name ++ "=" ++ value).toList =
      '-' :: '-' :: (name.toList ++ '=' :: value.toList) := by
    simp
  have hbefore : ∀ c ∈ name.toList, decide (c ≠ '=') = true := by
    intro c hc
    rw [decide_eq_true_eq]
    rintro rfl
    exact hname.2 hc
  rw [read_long hs _ hargument (by simp)]
  simp only [long, List.takeWhile_append_of_pos hbefore, List.dropWhile_append_of_pos hbefore]
  simp [hlong]

/-- What stands behind a letter that takes a value is the value, less an equals sign. -/
theorem read_short {c : Char} (hc : c ≠ '-') (hshort : Valued.ofShort? c = some what)
    {argument : String} {rest : List Char} (hargument : argument.toList = '-' :: c :: rest)
    {value : Option String} (hvalue : attached rest = value) :
    s.read argument = s.option what value := by
  rw [read_letters hs hargument hc, letters, hshort, hvalue]

end

theorem Ready.reads_outputFile (h : s.Ready g) {file : String} (hfile : IsPlain file)
    (hfree : g.Free (.value .outputFile file)) {arguments : List String}
    (hspelling : arguments ∈ [["-O", file], ["--output-file", file], ["--output-file=" ++ file]]) :
    s.Reads arguments (g.put (.value .outputFile file)) := by
  have hs := h.verbatim
  have hwhat : Valued.outputFile ≠ .root := nofun
  simp only [List.mem_cons, List.not_mem_nil, or_false] at hspelling
  rcases hspelling with rfl | rfl | rfl
  · exact h.reads_apart hwhat hfree hfile
      (read_short hs (c := 'O') (by decide) rfl rfl rfl)
  · exact h.reads_apart hwhat hfree hfile
      (read_long hs "output-file".toList rfl (by decide))
  · exact h.reads_attached hwhat hfree
      (read_long_attached hs "output-file" (by decide) rfl file)

theorem Ready.reads_format (h : s.Ready g) {format : Format}
    (hfree : g.Free (.value .format format.name)) {arguments : List String}
    (hspelling : arguments ∈ [["-f", format.name], ["-f" ++ format.name], ["-f=" ++ format.name],
      ["--format", format.name], ["--format=" ++ format.name]]) :
    s.Reads arguments (g.put (.value .format format.name)) := by
  have hs := h.verbatim
  have hwhat : Valued.format ≠ .root := nofun
  have hplain : IsPlain format.name := by cases format <;> exact ⟨by decide, by decide⟩
  simp only [List.mem_cons, List.not_mem_nil, or_false] at hspelling
  rcases hspelling with rfl | rfl | rfl | rfl | rfl
  · exact h.reads_apart hwhat hfree hplain
      (read_short hs (c := 'f') (by decide) rfl rfl rfl)
  · have hattached : attached format.name.toList = some format.name := by cases format <;> decide
    exact h.reads_attached hwhat hfree
      (read_short hs (c := 'f') (by decide) rfl (by simp) hattached)
  · have hattached : attached ('=' :: format.name.toList) = some format.name := by
      rw [attached, String.ofList_toList]
    exact h.reads_attached hwhat hfree
      (read_short hs (c := 'f') (by decide) rfl (by simp) hattached)
  · exact h.reads_apart hwhat hfree hplain
      (read_long hs "format".toList rfl (by decide))
  · exact h.reads_attached hwhat hfree
      (read_long_attached hs "format" (by decide) rfl format.name)

/-- What is spelled is taken in. The induction is on what is spelled; each time the rest is read
from the state that the first arguments lead to. -/
theorem Ready.reads_spelled {argv : List String} {items : List Item} (hspelled : Spelled argv items)
    (h : s.Ready g) (htakes : Given.Takes g items r) : s.Reads argv r := by
  induction hspelled generalizing s g with
  | nil =>
    cases htakes
    exact reads_nil h
  | root hroot _ ih =>
    cases htakes with
    | cons hfree hrest => exact (h.reads_root hroot hfree).append fun t ht => ih ht hrest
  | outputFile hfile hspelling _ ih =>
    cases htakes with
    | cons hfree hrest =>
      exact (h.reads_outputFile hfile hfree hspelling).append fun t ht => ih ht hrest
  | format hspelling _ ih =>
    cases htakes with
    | cons hfree hrest => exact (h.reads_format hfree hspelling).append fun t ht => ih ht hrest
  | long hspelling _ ih =>
    cases htakes with
    | cons hfree hrest => exact (h.reads_flag hfree hspelling).append fun t ht => ih ht hrest
  | group hne hletters _ ih =>
    obtain ⟨m, hgroup, hrest⟩ := htakes.of_append
    exact (h.reads_group hne hletters hgroup).append fun t ht => ih ht hrest

end ReadState

/-! ## Settings -/

/-- **The order and the spelling of what is said do not matter.** Whatever is wanted, any arguments
that say it, each item once and in any of its spellings, give the settings that were wanted. -/
theorem Arguments.parse_spelled (wanted : Given) (hroot : ∀ root ∈ wanted.root, IsPlain root)
    (hfile : ∀ file ∈ wanted.outputFile, IsPlain file) {argv : List String} {items : List Item}
    (hspelled : Spelled argv items) (hitems : items.Perm wanted.items)
    {rootVariable : Option String} (hvariable : rootVariable ≠ some "") :
    parse argv rootVariable = .ok {
      root := wanted.root.getD (rootVariable.getD ".")
      outputFile := wanted.outputFile
      format := wanted.format.getD .json
      compact := wanted.compact
      verbose := min wanted.verbose 255
      quiet := wanted.quiet } := by
  have htakes := Given.takes_items wanted (fun root h => (hroot root h).1)
    (fun file h => (hfile file h).1)
  obtain ⟨s, hs, hready⟩ := (ReadState.ready_of_settled {}).reads_spelled hspelled
    (Given.takes_perm hitems.symm htakes)
  refine bind_eq_ok_iff.2 ⟨s, hs, bind_eq_ok_iff.2 ⟨_, hready, ?_⟩⟩
  obtain ⟨root, file, format, compact, verbose, quiet⟩ := wanted
  match root, rootVariable with
  | some root, _ => rfl
  | none, none => rfl
  | none, some value =>
    have hvalue : value ≠ "" := fun h => hvariable (congrArg some h)
    simp [Given.settings, Given.takeValue, hvalue]
    rfl

/-- A command line on which the root stands between a group of two flags and a file that is attached
to its option. -/
def mixedLine : List String :=
  ["-vq", "src", "--output-file=a=b", "-f=yaml", "--verbose"]

/-- What `mixedLine` says. -/
def mixedItems : List Item :=
  [.flag .verbose, .flag .quiet, .value .root "src", .value .outputFile "a=b",
    .value .format "yaml", .flag .verbose]

/-- What is wanted with `mixedLine`. -/
def mixedGiven : Given where
  root := some "src"
  outputFile := some "a=b"
  format := some .yaml
  verbose := 2
  quiet := true

theorem Arguments.parse_spelled_mixed : IsPlain "src" ∧ IsPlain "a=b" ∧
    Spelled mixedLine mixedItems ∧ mixedItems.Perm mixedGiven.items ∧ some "lib" ≠ some "" ∧
    parse mixedLine (some "lib") = .ok ⟨"src", some "a=b", .yaml, false, 2, true⟩ := by
  have hsrc : IsPlain "src" := ⟨by decide, by decide⟩
  have hfile : IsPlain "a=b" := ⟨by decide, by decide⟩
  have hend : Spelled ["--verbose"] [.flag .verbose] := .long (by decide) .nil
  have hformat : Spelled ["-f=yaml", "--verbose"] [.value .format "yaml", .flag .verbose] :=
    @Spelled.format .yaml ["-f=yaml"] _ _ (by decide) hend
  have houtput : Spelled ["--output-file=a=b", "-f=yaml", "--verbose"]
      [.value .outputFile "a=b", .value .format "yaml", .flag .verbose] :=
    @Spelled.outputFile _ ["--output-file=a=b"] _ _ hfile (by decide) hformat
  have hspelled : Spelled mixedLine mixedItems :=
    @Spelled.group ['v', 'q'] _ _ (by decide) (by simp) (.root hsrc houtput)
  have hitems : mixedItems.Perm mixedGiven.items := by decide
  have hvariable : some "lib" ≠ some "" := by simp
  refine ⟨hsrc, hfile, hspelled, hitems, hvariable, ?_⟩
  exact parse_spelled mixedGiven (by rintro _ ⟨⟩; exact hsrc)
    (by rintro _ ⟨⟩; exact hfile) hspelled hitems hvariable

end PatternHarvest.CommandLine
