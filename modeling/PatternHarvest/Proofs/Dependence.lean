import PatternHarvest.Proofs.Declarators
import PatternHarvest.Proofs.Resolution
import Mathlib.Data.Finset.Max
import Mathlib.Data.Fintype.Basic
import Mathlib.Logic.Equiv.Fin.Basic

/-!
# Which declarations depend on which

Classifying a declaration writes its name, and reads the names at the leaves of the argument that it
compiles (`Classifier.reads`). Two declarations conflict if both write the same name or one reads
what the other writes. Declarations may be put into any other order that leaves conflicting pairs in
theirs: they get the same classes there and lead to the same context
(`classifyAll_of_rearrangement`).

What a declaration amounts to is a function of the constants it reads, and each of those is settled
by the last declaration of the name before it. All declarations of that name conflict with the one
that reads it, and with each other, so a rearrangement takes the last of them to the last of them.
-/

namespace PatternHarvest

namespace Classifier

/-! ## What a declaration reads -/

/-- The names that an initializer looks up: those at the leaves of the first argument of a call that
compiles a pattern. -/
def reads (k : Classifier) : Expr → List String
  | .call receiver method (arg :: _) =>
    if k.call.accepts receiver method then arg.leafNames else []
  | _ => []

/-- What an initializer amounts to depends on no constants but those it looks up. -/
theorem find_congr (k : Classifier) {constant? constant'? : String → Option String} {init : Expr}
    (h : ∀ n ∈ k.reads init, constant? n = constant'? n) :
    k.find constant? init = k.find constant'? init := by
  cases init with
  | literal text => rfl
  | name n => rfl
  | concat left right => rfl
  | other kind => rfl
  | call receiver method args =>
    cases args with
    | nil => rfl
    | cons arg rest =>
      by_cases hcall : k.call.accepts receiver method = true
      · rw [reads, if_pos hcall] at h
        simp only [find, if_pos hcall, Expr.resolve_congr h]
      · simp only [find, if_neg hcall]

/-- Two declarations cannot be told apart from a run in which they come the other way round, unless
they declare the same name or one of them looks up the name that the other declares. -/
def Conflict (k : Classifier) (d e : Declaration) : Prop :=
  d.name = e.name ∨ d.name ∈ k.reads e.init ∨ e.name ∈ k.reads d.init

instance (k : Classifier) (d e : Declaration) : Decidable (k.Conflict d e) :=
  inferInstanceAs (Decidable (_ ∨ _ ∨ _))

theorem Conflict.symm {k : Classifier} {d e : Declaration} (h : k.Conflict d e) :
    k.Conflict e d := by
  rcases h with hname | hread | hread
  · exact .inl hname.symm
  · exact .inr (.inr hread)
  · exact .inr (.inl hread)

end Classifier

/-! ## The last declaration of a name, by its position -/

/-- No declaration behind the one at `i` and before position `bound` declares the same name. -/
structure IsLastBefore (ds : List Declaration) (bound : ℕ) (i : Fin ds.length) : Prop where
  lt_bound : i < bound
  name_ne : ∀ j : Fin ds.length, i < j → j < bound → (ds.get j).name ≠ (ds.get i).name

/-- A name that is declared before a position has a last declaration before it. -/
theorem exists_isLastBefore {ds : List Declaration} {bound : ℕ} {name : String}
    (h : ∃ j : Fin ds.length, j < bound ∧ (ds.get j).name = name) :
    ∃ i, (ds.get i).name = name ∧ IsLastBefore ds bound i := by
  let declared : Finset (Fin ds.length) :=
    Finset.univ.filter fun j => j < bound ∧ (ds.get j).name = name
  have hdeclared : declared.Nonempty := by
    obtain ⟨j, hj⟩ := h
    exact ⟨j, by simpa [declared] using hj⟩
  obtain ⟨i, hi, hmax⟩ := declared.exists_max_image id hdeclared
  obtain ⟨hlt, hname⟩ : i < bound ∧ (ds.get i).name = name := by simpa [declared] using hi
  refine ⟨i, hname, hlt, ?_⟩
  intro j hij hj hsame
  have hle : j ≤ i := hmax j (by simpa [declared] using ⟨hj, hsame.trans hname⟩)
  exact absurd hij (not_lt.2 hle)

theorem mem_take_iff {ds : List Declaration} {bound : ℕ} {d : Declaration} :
    d ∈ ds.take bound ↔ ∃ j : Fin ds.length, j < bound ∧ ds.get j = d := by
  rw [List.mem_take_iff_getElem]
  constructor
  · rintro ⟨j, hj, rfl⟩
    exact ⟨⟨j, by omega⟩, by simp; omega, rfl⟩
  · rintro ⟨j, hj, rfl⟩
    exact ⟨j, by omega, rfl⟩

namespace Classifier

/-- The last declaration of a name settles it, in the part of a run up to any position behind it. -/
theorem entries_classifyAll_take (k : Classifier) {ds : List Declaration} {bound : ℕ}
    {i : Fin ds.length} (h : IsLastBefore ds bound i) (c : Context) :
    (k.classifyAll (ds.take bound) c).entries (ds.get i).name =
      (k.find (k.classifyAll (ds.take i) c).constant? (ds.get i).init).entries := by
  have hlength : (i : ℕ) < (ds.take bound).length := by
    rw [List.length_take]
    exact lt_min h.lt_bound i.isLt
  have hget : (ds.take bound)[(i : ℕ)] = ds.get i := List.getElem_take
  have hsplit : ds.take bound = ds.take i ++ ds.get i :: (ds.take bound).drop (i + 1) := by
    calc ds.take bound
        = (ds.take bound).take i ++ (ds.take bound).drop i := (List.take_append_drop i _).symm
      _ = ds.take i ++ ds.get i :: (ds.take bound).drop (i + 1) := by
        rw [List.take_take, min_eq_left h.lt_bound.le, List.drop_eq_getElem_cons hlength, hget]
  have hafter : ∀ e ∈ (ds.take bound).drop (i + 1), e.name ≠ (ds.get i).name := by
    intro e he
    obtain ⟨j, hj, rfl⟩ := List.mem_drop_iff_getElem.1 he
    rw [List.length_take] at hj
    rw [List.getElem_take]
    exact h.name_ne ⟨i + 1 + j, by omega⟩ (Fin.lt_def.2 (by simp; omega)) (by simp; omega)
  rw [hsplit]
  exact k.entries_classifyAll_last _ _ hafter c

/-! ## Rearrangements -/

/-- The same declarations in another order: `place` says where each of them has gone. Conflicting
declarations keep their order. -/
structure Rearrangement (k : Classifier) (ds es : List Declaration) where
  place : Fin ds.length ≃ Fin es.length
  get_place : ∀ i, es.get (place i) = ds.get i
  place_lt : ∀ i j, i < j → k.Conflict (ds.get i) (ds.get j) → place i < place j

/-- The class that the declaration at a position receives when all are classified in order. -/
def classAt (k : Classifier) (ds : List Declaration) (c : Context) (i : Fin ds.length) :
    DeclClass :=
  (k.classify (ds.get i) (k.classifyAll (ds.take i) c)).1

namespace Rearrangement

variable {k : Classifier} {ds es : List Declaration}

/-- The order of two conflicting declarations can be read off their new places. -/
theorem place_lt_iff (r : k.Rearrangement ds es) {i j : Fin ds.length}
    (h : k.Conflict (ds.get i) (ds.get j)) : r.place i < r.place j ↔ i < j := by
  constructor
  · intro hplace
    by_contra hij
    rcases lt_or_eq_of_le (not_lt.1 hij) with hji | rfl
    · exact absurd hplace (lt_asymm (r.place_lt j i hji h.symm))
    · exact absurd hplace (lt_irrefl _)
  · intro hij
    exact r.place_lt i j hij h

/-- Take a position in each of the two orders, such that the same declarations of a name stand
before them. Then no declaration of the name stands before either, or the last one before the first
position has become the last one before the second. -/
theorem last_cases (r : k.Rearrangement ds es) {bound bound' : ℕ} {name : String}
    (h : ∀ j, (ds.get j).name = name → (j < bound ↔ r.place j < bound')) :
    ((∀ d ∈ ds.take bound, d.name ≠ name) ∧ ∀ e ∈ es.take bound', e.name ≠ name) ∨
      ∃ i, (ds.get i).name = name ∧ IsLastBefore ds bound i ∧ IsLastBefore es bound' (r.place i) := by
  by_cases hex : ∃ j : Fin ds.length, j < bound ∧ (ds.get j).name = name
  · obtain ⟨i, hname, hlast⟩ := exists_isLastBefore hex
    refine .inr ⟨i, hname, hlast, (h i hname).1 hlast.lt_bound, ?_⟩
    intro j' hij hj' hsame
    obtain ⟨j, rfl⟩ := r.place.surjective j'
    rw [r.get_place, r.get_place] at hsame
    have hbound : j < bound := (h j (hsame.trans hname)).2 hj'
    exact hlast.name_ne j ((r.place_lt_iff (.inl hsame.symm)).1 hij) hbound hsame
  · refine .inl ⟨?_, ?_⟩
    · intro d hd hname
      obtain ⟨j, hj, rfl⟩ := mem_take_iff.1 hd
      exact hex ⟨j, hj, hname⟩
    · intro e he hname
      obtain ⟨j', hj', rfl⟩ := mem_take_iff.1 he
      obtain ⟨j, rfl⟩ := r.place.surjective j'
      rw [r.get_place] at hname
      exact hex ⟨j, (h j hname).2 hj', hname⟩

/-- A name that a declaration reads has the same constant in front of it in both orders. -/
theorem constant?_place (r : k.Rearrangement ds es) (c : Context) {i : Fin ds.length}
    {name : String} (hread : name ∈ k.reads (ds.get i).init) :
    (k.classifyAll (es.take (r.place i)) c).constant? name =
      (k.classifyAll (ds.take i) c).constant? name := by
  have hbefore : ∀ j, (ds.get j).name = name →
      ((j : ℕ) < (i : ℕ) ↔ (r.place j : ℕ) < (r.place i : ℕ)) := by
    intro j hname
    have hconflict : k.Conflict (ds.get j) (ds.get i) := .inr (.inl (hname ▸ hread))
    exact (r.place_lt_iff hconflict).symm
  rcases r.last_cases hbefore with ⟨hds, hes⟩ | ⟨j, rfl, hlast, hlast'⟩
  · exact congrArg Entries.constant?
      ((k.entries_classifyAll_of_undeclared hes c).trans
        (k.entries_classifyAll_of_undeclared hds c).symm)
  · have hentries := congrArg Entries.constant? (k.entries_classifyAll_take hlast c)
    have hentries' := congrArg Entries.constant? (k.entries_classifyAll_take hlast' c)
    rw [entries_find_constant?] at hentries hentries'
    rw [r.get_place] at hentries'
    exact hentries'.trans hentries.symm

/-- A declaration amounts to the same in both orders. -/
theorem find_place (r : k.Rearrangement ds es) (c : Context) (i : Fin ds.length) :
    k.find (k.classifyAll (es.take (r.place i)) c).constant? (es.get (r.place i)).init =
      k.find (k.classifyAll (ds.take i) c).constant? (ds.get i).init := by
  rw [r.get_place]
  exact k.find_congr fun name hread => r.constant?_place c hread

/-- Both orders lead to the same context. -/
theorem classifyAll_eq (r : k.Rearrangement ds es) (c : Context) :
    k.classifyAll ds c = k.classifyAll es c := by
  apply Context.ext_entries
  intro name
  have hall : ∀ j, (ds.get j).name = name →
      ((j : ℕ) < ds.length ↔ (r.place j : ℕ) < es.length) := fun j _ =>
    iff_of_true j.isLt (r.place j).isLt
  have htake := r.last_cases hall
  rw [List.take_length, List.take_length] at htake
  rcases htake with ⟨hds, hes⟩ | ⟨i, rfl, hlast, hlast'⟩
  · rw [k.entries_classifyAll_of_undeclared hds, k.entries_classifyAll_of_undeclared hes]
  · have hentries := k.entries_classifyAll_take hlast c
    have hentries' := k.entries_classifyAll_take hlast' c
    rw [List.take_length] at hentries hentries'
    rw [r.find_place, r.get_place] at hentries'
    exact hentries.trans hentries'.symm

/-- A declaration receives the same class in both orders. -/
theorem classAt_place (r : k.Rearrangement ds es) (c : Context) (i : Fin ds.length) :
    k.classAt es c (r.place i) = k.classAt ds c i :=
  congrArg Finding.declClass (r.find_place c i)

/-! ## Two blocks change places -/

/-- Where the declarations of two blocks go when the blocks change places. -/
def swapPlace (ds es : List Declaration) : Fin (ds ++ es).length ≃ Fin (es ++ ds).length :=
  (finCongr List.length_append).trans (finAddFlip.trans (finCongr List.length_append.symm))

theorem val_swapPlace (i : Fin (ds ++ es).length) :
    (swapPlace ds es i : ℕ) = if i < ds.length then es.length + i else i - ds.length := by
  obtain ⟨i, hi⟩ := i
  rw [List.length_append] at hi
  split
  next hlt => simp [swapPlace, finAddFlip_apply_mk_left hlt]
  next hge => simp [swapPlace, finAddFlip_apply_mk_right (not_lt.1 hge) hi]

/-- Blocks without a conflict between them may change places. -/
def swap (h : ∀ d ∈ ds, ∀ e ∈ es, ¬ k.Conflict d e) : k.Rearrangement (ds ++ es) (es ++ ds) where
  place := swapPlace ds es
  get_place := by
    intro i
    have hi : (i : ℕ) < ds.length + es.length := lt_of_lt_of_eq i.isLt List.length_append
    simp only [List.get_eq_getElem, val_swapPlace]
    by_cases hlt : (i : ℕ) < ds.length
    · simp [hlt]
    · simp only [if_neg hlt]
      rw [List.getElem_append_left (by omega), List.getElem_append_right (by omega)]
  place_lt := by
    intro i j hij hconflict
    have hj : (j : ℕ) < ds.length + es.length := lt_of_lt_of_eq j.isLt List.length_append
    have hij : (i : ℕ) < j := hij
    rw [Fin.lt_def, val_swapPlace, val_swapPlace]
    by_cases hlt : (i : ℕ) < ds.length
    · by_cases hlt' : (j : ℕ) < ds.length
      · simp [hlt, hlt', hij]
      · -- the first stands in one block and the second in the other
        simp only [List.get_eq_getElem, List.getElem_append_left hlt,
          List.getElem_append_right (not_lt.1 hlt')] at hconflict
        exact absurd hconflict (h _ (List.getElem_mem _) _ (List.getElem_mem _))
    · rw [if_neg hlt, if_neg (by omega)]
      omega

end Rearrangement

end Classifier

/-! ## Files that change places -/

namespace Harvester

/-- Files that follow each other may change places, if nothing in one conflicts with anything in the
other: whatever files are read before and after them, the context of the run is the same. -/
theorem context_foldl_step_swap (h : Harvester) (files : Files.FileTree) {path path' : String}
    (hindependent : ∀ d ∈ h.declarationsIn files [path], ∀ e ∈ h.declarationsIn files [path'],
      ¬ h.classifier.Conflict d e) (before after : List String) (r : Run) :
    ((before ++ path :: path' :: after).foldl (h.step files) r).context =
      ((before ++ path' :: path :: after).foldl (h.step files) r).context := by
  have hlist (p q : String) : h.declarationsIn files (before ++ p :: q :: after) =
      h.declarationsIn files before ++
        ((h.declarationsIn files [p] ++ h.declarationsIn files [q]) ++
          h.declarationsIn files after) := by
    rw [← declarationsIn_append, ← declarationsIn_append, ← declarationsIn_append]
    rfl
  rw [foldl_step, foldl_step]
  simp only [hlist, Classifier.classifyAll_append _ (h.declarationsIn files before),
    Classifier.classifyAll_append _ _ (h.declarationsIn files after)]
  rw [(Classifier.Rearrangement.swap hindependent).classifyAll_eq]

end Harvester

/-- **Independent declarations commute.** Declarations that are put into another order, in which
conflicting ones still come in theirs, receive the same classes and leave the same context, from
whichever context they start. In particular two files without a conflict between them may be read
in either order. -/
theorem classifyAll_of_rearrangement :
    (∀ (k : Classifier) (c : Context) (ds es : List Declaration) (r : k.Rearrangement ds es),
      k.classifyAll ds c = k.classifyAll es c ∧
      ∀ i, k.classAt ds c i = k.classAt es c (r.place i)) ∧
    (∀ (h : Harvester) (files : Files.FileTree) (path path' : String),
      (∀ d ∈ h.declarationsIn files [path], ∀ e ∈ h.declarationsIn files [path'],
        ¬ h.classifier.Conflict d e) →
      ∀ (before after : List String) (r : Run),
        ((before ++ path :: path' :: after).foldl (h.step files) r).context =
          ((before ++ path' :: path :: after).foldl (h.step files) r).context) := by
  refine ⟨?_, ?_⟩
  · intro k c ds es r
    exact ⟨r.classifyAll_eq c, fun i => (r.classAt_place c i).symm⟩
  · intro h files path path' hindependent before after r
    exact h.context_foldl_step_swap files hindependent before after r

/-! ## A constant that nothing reads -/

/-- A harvester that finds one constant in every source, named like the source's whole text. -/
def constantOfSource : Harvester where
  parse source :=
    .node "variable_declarator"
      (.cons (some "name") (.leaf ⟨"identifier", true, false, "", source⟩)
        (.cons (some "value") (.leaf ⟨"string_literal", true, false, "", "\"x\""⟩) .nil))

/-- Two files, with the sources `A` and `B`. -/
def filesAandB : Files.FileTree where
  nodes := [(["A.java"], .file [0x41]), (["B.java"], .file [0x42])]

/-- The constant `B` may be declared before or after the constant `A` and the pattern that reads
`A`, and the files of the two constants may be read in either order. -/
theorem classifyAll_of_rearrangement_constant :
    ({} : Classifier).classifyAll
        [⟨"B", .literal "y", 1⟩, ⟨"A", .literal "x", 2⟩,
          ⟨"P", .call (some "Pattern") "compile" [.concat (.name "A") (.literal "+")], 3⟩] .empty =
      ({} : Classifier).classifyAll
        [⟨"A", .literal "x", 2⟩,
          ⟨"P", .call (some "Pattern") "compile" [.concat (.name "A") (.literal "+")], 3⟩,
          ⟨"B", .literal "y", 1⟩] .empty ∧
    (["A.java", "B.java"].foldl (constantOfSource.step filesAandB) { context := .empty }).context =
      (["B.java", "A.java"].foldl (constantOfSource.step filesAandB)
        { context := .empty }).context := by
  have hblocks : ∀ d ∈ [(⟨"B", .literal "y", 1⟩ : Declaration)],
      ∀ e ∈ [⟨"A", .literal "x", 2⟩,
        ⟨"P", .call (some "Pattern") "compile" [.concat (.name "A") (.literal "+")], 3⟩],
      ¬ ({} : Classifier).Conflict d e := by decide
  have hA : constantOfSource.declarationsIn filesAandB ["A.java"] = [⟨"A", .literal "x", 1⟩] := by
    rw [Harvester.declarationsIn_eq_map]
    rfl
  have hB : constantOfSource.declarationsIn filesAandB ["B.java"] = [⟨"B", .literal "x", 1⟩] := by
    rw [Harvester.declarationsIn_eq_map]
    rfl
  have hfiles : ∀ d ∈ constantOfSource.declarationsIn filesAandB ["A.java"],
      ∀ e ∈ constantOfSource.declarationsIn filesAandB ["B.java"],
      ¬ constantOfSource.classifier.Conflict d e := by
    rw [hA, hB]
    decide
  refine ⟨?_, ?_⟩
  · exact (classifyAll_of_rearrangement.1 {} .empty _ _
      (Classifier.Rearrangement.swap hblocks)).1
  · exact classifyAll_of_rearrangement.2 constantOfSource filesAandB "A.java" "B.java" hfiles [] []
      { context := .empty }

end PatternHarvest
