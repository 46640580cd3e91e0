import PatternHarvest.Harvest
import Mathlib.Data.String.Basic

/-!
# Any bytes are a text

`Utf8.decode` goes from byte to byte, and of a character that was begun it keeps only what the next
byte may be. It is held here to how characters are written: `Utf8.Lossy` says without a reader which
characters bytes stand for, and `Utf8.lossy_iff` that these are the ones that are read.

Between the two stands `Utf8.Begun`, which says of bytes that they lead the reader to the middle of
a character. Such bytes are the beginning of some character (`Begun.exists_encode`), and a byte goes
on with them exactly if some character begins with both (`Begun.continues_iff_isBeginning`). A byte
of ASCII never does, so it cuts the bytes in two that are read apart (`Utf8.decode_append_ascii`).
-/

namespace PatternHarvest

namespace Text.Utf8

/-! ## The reader as a recursion -/

/-- The characters that bytes stand for, from the middle of a reading. -/
def decodeFrom (pending : Option Started) (bs : List UInt8) : List Char :=
  (bs.foldl Decoder.step ⟨[], pending⟩).finish

/-- The characters that have been read only stand in front of those that are read later. -/
theorem finish_foldl_step (read : List Char) (pending : Option Started) (bs : List UInt8) :
    (bs.foldl Decoder.step ⟨read, pending⟩).finish = read.reverse ++ decodeFrom pending bs := by
  have hbegin (read : List Char) (b : UInt8) : Decoder.begin read b =
      ⟨(Decoder.begin [] b).read ++ read, (Decoder.begin [] b).pending⟩ := by
    unfold Decoder.begin
    cases first b <;> rfl
  have hstep (read : List Char) (pending : Option Started) (b : UInt8) :
      Decoder.step ⟨read, pending⟩ b =
        ⟨(Decoder.step ⟨[], pending⟩ b).read ++ read, (Decoder.step ⟨[], pending⟩ b).pending⟩ := by
    cases pending with
    | none => exact hbegin read b
    | some s =>
      simp only [Decoder.step]
      split
      next => cases s.more <;> rfl
      next =>
        rw [hbegin (replacement :: read), hbegin [replacement]]
        simp
  have hrun (read : List Char) (pending : Option Started) :
      bs.foldl Decoder.step ⟨read, pending⟩ = ⟨(bs.foldl Decoder.step ⟨[], pending⟩).read ++ read,
        (bs.foldl Decoder.step ⟨[], pending⟩).pending⟩ := by
    induction bs generalizing read pending with
    | nil => rfl
    | cons b bs ih =>
      rw [List.foldl_cons, List.foldl_cons, hstep read pending b, ih,
        ih (Decoder.step ⟨[], pending⟩ b).read]
      simp
  rw [hrun, decodeFrom, Decoder.finish, Decoder.finish]
  cases (bs.foldl Decoder.step ⟨[], pending⟩).pending <;> simp

theorem decode_eq (bs : List UInt8) : decode bs = decodeFrom none bs := rfl

theorem decodeFrom_none_cons (b : UInt8) (bs : List UInt8) :
    decodeFrom none (b :: bs) = match first b with
      | .char c => c :: decodeFrom none bs
      | .started s => decodeFrom (some s) bs
      | .invalid => replacement :: decodeFrom none bs := by
  have hstep : decodeFrom none (b :: bs) =
      (bs.foldl Decoder.step (Decoder.begin [] b)).finish := rfl
  rw [hstep, Decoder.begin]
  cases first b <;> exact finish_foldl_step _ _ bs

/-- Whether a byte continues a character that was begun. -/
def Started.Continues (s : Started) (b : UInt8) : Prop :=
  s.low ≤ b ∧ b ≤ s.high

/-- The character that was begun, with one more of its bytes; `more` are missing then, but one. -/
def Started.next (s : Started) (b : UInt8) (more : Nat) : Started :=
  ⟨more, 0x80, 0xBF, s.push b⟩

section

variable {s : Started} {b : UInt8}

theorem decodeFrom_of_last (hb : s.Continues b) (hmore : s.more = 0) (bs : List UInt8) :
    decodeFrom (some s) (b :: bs) = Char.ofNat (s.push b) :: decodeFrom none bs := by
  have hstep : Decoder.step ⟨[], some s⟩ b = ⟨[Char.ofNat (s.push b)], none⟩ := by
    simp only [Decoder.step, hmore]
    exact if_pos hb
  rw [decodeFrom, List.foldl_cons, hstep]
  exact finish_foldl_step _ _ bs

theorem decodeFrom_of_more (hb : s.Continues b) {more : Nat} (hmore : s.more = more + 1)
    (bs : List UInt8) :
    decodeFrom (some s) (b :: bs) = decodeFrom (some (s.next b more)) bs := by
  have hstep : Decoder.step ⟨[], some s⟩ b = ⟨[], some (s.next b more)⟩ := by
    simp only [Decoder.step, hmore]
    exact if_pos hb
  rw [decodeFrom, List.foldl_cons, hstep]
  rfl

theorem decodeFrom_of_stop (hb : ¬s.Continues b) (bs : List UInt8) :
    decodeFrom (some s) (b :: bs) = replacement :: decodeFrom none (b :: bs) := by
  have hstep : Decoder.step ⟨[], some s⟩ b = Decoder.step ⟨[replacement], none⟩ b := by
    simp only [Decoder.step]
    exact if_neg hb
  rw [decodeFrom, List.foldl_cons, hstep, ← List.foldl_cons]
  exact finish_foldl_step _ _ (b :: bs)

end

/-! ## Characters that were begun -/

/-- What a byte does where a character may begin, by the range it is in. -/
theorem first_cases (b : UInt8) :
    (b.toNat < 0x80 ∧ first b = .char (Char.ofNat b.toNat)) ∨
    (0xC2 ≤ b.toNat ∧ b.toNat < 0xE0 ∧ first b = .started ⟨0, 0x80, 0xBF, b.toNat % 0x20⟩) ∨
    (0xE0 ≤ b.toNat ∧ b.toNat < 0xF0 ∧ first b = .started ⟨1, if b = 0xE0 then 0xA0 else 0x80,
      if b = 0xED then 0x9F else 0xBF, b.toNat % 0x10⟩) ∨
    (0xF0 ≤ b.toNat ∧ b.toNat < 0xF5 ∧ first b = .started ⟨2, if b = 0xF0 then 0x90 else 0x80,
      if b = 0xF4 then 0x8F else 0xBF, b.toNat % 8⟩) ∨
    ((0x80 ≤ b.toNat ∧ b.toNat < 0xC2 ∨ 0xF5 ≤ b.toNat) ∧ first b = .invalid) := by
  unfold first
  simp only [UInt8.lt_iff_toNat_lt]
  split_ifs <;> simp_all

/-- The bytes `p` lead the reader, from where a character may begin, to the middle of one. -/
inductive Begun : List UInt8 → Started → Prop
  | first {b : UInt8} {s : Started} (hfirst : first b = .started s) : Begun [b] s
  | next {p : List UInt8} {s : Started} {b : UInt8} {more : Nat} (hbegun : Begun p s)
    (hmore : s.more = more + 1) (hb : s.Continues b) : Begun (p ++ [b]) (s.next b more)

namespace Begun

variable {p : List UInt8} {s : Started}

theorem ne_nil (h : Begun p s) : p ≠ [] := by
  cases h <;> simp

/-- The reader has read no character, and waits for the rest of one. -/
theorem foldl_step (h : Begun p s) : p.foldl Decoder.step {} = ⟨[], some s⟩ := by
  induction h with
  | @first b s hfirst =>
    show Decoder.begin [] b = _
    rw [Decoder.begin, hfirst]
  | @next p s b more hbegun hmore hb ih =>
    rw [List.foldl_append, ih]
    show Decoder.step ⟨[], some s⟩ b = _
    simp only [Decoder.step, hmore]
    exact if_pos hb

theorem decode_append (h : Begun p s) (bs : List UInt8) :
    decode (p ++ bs) = decodeFrom (some s) bs := by
  rw [decode, List.foldl_append, h.foldl_step]
  rfl

theorem unique {s' : Started} (h : Begun p s) (h' : Begun p s') : s = s' := by
  have hsame := h.foldl_step.symm.trans h'.foldl_step
  simpa using hsame

/-- A beginning of what was begun was itself begun, unless it is empty. -/
theorem of_prefix {q : List UInt8} (h : Begun p s) (hq : q <+: p) (hne : q ≠ []) :
    ∃ s, Begun q s := by
  induction h generalizing q with
  | @first b s hfirst =>
    rcases List.prefix_concat_iff.1 (List.nil_append [b] ▸ hq) with rfl | hq
    · exact ⟨s, .first hfirst⟩
    · exact absurd (List.prefix_nil.1 hq) hne
  | @next p s b more hbegun hmore hb ih =>
    rcases List.prefix_concat_iff.1 hq with rfl | hq
    · exact ⟨_, .next hbegun hmore hb⟩
    · exact ih hq hne

/-- What leads on with one more byte is continued by it. -/
theorem continues_of_concat {b : UInt8} {t : Started} (h : Begun p s) (ht : Begun (p ++ [b]) t) :
    s.Continues b := by
  generalize hq : p ++ [b] = q at ht
  cases ht with
  | first =>
    have hlength := congrArg List.length hq
    exact absurd (by simpa using hlength) h.ne_nil
  | next hbegun hmore hb =>
    obtain ⟨rfl, hbb⟩ := List.append_inj' hq rfl
    cases hbb
    rwa [h.unique hbegun]

/-- The bounds on the next byte keep out ASCII and leave room, and not too many bytes are
missing. -/
theorem bounds (h : Begun p s) : 0x80 ≤ s.low ∧ s.low ≤ s.high ∧ s.more + p.length ≤ 3 := by
  induction h with
  | @first b s hfirst =>
    rcases first_cases b with ⟨-, h⟩ | ⟨-, -, h⟩ | ⟨-, -, h⟩ | ⟨-, -, h⟩ | ⟨-, h⟩ <;>
      rw [h] at hfirst <;> cases hfirst
    · exact ⟨UInt8.le_refl _, (by decide : (0x80 : UInt8) ≤ 0xBF), by simp⟩
    · by_cases hlow : b = 0xE0
      · subst hlow
        decide
      · by_cases hhigh : b = 0xED
        · subst hhigh
          decide
        · simp [hlow, hhigh]
    · by_cases hlow : b = 0xF0
      · subst hlow
        decide
      · by_cases hhigh : b = 0xF4
        · subst hhigh
          decide
        · simp [hlow, hhigh]
  | @next p s b more hbegun hmore hb ih =>
    have hlength := ih.2.2
    refine ⟨UInt8.le_refl _, (by decide : (0x80 : UInt8) ≤ 0xBF), ?_⟩
    simp only [Started.next, List.length_append, List.length_singleton]
    omega

end Begun

/-! ## What a character is written as -/

theorem first_eq_char_iff {b : UInt8} {c : Char} :
    first b = .char c ↔ b.toNat < 0x80 ∧ c = Char.ofNat b.toNat := by
  rcases first_cases b with ⟨hb, h⟩ | ⟨hb, -, h⟩ | ⟨hb, -, h⟩ | ⟨hb, -, h⟩ | ⟨hb, h⟩ <;> rw [h]
  · simp [hb, eq_comm]
  all_goals
    refine ⟨nofun, fun hascii => ?_⟩
    omega

theorem first_of_two {b : UInt8} (hlow : 0xC2 ≤ b.toNat) (hhigh : b.toNat < 0xE0) :
    first b = .started ⟨0, 0x80, 0xBF, b.toNat % 0x20⟩ := by
  rcases first_cases b with ⟨h, -⟩ | ⟨-, -, h⟩ | ⟨h, -, -⟩ | ⟨h, -, -⟩ | ⟨h, -⟩
  · omega
  · exact h
  all_goals omega

theorem first_of_three {b : UInt8} (hlow : 0xE0 ≤ b.toNat) (hhigh : b.toNat < 0xF0) :
    first b = .started ⟨1, if b = 0xE0 then 0xA0 else 0x80, if b = 0xED then 0x9F else 0xBF,
      b.toNat % 0x10⟩ := by
  rcases first_cases b with ⟨h, -⟩ | ⟨-, h, -⟩ | ⟨-, -, h⟩ | ⟨h, -, -⟩ | ⟨h, -⟩
  · omega
  · omega
  · exact h
  all_goals omega

theorem first_of_four {b : UInt8} (hlow : 0xF0 ≤ b.toNat) (hhigh : b.toNat < 0xF5) :
    first b = .started ⟨2, if b = 0xF0 then 0x90 else 0x80, if b = 0xF4 then 0x8F else 0xBF,
      b.toNat % 8⟩ := by
  rcases first_cases b with ⟨h, -⟩ | ⟨-, h, -⟩ | ⟨-, h, -⟩ | ⟨-, -, h⟩ | ⟨h, -⟩
  · omega
  · omega
  · omega
  · exact h
  · omega

theorem continues_iff {s : Started} {b : UInt8} :
    s.Continues b ↔ s.low.toNat ≤ b.toNat ∧ b.toNat ≤ s.high.toNat := by
  rw [Started.Continues, UInt8.le_iff_toNat_le, UInt8.le_iff_toNat_le]

/-- The bytes `p` begin a character of which only the byte `b` is missing, and with it the character
is `c`. -/
def Finishes (p : List UInt8) (b : UInt8) (c : Char) : Prop :=
  ∃ s, Begun p s ∧ s.more = 0 ∧ s.Continues b ∧ Char.ofNat (s.push b) = c

/-- A byte in the middle or at the end of a character. -/
def IsTail (b : UInt8) : Prop :=
  0x80 ≤ b.toNat ∧ b.toNat ≤ 0xBF

/-- The bounds on the second byte of three: it keeps out what two bytes could say, and the
surrogates. -/
def IsSecondOfThree (a b : UInt8) : Prop :=
  (if a.toNat = 0xE0 then 0xA0 else 0x80) ≤ b.toNat ∧
    b.toNat ≤ if a.toNat = 0xED then 0x9F else 0xBF

/-- The bounds on the second byte of four: it keeps out what three bytes could say, and what lies
beyond the last character. -/
def IsSecondOfFour (a b : UInt8) : Prop :=
  (if a.toNat = 0xF0 then 0x90 else 0x80) ≤ b.toNat ∧
    b.toNat ≤ if a.toNat = 0xF4 then 0x8F else 0xBF

/-- The number of the character of two bytes. -/
def codeOfTwo (a b : UInt8) : Nat :=
  a.toNat % 0x20 * 0x40 + b.toNat % 0x40

/-- The number of the character of three bytes. -/
def codeOfThree (a b d : UInt8) : Nat :=
  (a.toNat % 0x10 * 0x40 + b.toNat % 0x40) * 0x40 + d.toNat % 0x40

/-- The number of the character of four bytes. -/
def codeOfFour (a b d e : UInt8) : Nat :=
  ((a.toNat % 8 * 0x40 + b.toNat % 0x40) * 0x40 + d.toNat % 0x40) * 0x40 + e.toNat % 0x40

section

variable {a b d e : UInt8}

theorem toNat_bound (a k x y : UInt8) :
    (if a = k then x else y).toNat = if a.toNat = k.toNat then x.toNat else y.toNat := by
  by_cases h : a = k
  · rw [if_pos h, if_pos (congrArg UInt8.toNat h)]
  · rw [if_neg h, if_neg (mt UInt8.toNat_inj.1 h)]

theorem continues_iff_isSecondOfThree {more value : Nat} :
    Started.Continues ⟨more, if a = 0xE0 then 0xA0 else 0x80, if a = 0xED then 0x9F else 0xBF,
      value⟩ b ↔ IsSecondOfThree a b := by
  rw [continues_iff]
  dsimp only
  rw [toNat_bound, toNat_bound]
  rfl

theorem continues_iff_isSecondOfFour {more value : Nat} :
    Started.Continues ⟨more, if a = 0xF0 then 0x90 else 0x80, if a = 0xF4 then 0x8F else 0xBF,
      value⟩ b ↔ IsSecondOfFour a b := by
  rw [continues_iff]
  dsimp only
  rw [toNat_bound, toNat_bound]
  rfl

theorem IsSecondOfThree.isTail (h : IsSecondOfThree a b) : IsTail b := by
  unfold IsSecondOfThree at h
  unfold IsTail
  split_ifs at h <;> omega

theorem IsSecondOfFour.isTail (h : IsSecondOfFour a b) : IsTail b := by
  unfold IsSecondOfFour at h
  unfold IsTail
  split_ifs at h <;> omega

theorem finishes_two (ha : 0xC2 ≤ a.toNat ∧ a.toNat < 0xE0) (hb : IsTail b) :
    Finishes [a] b (Char.ofNat (codeOfTwo a b)) :=
  ⟨_, .first (first_of_two ha.1 ha.2), rfl, continues_iff.2 hb, rfl⟩

theorem finishes_three (ha : 0xE0 ≤ a.toNat ∧ a.toNat < 0xF0) (hb : IsSecondOfThree a b)
    (hd : IsTail d) : Finishes [a, b] d (Char.ofNat (codeOfThree a b d)) := by
  have hbegun := Begun.first (first_of_three ha.1 ha.2)
  exact ⟨_, hbegun.next rfl (continues_iff_isSecondOfThree.2 hb), rfl, continues_iff.2 hd, rfl⟩

theorem finishes_four (ha : 0xF0 ≤ a.toNat ∧ a.toNat < 0xF5) (hb : IsSecondOfFour a b)
    (hd : IsTail d) (he : IsTail e) :
    Finishes [a, b, d] e (Char.ofNat (codeOfFour a b d e)) := by
  have hbegun := (Begun.first (first_of_four ha.1 ha.2)).next rfl
    (continues_iff_isSecondOfFour.2 hb)
  exact ⟨_, hbegun.next rfl (continues_iff.2 hd), rfl, continues_iff.2 he, rfl⟩

end

/-- Whatever finishes a character is of one of these three kinds. -/
theorem Finishes.cases {p : List UInt8} {z : UInt8} {c : Char} (h : Finishes p z c) :
    (∃ a, p = [a] ∧ (0xC2 ≤ a.toNat ∧ a.toNat < 0xE0) ∧ IsTail z ∧
      c = Char.ofNat (codeOfTwo a z)) ∨
    (∃ a b, p = [a, b] ∧ (0xE0 ≤ a.toNat ∧ a.toNat < 0xF0) ∧ IsSecondOfThree a b ∧ IsTail z ∧
      c = Char.ofNat (codeOfThree a b z)) ∨
    ∃ a b d, p = [a, b, d] ∧ (0xF0 ≤ a.toNat ∧ a.toNat < 0xF5) ∧ IsSecondOfFour a b ∧ IsTail d ∧
      IsTail z ∧ c = Char.ofNat (codeOfFour a b d z) := by
  obtain ⟨s, hbegun, hmore, hz, rfl⟩ := h
  cases hbegun with
  | @first a s hfirst =>
    rcases first_cases a with ⟨-, h⟩ | ⟨hlow, hhigh, h⟩ | ⟨-, -, h⟩ | ⟨-, -, h⟩ | ⟨-, h⟩ <;>
      rw [h] at hfirst <;> cases hfirst <;> cases hmore
    exact .inl ⟨a, rfl, ⟨hlow, hhigh⟩, continues_iff.1 hz, rfl⟩
  | @next q t d more hbegun hmore' hd =>
    cases hmore
    cases hbegun with
    | @first a s hfirst =>
      rcases first_cases a with ⟨-, h⟩ | ⟨-, -, h⟩ | ⟨hlow, hhigh, h⟩ | ⟨-, -, h⟩ | ⟨-, h⟩ <;>
        rw [h] at hfirst <;> cases hfirst <;> cases hmore'
      have hsecond : IsSecondOfThree a d := continues_iff_isSecondOfThree.1 hd
      exact .inr (.inl ⟨a, d, rfl, ⟨hlow, hhigh⟩, hsecond, continues_iff.1 hz, rfl⟩)
    | @next q t b more hbegun hmore hb =>
      cases hmore'
      cases hbegun with
      | @first a s hfirst =>
        rcases first_cases a with ⟨-, h⟩ | ⟨-, -, h⟩ | ⟨-, -, h⟩ | ⟨hlow, hhigh, h⟩ | ⟨-, h⟩ <;>
          rw [h] at hfirst <;> cases hfirst <;> cases hmore
        have hsecond : IsSecondOfFour a b := continues_iff_isSecondOfFour.1 hb
        exact .inr (.inr ⟨a, b, d, rfl, ⟨hlow, hhigh⟩, hsecond, continues_iff.1 hd,
          continues_iff.1 hz, rfl⟩)
      | @next q t a more hbegun hmore'' ha =>
        -- no character has more than four bytes
        have hthree : more = 1 + 1 := hmore
        have hbound := hbegun.bounds.2.2
        have hpos := List.length_pos_iff.2 hbegun.ne_nil
        omega

theorem toNat_val_ofNat {n : Nat} (h : n.isValidChar) : (Char.ofNat n).val.toNat = n := by
  rw [Char.ofNat, dif_pos h]
  exact UInt32.toNat_ofNatLT

section

variable {a b d e : UInt8}

theorem ofNat_eq {n : Nat} (h : n = a.toNat) : UInt8.ofNat n = a := by
  rw [h, UInt8.ofNat_toNat]

theorem encode_two (ha : 0xC2 ≤ a.toNat ∧ a.toNat < 0xE0) (hb : IsTail b) :
    String.utf8EncodeChar (Char.ofNat (codeOfTwo a b)) = [a, b] := by
  unfold IsTail at hb
  rw [String.utf8EncodeChar, toNat_val_ofNat (.inl (by unfold codeOfTwo; omega))]
  unfold codeOfTwo
  rw [if_neg (by omega), if_pos (by omega), ofNat_eq (a := a) (by omega),
    ofNat_eq (a := b) (by omega)]

theorem encode_three (ha : 0xE0 ≤ a.toNat ∧ a.toNat < 0xF0) (hb : IsSecondOfThree a b)
    (hd : IsTail d) : String.utf8EncodeChar (Char.ofNat (codeOfThree a b d)) = [a, b, d] := by
  have htail := hb.isTail
  unfold IsTail at hd htail
  have hrange : 0x800 ≤ codeOfThree a b d ∧ (codeOfThree a b d).isValidChar := by
    unfold IsSecondOfThree at hb
    unfold Nat.isValidChar codeOfThree
    split_ifs at hb <;> omega
  rw [String.utf8EncodeChar, toNat_val_ofNat hrange.2]
  unfold codeOfThree at hrange ⊢
  rw [if_neg (by omega), if_neg (by omega), if_pos (by omega), ofNat_eq (a := a) (by omega),
    ofNat_eq (a := b) (by omega), ofNat_eq (a := d) (by omega)]

theorem encode_four (ha : 0xF0 ≤ a.toNat ∧ a.toNat < 0xF5) (hb : IsSecondOfFour a b)
    (hd : IsTail d) (he : IsTail e) :
    String.utf8EncodeChar (Char.ofNat (codeOfFour a b d e)) = [a, b, d, e] := by
  have htail := hb.isTail
  unfold IsTail at hd he htail
  have hrange : 0x10000 ≤ codeOfFour a b d e ∧ (codeOfFour a b d e).isValidChar := by
    unfold IsSecondOfFour at hb
    unfold Nat.isValidChar codeOfFour
    split_ifs at hb <;> omega
  rw [String.utf8EncodeChar, toNat_val_ofNat hrange.2]
  unfold codeOfFour at hrange ⊢
  rw [if_neg (by omega), if_neg (by omega), if_neg (by omega), ofNat_eq (a := a) (by omega),
    ofNat_eq (a := b) (by omega), ofNat_eq (a := d) (by omega), ofNat_eq (a := e) (by omega)]

end

/-- The bytes of a character that was begun and finished are those it is written as. -/
theorem Finishes.encode_eq {p : List UInt8} {b : UInt8} {c : Char} (h : Finishes p b c) :
    String.utf8EncodeChar c = p ++ [b] := by
  rcases h.cases with ⟨a, rfl, ha, hb, rfl⟩ | ⟨a, d, rfl, ha, hd, hb, rfl⟩ |
    ⟨a, d, e, rfl, ha, hd, he, hb, rfl⟩
  · exact encode_two ha hb
  · exact encode_three ha hd hb
  · exact encode_four ha hd he hb

/-- Every character but those of ASCII is begun by all its bytes but the last, which finishes it. -/
theorem exists_finishes {c : Char} (hc : 0x80 ≤ c.val.toNat) :
    ∃ p b, String.utf8EncodeChar c = p ++ [b] ∧ Finishes p b c := by
  have hvalid : c.val.toNat < 0xD800 ∨ 0xDFFF < c.val.toNat ∧ c.val.toNat < 0x110000 := c.valid
  have hchar : Char.ofNat c.val.toNat = c := Char.ofNat_toNat c
  have htoNat (m : Nat) (hm : m < 256) : (UInt8.ofNat m).toNat = m := by
    simpa using hm
  rw [String.utf8EncodeChar]
  generalize c.val.toNat = n at *
  subst hchar
  have hlast (m : Nat) : (UInt8.ofNat (m % 64 + 128)).toNat = m % 64 + 128 := htoNat _ (by omega)
  have htail (m : Nat) : IsTail (UInt8.ofNat (m % 64 + 128)) := by
    rw [IsTail, hlast]
    omega
  split_ifs with hone htwo hthree
  · omega
  · have ha := htoNat (n / 64 % 32 + 192) (by omega)
    have h := finishes_two (a := .ofNat (n / 64 % 32 + 192)) (by omega) (htail n)
    have hn : (n / 64 % 32 + 192) % 0x20 * 0x40 + (n % 64 + 128) % 0x40 = n := by omega
    rw [codeOfTwo, ha, hlast, hn] at h
    exact ⟨_, _, rfl, h⟩
  · have ha := htoNat (n / 4096 % 16 + 224) (by omega)
    have h := finishes_three (a := .ofNat (n / 4096 % 16 + 224))
      (b := .ofNat (n / 64 % 64 + 128)) (by omega)
      (by rw [IsSecondOfThree, ha, hlast]; split_ifs <;> omega) (htail n)
    have hn : ((n / 4096 % 16 + 224) % 0x10 * 0x40 + (n / 64 % 64 + 128) % 0x40) * 0x40 +
        (n % 64 + 128) % 0x40 = n := by omega
    rw [codeOfThree, ha, hlast, hlast, hn] at h
    exact ⟨_, _, rfl, h⟩
  · have ha := htoNat (n / 262144 % 8 + 240) (by omega)
    have h := finishes_four (a := .ofNat (n / 262144 % 8 + 240))
      (b := .ofNat (n / 4096 % 64 + 128)) (by omega)
      (by rw [IsSecondOfFour, ha, hlast]; split_ifs <;> omega) (htail (n / 64)) (htail n)
    have hn : (((n / 262144 % 8 + 240) % 8 * 0x40 + (n / 4096 % 64 + 128) % 0x40) * 0x40 +
        (n / 64 % 64 + 128) % 0x40) * 0x40 + (n % 64 + 128) % 0x40 = n := by omega
    rw [codeOfFour, ha, hlast, hlast, hlast, hn] at h
    exact ⟨_, _, rfl, h⟩

/-- An ASCII byte stands for the character of its number. -/
theorem encode_ascii {b : UInt8} (hb : b.toNat < 0x80) :
    String.utf8EncodeChar (Char.ofNat b.toNat) = [b] := by
  rw [String.utf8EncodeChar, toNat_val_ofNat (.inl (by omega)), if_pos (by omega),
    UInt8.ofNat_toNat]

theorem encode_cases (c : Char) :
    (∃ b : UInt8, b.toNat < 0x80 ∧ c = Char.ofNat b.toNat) ∨
    0x80 ≤ c.toNat ∧ ∃ p b, String.utf8EncodeChar c = p ++ [b] ∧ Finishes p b c := by
  rcases lt_or_ge c.toNat 0x80 with hc | hc
  · have hb : (UInt8.ofNat c.toNat).toNat = c.toNat := by
      simp
      omega
    exact .inl ⟨UInt8.ofNat c.toNat, lt_of_eq_of_lt hb hc, by rw [hb, Char.ofNat_toNat]⟩
  · exact .inr ⟨hc, exists_finishes hc⟩

/-! ## What begins a character -/

/-- Some character begins with these bytes. -/
def IsBeginning (p : List UInt8) : Prop :=
  ∃ c : Char, p <+: String.utf8EncodeChar c

theorem isBeginning_of_encode {p : List UInt8} {c : Char} (h : String.utf8EncodeChar c = p) :
    IsBeginning p :=
  ⟨c, [], (List.append_nil p).trans h.symm⟩

/-- What was begun can be finished. The induction is on the number of bytes that are missing. -/
theorem Begun.exists_encode {p : List UInt8} {s : Started} (h : Begun p s) :
    ∃ c : Char, p <+: String.utf8EncodeChar c ∧ p ≠ String.utf8EncodeChar c := by
  have hlow : s.Continues s.low := ⟨UInt8.le_refl _, h.bounds.2.1⟩
  generalize hmore : s.more = more
  induction more generalizing p s with
  | zero =>
    have hfinishes : Finishes p s.low (Char.ofNat (s.push s.low)) := ⟨s, h, hmore, hlow, rfl⟩
    refine ⟨Char.ofNat (s.push s.low), ?_⟩
    rw [hfinishes.encode_eq]
    exact ⟨List.prefix_append p [s.low], by simp⟩
  | succ more ih =>
    have hnext := h.next hmore hlow
    obtain ⟨c, hbegins, -⟩ := ih hnext ⟨UInt8.le_refl _, hnext.bounds.2.1⟩ rfl
    have hp : p <+: String.utf8EncodeChar c := (List.prefix_append p [s.low]).trans hbegins
    refine ⟨c, hp, ?_⟩
    rintro rfl
    have hlength := hbegins.length_le
    simp at hlength

/-- A part of a character's bytes, from the first on, was begun. -/
theorem exists_begun {p : List UInt8} {c : Char} (hp : p <+: String.utf8EncodeChar c) (hne : p ≠ [])
    (hproper : p ≠ String.utf8EncodeChar c) : ∃ s, Begun p s := by
  rcases encode_cases c with ⟨b, hb, rfl⟩ | ⟨-, q, b, hencode, s, hbegun, -⟩
  · rw [encode_ascii hb] at hp hproper
    rcases List.prefix_concat_iff.1 (List.nil_append [b] ▸ hp) with heq | hnil
    · exact absurd heq hproper
    · exact absurd (List.prefix_nil.1 hnil) hne
  · rw [hencode] at hp hproper
    rcases List.prefix_concat_iff.1 hp with heq | hq
    · exact absurd heq hproper
    · exact hbegun.of_prefix hq hne

/-- A byte continues what was begun exactly if some character begins with both. -/
theorem Begun.continues_iff_isBeginning {p : List UInt8} {s : Started} (h : Begun p s) (b : UInt8) :
    s.Continues b ↔ IsBeginning (p ++ [b]) := by
  constructor
  · intro hb
    cases hmore : s.more with
    | zero =>
      have hfinishes : Finishes p b (Char.ofNat (s.push b)) := ⟨s, h, hmore, hb, rfl⟩
      exact isBeginning_of_encode hfinishes.encode_eq
    | succ more =>
      obtain ⟨c, hbegins, -⟩ := (h.next hmore hb).exists_encode
      exact ⟨c, hbegins⟩
  · rintro ⟨c, hbegins⟩
    by_cases hwhole : p ++ [b] = String.utf8EncodeChar c
    · rcases encode_cases c with ⟨a, ha, rfl⟩ | ⟨-, q, a, hencode, t, hbegun, -, hb, -⟩
      · rw [encode_ascii ha] at hwhole
        have hlength := congrArg List.length hwhole
        exact absurd (by simpa using hlength) h.ne_nil
      · rw [hencode] at hwhole
        obtain ⟨rfl, hba⟩ := List.append_inj' hwhole rfl
        cases hba
        rwa [h.unique hbegun]
    · obtain ⟨t, ht⟩ := exists_begun hbegins (by simp) hwhole
      exact h.continues_of_concat ht

theorem first_eq_invalid_iff {b : UInt8} : first b = .invalid ↔ ¬IsBeginning [b] := by
  constructor
  · rintro hfirst ⟨c, hbegins⟩
    by_cases hwhole : [b] = String.utf8EncodeChar c
    · rcases encode_cases c with ⟨a, ha, rfl⟩ | ⟨-, q, a, hencode, s, hbegun, -⟩
      · rw [encode_ascii ha] at hwhole
        cases hwhole
        cases hfirst.symm.trans (first_eq_char_iff.2 ⟨ha, rfl⟩)
      · rw [hencode] at hwhole
        have hlength := congrArg List.length hwhole
        exact absurd (by simpa using hlength) hbegun.ne_nil
    · obtain ⟨s, hs⟩ := exists_begun hbegins (by simp) hwhole
      have hread : Decoder.begin [] b = ⟨[], some s⟩ := hs.foldl_step
      rw [Decoder.begin, hfirst] at hread
      cases hread
  · intro h
    cases hfirst : first b with
    | char c =>
      obtain ⟨hb, rfl⟩ := first_eq_char_iff.1 hfirst
      exact absurd (isBeginning_of_encode (encode_ascii hb)) h
    | started s =>
      obtain ⟨c, hbegins, -⟩ := (Begun.first hfirst).exists_encode
      exact absurd ⟨c, hbegins⟩ h
    | invalid => rfl

/-! ## Bytes and the characters they stand for -/

/-- The characters `cs` stand for the bytes: each character for the bytes that it is written as, and
between them one replacement for the longest beginning of a character that does not go on, or for a
byte with which no character begins. -/
inductive Lossy : List UInt8 → List Char → Prop
  | nil : Lossy [] []
  | char {bs : List UInt8} {cs : List Char} (c : Char) (hrest : Lossy bs cs) :
    Lossy (String.utf8EncodeChar c ++ bs) (c :: cs)
  | cut {p bs : List UInt8} {cs : List Char} (hne : p ≠ []) {c : Char}
    (hbegins : p <+: String.utf8EncodeChar c) (hproper : p ≠ String.utf8EncodeChar c)
    (hstop : ∀ b ∈ bs.head?, ¬IsBeginning (p ++ [b])) (hrest : Lossy bs cs) :
    Lossy (p ++ bs) (replacement :: cs)
  | stray {b : UInt8} {bs : List UInt8} {cs : List Char} (hb : ¬IsBeginning [b])
    (hrest : Lossy bs cs) : Lossy (b :: bs) (replacement :: cs)

theorem decode_encode_append (c : Char) (bs : List UInt8) :
    decode (String.utf8EncodeChar c ++ bs) = c :: decode bs := by
  rcases encode_cases c with ⟨b, hb, rfl⟩ | ⟨-, p, b, hencode, s, hbegun, hmore, hb, hchar⟩
  · rw [encode_ascii hb, List.singleton_append, decode_eq, decodeFrom_none_cons,
      first_eq_char_iff.2 ⟨hb, rfl⟩]
    rfl
  · rw [hencode, List.append_assoc, hbegun.decode_append, List.singleton_append,
      decodeFrom_of_last hb hmore, hchar]
    rfl

/-- Text comes back from the bytes it is written as. -/
theorem decode_encode (s : List Char) : decode (encode s) = s := by
  induction s with
  | nil => rfl
  | cons c s ih =>
    have hcons : encode (c :: s) = String.utf8EncodeChar c ++ encode s := List.flatMap_cons
    rw [hcons, decode_encode_append, ih]

theorem Lossy.decode_eq {bs : List UInt8} {cs : List Char} (h : Lossy bs cs) : decode bs = cs := by
  induction h with
  | nil => rfl
  | char c _ ih => rw [decode_encode_append, ih]
  | @cut p bs cs hne c hbegins hproper hstop _ ih =>
    obtain ⟨s, hbegun⟩ := exists_begun hbegins hne hproper
    rw [hbegun.decode_append, ← ih]
    cases bs with
    | nil => rfl
    | cons b bs =>
      have hb : ¬s.Continues b := by
        rw [hbegun.continues_iff_isBeginning]
        exact hstop b rfl
      exact decodeFrom_of_stop hb bs
  | @stray b bs cs hb _ ih =>
    rw [Utf8.decode_eq, decodeFrom_none_cons, first_eq_invalid_iff.2 hb, ← ih]
    rfl

/-- Any bytes stand for some characters. The induction is on the bytes that have not been read; with
`p` read, the middle of a character has been reached. -/
theorem lossy_decodeFrom (bs : List UInt8) : Lossy bs (decodeFrom none bs) ∧
    ∀ p s, Begun p s → Lossy (p ++ bs) (decodeFrom (some s) bs) := by
  induction bs with
  | nil =>
    refine ⟨.nil, fun p s hbegun => ?_⟩
    obtain ⟨c, hbegins, hproper⟩ := hbegun.exists_encode
    exact .cut hbegun.ne_nil hbegins hproper nofun .nil
  | cons b bs ih =>
    have hnone : Lossy (b :: bs) (decodeFrom none (b :: bs)) := by
      rw [decodeFrom_none_cons]
      cases hfirst : first b with
      | char c =>
        obtain ⟨hb, rfl⟩ := first_eq_char_iff.1 hfirst
        rw [← List.singleton_append, ← encode_ascii hb]
        exact .char _ ih.1
      | started s => exact ih.2 [b] s (.first hfirst)
      | invalid => exact .stray (first_eq_invalid_iff.1 hfirst) ih.1
    refine ⟨hnone, fun p s hbegun => ?_⟩
    by_cases hb : s.Continues b
    · have hsplit : p ++ b :: bs = p ++ [b] ++ bs := by simp
      rw [hsplit]
      cases hmore : s.more with
      | zero =>
        have hfinishes : Finishes p b (Char.ofNat (s.push b)) := ⟨s, hbegun, hmore, hb, rfl⟩
        rw [decodeFrom_of_last hb hmore, ← hfinishes.encode_eq]
        exact .char _ ih.1
      | succ more =>
        rw [decodeFrom_of_more hb hmore]
        exact ih.2 _ _ (hbegun.next hmore hb)
    · obtain ⟨c, hbegins, hproper⟩ := hbegun.exists_encode
      rw [decodeFrom_of_stop hb]
      refine .cut hbegun.ne_nil hbegins hproper ?_ hnone
      rintro a ⟨⟩
      rwa [← hbegun.continues_iff_isBeginning]

theorem lossy_iff {bs : List UInt8} {cs : List Char} : Lossy bs cs ↔ decode bs = cs :=
  ⟨Lossy.decode_eq, fun h => h ▸ (lossy_decodeFrom bs).1⟩

/-! ## ASCII -/

/-- An ASCII byte is read as the character of its number whatever comes before it, and what comes
before it is read as if the text ended there. -/
theorem decode_append_ascii (bs₁ bs₂ : List UInt8) {b : UInt8} (hb : b.toNat < 0x80) :
    decode (bs₁ ++ b :: bs₂) = decode bs₁ ++ Char.ofNat b.toNat :: decode bs₂ := by
  have hascii : decodeFrom none (b :: bs₂) = Char.ofNat b.toNat :: decodeFrom none bs₂ := by
    rw [decodeFrom_none_cons, first_eq_char_iff.2 ⟨hb, rfl⟩]
  have hstop {p : List UInt8} {s : Started} (h : Begun p s) : ¬s.Continues b := by
    have hlow := h.bounds.1
    rw [UInt8.le_iff_toNat_le] at hlow
    have hleast : (0x80 : UInt8).toNat = 0x80 := rfl
    rw [continues_iff]
    omega
  have hboth : decodeFrom none (bs₁ ++ b :: bs₂) =
        decodeFrom none bs₁ ++ Char.ofNat b.toNat :: decodeFrom none bs₂ ∧
      ∀ p s, Begun p s → decodeFrom (some s) (bs₁ ++ b :: bs₂) =
        decodeFrom (some s) bs₁ ++ Char.ofNat b.toNat :: decodeFrom none bs₂ := by
    induction bs₁ with
    | nil =>
      refine ⟨hascii, fun p s h => ?_⟩
      rw [List.nil_append, decodeFrom_of_stop (hstop h), hascii]
      rfl
    | cons a bs₁ ih =>
      have hnone : decodeFrom none (a :: (bs₁ ++ b :: bs₂)) =
          decodeFrom none (a :: bs₁) ++ Char.ofNat b.toNat :: decodeFrom none bs₂ := by
        rw [decodeFrom_none_cons, decodeFrom_none_cons]
        cases hfirst : first a with
        | char c => exact congrArg (c :: ·) ih.1
        | started s => exact ih.2 [a] s (.first hfirst)
        | invalid => exact congrArg (replacement :: ·) ih.1
      refine ⟨hnone, fun p s h => ?_⟩
      rw [List.cons_append]
      by_cases ha : s.Continues a
      · cases hmore : s.more with
        | zero =>
          rw [decodeFrom_of_last ha hmore, decodeFrom_of_last ha hmore, ih.1]
          rfl
        | succ more =>
          rw [decodeFrom_of_more ha hmore, decodeFrom_of_more ha hmore]
          exact ih.2 _ _ (h.next hmore ha)
      · rw [decodeFrom_of_stop ha, decodeFrom_of_stop ha, hnone]
        rfl
  exact hboth.1

/-- No byte of a character outside ASCII is in ASCII. -/
theorem Begun.not_ascii {p : List UInt8} {s : Started} (h : Begun p s) :
    ∀ b ∈ p, 0x80 ≤ b.toNat := by
  induction h with
  | @first b s hfirst =>
    rw [List.forall_mem_singleton]
    by_contra hb
    cases hfirst.symm.trans (first_eq_char_iff.2 ⟨by omega, rfl⟩)
  | @next p s b more hbegun hmore hb ih =>
    rw [List.forall_mem_append, List.forall_mem_singleton]
    exact ⟨ih, UInt8.le_iff_toNat_le.1 (UInt8.le_trans hbegun.bounds.1 hb.1)⟩

theorem not_ascii_of_mem_encode {c : Char} (hc : 0x80 ≤ c.toNat) :
    ∀ b ∈ String.utf8EncodeChar c, 0x80 ≤ b.toNat := by
  obtain ⟨p, b, hencode, s, hbegun, -, hb, -⟩ := exists_finishes hc
  rw [hencode, List.forall_mem_append, List.forall_mem_singleton]
  exact ⟨hbegun.not_ascii, UInt8.le_iff_toNat_le.1 (UInt8.le_trans hbegun.bounds.1 hb.1)⟩

/-- The ASCII characters of a text are the ASCII bytes that it is read from, in their order. -/
theorem filter_ascii_decode (bs : List UInt8) :
    (decode bs).filter (fun c => c.toNat < 0x80) =
      (bs.filter fun b => b.toNat < 0x80).map fun b => Char.ofNat b.toNat := by
  have hskip {p : List UInt8} (hp : ∀ b ∈ p, 0x80 ≤ b.toNat) :
      p.filter (fun b => b.toNat < 0x80) = [] := by
    rw [List.filter_eq_nil_iff]
    intro b hb
    simpa using hp b hb
  have hreplacement : ¬replacement.toNat < 0x80 := by decide
  have hlossy : Lossy bs (decode bs) := lossy_iff.2 rfl
  generalize decode bs = cs at hlossy ⊢
  induction hlossy with
  | nil => rfl
  | @char bs cs c _ ih =>
    rw [List.filter_append, List.map_append, ← ih]
    rcases encode_cases c with ⟨b, hb, rfl⟩ | ⟨hc, -⟩
    · have hc : (Char.ofNat b.toNat).toNat = b.toNat := toNat_val_ofNat (.inl (by omega))
      rw [encode_ascii hb]
      simp [hb, hc]
    · rw [hskip (not_ascii_of_mem_encode hc), List.filter_cons_of_neg (by simpa using hc)]
      rfl
  | @cut p bs cs hne c hbegins hproper _ _ ih =>
    obtain ⟨s, hbegun⟩ := exists_begun hbegins hne hproper
    rw [List.filter_append, hskip hbegun.not_ascii, List.nil_append, ← ih]
    simp [hreplacement]
  | @stray b bs cs hb _ ih =>
    have hhigh : ¬b.toNat < 0x80 := by
      intro hlow
      exact hb (isBeginning_of_encode (encode_ascii hlow))
    simp [hreplacement, hhigh, ih]

end Text.Utf8

/-! ## Files -/

namespace Harvester

open Files Text

/-- **Any file is a text.** What is harvested from a file comes of the text that its bytes stand for
and of nothing else, and a file that was written as UTF-8 gives what its text gives. A character
stands for the bytes it is written as, and one replacement for each longest piece of a character
that does not go on and for each byte with which none begins. An ASCII byte cuts the bytes in two
that are read apart from each other, so the ASCII characters of the text are the ASCII bytes of the
file, one for one. -/
theorem harvestFile_decodes (h : Harvester) (files : FileTree) (path : String) (c : Context) :
    (∀ s : String, files.read path = .ok (Utf8.bytes s) →
      h.harvestFile files path c = h.harvestSource s path c) ∧
    (∀ bs, files.read path = .ok bs →
      h.harvestFile files path c = h.harvestSource (Utf8.text bs) path c) ∧
    (∀ (bs₁ bs₂ : List UInt8) (b : UInt8), b < 0x80 → Utf8.text (bs₁ ++ b :: bs₂) =
      Utf8.text bs₁ ++ String.singleton (Char.ofNat b.toNat) ++ Utf8.text bs₂) ∧
    (∀ bs cs, Utf8.Lossy bs cs ↔ Utf8.text bs = String.ofList cs) ∧
    ∀ bs, (Utf8.text bs).toList.filter (fun c => c.toNat < 0x80) =
      (bs.filter fun b => b < 0x80).map fun b => Char.ofNat b.toNat := by
  have htext (bs : List UInt8) (hbs : files.read path = .ok bs) :
      h.harvestFile files path c = h.harvestSource (Utf8.text bs) path c := by
    rw [harvestFile, hbs]
  refine ⟨fun s hs => ?_, htext, fun bs₁ bs₂ b hb => ?_, fun bs cs => ?_, fun bs => ?_⟩
  · rw [htext _ hs, Utf8.text, Utf8.bytes, Utf8.decode_encode, String.ofList_toList]
  · rw [UInt8.lt_iff_toNat_lt] at hb
    rw [Utf8.text, Utf8.decode_append_ascii bs₁ bs₂ hb, ← String.toList_inj]
    simp [Utf8.text]
  · rw [Utf8.lossy_iff, Utf8.text, String.ofList_inj]
  · rw [Utf8.text, String.toList_ofList, Utf8.filter_ascii_decode]
    simp only [UInt8.lt_iff_toNat_lt]
    rfl

/-- A source with a comment in Latin-1: its last letter is no UTF-8. -/
def latinSource : FileTree where
  nodes := [(["L.java"], .file [0x2F, 0x2F, 0xE9, 0x0A, 0x7D])]

/-- The letter is replaced, and neither the end of the line nor the brace behind it is lost. -/
theorem harvestFile_decodes_latin :
    latinSource.read "L.java" = .ok ([0x2F, 0x2F, 0xE9] ++ 0x0A :: [0x7D]) ∧
    ({} : Harvester).harvestFile latinSource "L.java" .empty =
      ({} : Harvester).harvestSource "//\uFFFD\n\x7d" "L.java" .empty := by
  obtain ⟨-, hfile, hascii, -, -⟩ := harvestFile_decodes {} latinSource "L.java" .empty
  have hread : latinSource.read "L.java" = .ok ([0x2F, 0x2F, 0xE9] ++ 0x0A :: [0x7D]) := rfl
  refine ⟨hread, ?_⟩
  rw [hfile _ hread, hascii _ _ _ (by decide)]
  rfl

end Harvester

end PatternHarvest
