import PatternHarvest.Files.Walk
import PatternHarvest.Text.Utf8
import Mathlib.Data.String.Basic

/-!
# The order of names

The files that a walk finds are put in the order of the names that lead to them, and names are
compared by their characters. Their bytes compare in the same way (`Utf8.bytes_lt_bytes`): the first
byte of a character tells how many follow, more for a later character, and otherwise the bits of the
character come in the bytes from the highest to the lowest. So trails that differ come out in the
order of the bytes of their names, name by name (`FileTree.pairwise_mergeSort_namesBefore`).
-/

namespace PatternHarvest

namespace Text.Utf8

/-- The bytes of a character come before those of a later one, whatever follows. -/
theorem utf8EncodeChar_append_lt {c d : Char} (h : c < d) (s u : List UInt8) :
    String.utf8EncodeChar c ++ s < String.utf8EncodeChar d ++ u := by
  have hlt : c.val.toNat < d.val.toNat := UInt32.lt_iff_toNat_lt.1 (Char.lt_def.1 h)
  have hmax : d.val.toNat < 0x110000 := by
    have hvalid := d.valid
    simp only [UInt32.isValidChar, Nat.isValidChar] at hvalid
    omega
  simp only [String.utf8EncodeChar]
  generalize c.val.toNat = m at *
  generalize d.val.toNat = n at *
  split_ifs <;>
    simp only [List.cons_append, List.nil_append, List.cons_lt_cons_iff, UInt8.lt_iff_toNat_lt,
      ← UInt8.toNat_inj, UInt8.toNat_ofNat'] <;>
    simp (disch := omega) only [Nat.mod_eq_of_lt] <;>
    omega

theorem encode_lt_encode {s u : List Char} (h : s < u) : encode s < encode u := by
  induction h with
  | @nil c u =>
    obtain ⟨b, bs, hbs⟩ : ∃ b bs, encode (c :: u) = b :: bs := by
      refine List.exists_cons_of_ne_nil ?_
      simp [encode]
    rw [hbs]
    exact List.Lex.nil
  | rel h => exact utf8EncodeChar_append_lt h _ _
  | cons _ ih => exact List.append_left_lt ih

/-- The bytes of texts compare as their characters do. -/
theorem bytes_lt_bytes {a b : String} (h : a < b) : bytes a < bytes b :=
  encode_lt_encode (String.lt_iff_toList_lt.1 h)

end Text.Utf8

namespace Files.FileTree

theorem namesBefore_iff {as bs : List String} : namesBefore as bs = true ↔ ¬bs < as := by
  induction as generalizing bs with
  | nil => simp [namesBefore]
  | cons a as ih =>
    cases bs with
    | nil => simp [namesBefore]
    | cons b bs =>
      rw [namesBefore, List.cons_lt_cons_iff]
      split
      next h => simp [h, ih]
      next h =>
        have hne : ¬(b = a ∧ bs < as) := fun hba => h hba.1.symm
        rw [decide_eq_true_iff, or_iff_left hne, not_lt]
        exact ⟨le_of_lt, fun hle => lt_of_le_of_ne hle h⟩

/-- Different trails come out in strict order, that of the bytes of their names. -/
theorem pairwise_mergeSort_namesBefore {l : List (List String)} (h : l.Nodup) :
    (l.mergeSort namesBefore).Pairwise fun as bs =>
      as.map Text.Utf8.bytes < bs.map Text.Utf8.bytes := by
  have hsorted : (l.mergeSort namesBefore).Pairwise fun as bs => namesBefore as bs = true := by
    refine List.pairwise_mergeSort (fun as bs cs hab hbc => ?_) (fun as bs => ?_) l
    · rw [namesBefore_iff] at hab hbc ⊢
      exact not_lt.2 ((not_lt.1 hab).trans (not_lt.1 hbc))
    · rw [Bool.or_eq_true, namesBefore_iff, namesBefore_iff]
      exact (le_total as bs).imp not_lt.2 not_lt.2
  have hnodup : (l.mergeSort namesBefore).Nodup := (List.mergeSort_perm l namesBefore).nodup_iff.2 h
  refine (hsorted.and hnodup).imp fun {as bs} ⟨hle, hne⟩ => ?_
  have hlt : as < bs := lt_of_le_of_ne (not_lt.1 (namesBefore_iff.1 hle)) hne
  exact List.map_lt (fun _ _ => Text.Utf8.bytes_lt_bytes) hlt

end Files.FileTree

end PatternHarvest
