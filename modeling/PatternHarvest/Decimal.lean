/-!
# Decimals beyond the doubles

A decimal numeral may name a number that no finite double is near. `Decimal.overflows` decides
this in exact arithmetic (`Decimal.overflows_iff`), without ever raising ten to a power that the
length of the digits does not justify.
-/

namespace PatternHarvest

/-- The number `digits * 10 ^ exponent`. -/
structure Decimal where
  digits : Nat
  exponent : Int
  deriving DecidableEq, Repr

namespace Decimal

/-- The least number that rounds to an infinite double: halfway between the largest finite double
and the next power of two, a tie that goes away from the odd mantissa. -/
def infinity : Nat := (1 <<< 1024) - (1 <<< 970)

/-- Whether the number rounds to an infinite double. -/
def overflows (d : Decimal) : Bool :=
  match d.exponent with
  | .ofNat k => d.digits ≠ 0 && (309 ≤ k || infinity ≤ d.digits * Nat.pow 10 k)
  | .negSucc k => k < d.digits.log2 && infinity * Nat.pow 10 (k + 1) ≤ d.digits

theorem infinity_le : infinity ≤ Nat.pow 10 309 := by decide +kernel

theorem infinity_pos : 0 < infinity := by decide +kernel

/-- The quick tests only spare work: the verdict is the comparison itself. -/
theorem overflows_iff (d : Decimal) :
    d.overflows = true ↔
      infinity * Nat.pow 10 (-d.exponent).toNat ≤ d.digits * Nat.pow 10 d.exponent.toNat := by
  obtain ⟨n, e⟩ := d
  cases e with
  | ofNat k =>
    have hneg : (-(Int.ofNat k)).toNat = 0 := by simp
    have hpos : (Int.ofNat k).toNat = k := rfl
    simp only [overflows, hneg, hpos, Nat.pow_eq, Nat.pow_zero, Nat.mul_one, Bool.and_eq_true,
      Bool.or_eq_true, decide_eq_true_eq]
    constructor
    · rintro ⟨hn, hk | h⟩
      · have hpow := Nat.pow_le_pow_right (show 0 < 10 by decide) hk
        exact Nat.le_trans (Nat.le_trans infinity_le hpow)
          (Nat.le_mul_of_pos_left _ (Nat.pos_of_ne_zero hn))
      · exact h
    · refine fun h => ⟨fun hn => ?_, .inr h⟩
      subst hn
      have := infinity_pos
      omega
  | negSucc k =>
    have hneg : (-(Int.negSucc k)).toNat = k + 1 := rfl
    have hpos : (Int.negSucc k).toNat = 0 := rfl
    simp only [overflows, hneg, hpos, Nat.pow_eq, Nat.pow_zero, Nat.mul_one, Bool.and_eq_true,
      decide_eq_true_eq, and_iff_right_iff_imp]
    intro h
    have hle : Nat.pow 10 (k + 1) ≤ n :=
      Nat.le_trans (Nat.le_mul_of_pos_left _ infinity_pos) h
    have hn : n ≠ 0 := by
      intro h0
      subst h0
      exact absurd hle (Nat.not_le.2 (Nat.pow_pos (by decide)))
    have h2 : Nat.pow 2 (k + 1) ≤ n :=
      Nat.le_trans (Nat.pow_le_pow_left (by decide) _) hle
    exact (Nat.le_log2 hn).2 h2

end Decimal

/-- The value of a decimal digit. -/
def digitValue (c : Char) : Nat :=
  c.toNat - '0'.toNat

/-- The number that a run of decimal digits writes. -/
def digitsValue (s : List Char) : Nat :=
  s.foldl (fun n c => n * 10 + digitValue c) 0

end PatternHarvest
