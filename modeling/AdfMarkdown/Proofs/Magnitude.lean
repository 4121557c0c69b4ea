import AdfMarkdown.Number.Binary64
import Mathlib.Data.Nat.Log
import Mathlib.Tactic.Ring

/-! # How large a binary number is

A finite binary number stays below a fixed power of two, whatever it was rounded from: a number
too large for the format is rounded to an infinity.
-/

namespace AdfMarkdown.Binary64

def whole (m : Nat) (e : Int) : Nat :=
  if e < 0 then m / Nat.pow 2 e.natAbs else m * Nat.pow 2 e.natAbs

theorem natAbs_of_truncate? {negative : Bool} {m : Nat} {e n : Int}
    (h : (finite negative m e).truncate? = some n) : n.natAbs = whole m e := by
  obtain rfl := Option.some.inj h
  cases negative with
  | false => exact Int.natAbs_natCast _
  | true => exact (Int.natAbs_neg _).trans (Int.natAbs_natCast _)

theorem whole_le (m : Nat) (e : Int) : whole m e ≤ m * Nat.pow 2 e.toNat := by
  unfold whole
  split
  · calc m / Nat.pow 2 e.natAbs ≤ m := Nat.div_le_self _ _
      _ ≤ m * Nat.pow 2 e.toNat := Nat.le_mul_of_pos_right m (Nat.pow_pos (by decide))
  · next hneg =>
    have habs : e.natAbs = e.toNat := by omega
    rw [habs]

theorem roundQuotient_le (num den : Nat) : roundQuotient num den ≤ num / den + 1 := by
  unfold roundQuotient
  dsimp only
  split_ifs <;> omega

theorem lt_pow_mul_of_log2_le {num den k : Nat} (hden : den ≠ 0)
    (h : Nat.log2 num ≤ Nat.log2 den + k) : num < Nat.pow 2 (k + 1) * den := by
  calc num < 2 ^ (Nat.log2 num + 1) := Nat.lt_log2_self
    _ ≤ 2 ^ (k + 1 + Nat.log2 den) := Nat.pow_le_pow_right (by decide) (by omega)
    _ = 2 ^ (k + 1) * 2 ^ Nat.log2 den := Nat.pow_add 2 _ _
    _ ≤ 2 ^ (k + 1) * den := Nat.mul_le_mul_left _ (Nat.log2_self_le hden)

theorem log2_le_of_roundingExponent_le {num den : Nat} (h : roundingExponent num den ≤ 971) :
    Nat.log2 num ≤ Nat.log2 den + 1024 := by
  unfold roundingExponent at h
  dsimp only at h
  split_ifs at h <;> omega

/-- Rounding at an exponent adds one unit of this exponent at most. -/
theorem whole_roundQuotient_le {num den b : Nat} (hden : den ≠ 0) (hb : num < b * den) (e : Int) :
    whole (roundQuotient (scaled num den e).1 (scaled num den e).2) e ≤ b + Nat.pow 2 e.toNat := by
  have hpos : 0 < den := Nat.pos_of_ne_zero hden
  have hpow : 0 < Nat.pow 2 e.natAbs := Nat.pow_pos (by decide)
  unfold whole scaled
  split
  · have hround := roundQuotient_le (num * Nat.pow 2 e.natAbs) den
    have hscaled : num * Nat.pow 2 e.natAbs / den < b * Nat.pow 2 e.natAbs := by
      rw [Nat.div_lt_iff_lt_mul hpos]
      calc num * Nat.pow 2 e.natAbs < b * den * Nat.pow 2 e.natAbs :=
            Nat.mul_lt_mul_of_pos_right hb hpow
        _ = b * Nat.pow 2 e.natAbs * den := by ring
    calc roundQuotient (num * Nat.pow 2 e.natAbs) den / Nat.pow 2 e.natAbs
        ≤ b * Nat.pow 2 e.natAbs / Nat.pow 2 e.natAbs := Nat.div_le_div_right (by omega)
      _ = b := Nat.mul_div_cancel b hpow
      _ ≤ b + Nat.pow 2 e.toNat := Nat.le_add_right _ _
  · next hneg =>
    have habs : e.natAbs = e.toNat := by omega
    have hround := roundQuotient_le num (den * Nat.pow 2 e.natAbs)
    have hquotient : num / den < b := (Nat.div_lt_iff_lt_mul hpos).mpr hb
    have hdiv : num / (den * Nat.pow 2 e.natAbs) * Nat.pow 2 e.natAbs ≤ num / den := by
      rw [← Nat.div_div_eq_div_mul]
      exact Nat.div_mul_le_self _ _
    calc roundQuotient num (den * Nat.pow 2 e.natAbs) * Nat.pow 2 e.natAbs
        ≤ (num / (den * Nat.pow 2 e.natAbs) + 1) * Nat.pow 2 e.natAbs :=
          Nat.mul_le_mul_right _ hround
      _ = num / (den * Nat.pow 2 e.natAbs) * Nat.pow 2 e.natAbs + Nat.pow 2 e.toNat := by
          rw [Nat.add_mul, Nat.one_mul, habs]
      _ ≤ b + Nat.pow 2 e.toNat := by omega

theorem natAbs_truncate?_ofFraction_lt {k : Nat} (hk : 1027 ≤ k) {negative : Bool} {num den : Nat}
    (hden : den ≠ 0) {n : Int} (h : (ofFraction negative num den).truncate? = some n) :
    n.natAbs < Nat.pow 2 k := by
  have hdouble : Nat.pow 2 (k - 1) + Nat.pow 2 (k - 1) = Nat.pow 2 k := by
    obtain ⟨j, rfl⟩ : ∃ j, k = j + 1 := ⟨k - 1, by omega⟩
    exact (Nat.mul_two _).symm
  unfold ofFraction at h
  split_ifs at h with hnum
  · rw [natAbs_of_truncate? h]
    exact (whole_le _ _).trans_lt (by rw [Nat.zero_mul]; exact Nat.pow_pos (by decide))
  · dsimp only at h
    split_ifs at h with hcarry hlarge hlarge
    · cases h
    · rw [natAbs_of_truncate? h]
      calc whole (2 ^ 52) (roundingExponent num den + 1)
          ≤ 2 ^ 52 * 2 ^ (roundingExponent num den + 1).toNat := whole_le _ _
        _ = 2 ^ (52 + (roundingExponent num den + 1).toNat) := (Nat.pow_add 2 _ _).symm
        _ < 2 ^ k := Nat.pow_lt_pow_right (by decide) (by omega)
    · cases h
    · have hlog := log2_le_of_roundingExponent_le (Int.not_lt.mp hlarge)
      have hnumber : num < Nat.pow 2 (k - 2 + 1) * den := lt_pow_mul_of_log2_le hden (by omega)
      have hbelow : Nat.pow 2 (roundingExponent num den).toNat < Nat.pow 2 (k - 1) :=
        Nat.pow_lt_pow_right (by decide) (by omega)
      have hwhole := whole_roundQuotient_le hden hnumber (roundingExponent num den)
      have hpred : k - 2 + 1 = k - 1 := by omega
      rw [hpred] at hwhole
      rw [natAbs_of_truncate? h]
      exact hwhole.trans_lt (by omega)

theorem natAbs_truncate?_ofDecimal_lt {k : Nat} (hk : 1027 ≤ k) {negative : Bool} {digits : Nat}
    {exponent n : Int} (h : (ofDecimal negative digits exponent).truncate? = some n) :
    n.natAbs < Nat.pow 2 k := by
  have hzero (h : (finite negative 0 (-1074)).truncate? = some n) : n.natAbs < Nat.pow 2 k := by
    rw [natAbs_of_truncate? h]
    exact (whole_le _ _).trans_lt (by rw [Nat.zero_mul]; exact Nat.pow_pos (by decide))
  have hpow : Nat.pow 10 exponent.natAbs ≠ 0 := Nat.ne_of_gt (Nat.pow_pos (by decide))
  unfold ofDecimal at h
  dsimp only at h
  split_ifs at h
  · exact hzero h
  · exact hzero h
  · exact natAbs_truncate?_ofFraction_lt hk hpow h
  · cases h
  · exact natAbs_truncate?_ofFraction_lt hk one_ne_zero h

end AdfMarkdown.Binary64
