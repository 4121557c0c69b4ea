import AdfMarkdown.Document.Wire
import AdfMarkdown.Proofs.Magnitude
import Mathlib.Data.Rat.Floor
import Mathlib.Tactic.Linarith

/-! # The level of a heading as a function of a number

A whole number is read through the binary format before it is brought between one and six. Below
`2 ^ 53` it passes unchanged. Above, rounding changes it and leaves it far above six, until it
becomes an infinity, which has no whole part.
-/

namespace AdfMarkdown

namespace Binary64

def value? : Binary64 → Option ℚ
  | finite negative m e => some ((if negative then -1 else 1) * (m * (2 : ℚ) ^ e))
  | _ => none

/-- The finite numbers of the format. -/
def InFormat : Binary64 → Prop
  | finite _ m e => m < 2 ^ 53 ∧ -1074 ≤ e ∧ e ≤ 971
  | _ => False

/-- The least whole number that is rounded to an infinity, `2 ^ 1024 - 2 ^ 970`: it is halfway
between the largest finite number of the format and `2 ^ 1024`. -/
def overflowBound : Nat := (2 ^ 54 - 1) * 2 ^ 970

def towardZero (q : ℚ) : ℤ := if 0 ≤ q then ⌊q⌋ else ⌈q⌉

@[simp] theorem towardZero_intCast (n : ℤ) : towardZero n = n := by
  simp [towardZero]

theorem towardZero_neg (q : ℚ) : towardZero (-q) = -towardZero q := by
  unfold towardZero
  rcases lt_trichotomy q 0 with h | rfl | h
  · rw [if_pos (by linarith), if_neg (by linarith), Int.floor_neg]
  · simp
  · rw [if_neg (by linarith), if_pos (by linarith), Int.ceil_neg]

theorem towardZero_mono {a b : ℚ} (h : a ≤ b) : towardZero a ≤ towardZero b := by
  unfold towardZero
  split_ifs with ha hb hb
  · exact Int.floor_le_floor h
  · exact absurd (ha.trans h) hb
  · exact (Int.ceil_le.mpr (by push_cast; linarith)).trans (Int.floor_nonneg.mpr hb)
  · exact Int.ceil_le_ceil h

theorem floor_mul_zpow (m : Nat) (e : ℤ) : ⌊(m : ℚ) * 2 ^ e⌋ = (whole m e : ℤ) := by
  unfold whole
  split
  · next hneg =>
    have hexp : e = -(e.natAbs : ℤ) := by omega
    have hpow : (m : ℚ) * 2 ^ e = (m : ℚ) / (Nat.pow 2 e.natAbs : Nat) := by
      conv_lhs => rw [hexp]
      rw [zpow_neg, zpow_natCast, div_eq_mul_inv]
      simp
    rw [hpow, Rat.floor_natCast_div_natCast]
    rfl
  · next hnonneg =>
    have hexp : e = (e.natAbs : ℤ) := by omega
    have hpow : (m : ℚ) * 2 ^ e = ((m * Nat.pow 2 e.natAbs : Nat) : ℚ) := by
      conv_lhs => rw [hexp]
      rw [zpow_natCast]
      simp
    rw [hpow, Int.floor_natCast]

theorem truncate?_finite (negative : Bool) (m : Nat) (e : ℤ) :
    (finite negative m e).truncate? = some (if negative then -(whole m e : ℤ) else whole m e) :=
  rfl

theorem truncate?_of_value? {x : Binary64} {q : ℚ} (h : x.value? = some q) :
    x.truncate? = some (towardZero q) := by
  cases x with
  | nan => cases h
  | infinity negative => cases h
  | finite negative m e =>
    have hfloor : towardZero ((m : ℚ) * 2 ^ e) = whole m e := by
      rw [towardZero, if_pos (mul_nonneg m.cast_nonneg (zpow_nonneg zero_le_two e)), floor_mul_zpow]
    obtain rfl := Option.some.inj h
    rw [truncate?_finite]
    cases negative with
    | false => rw [if_neg Bool.false_ne_true, if_neg Bool.false_ne_true, one_mul, hfloor]
    | true => rw [if_pos rfl, if_pos rfl, neg_one_mul, towardZero_neg, hfloor]

section Rounding

theorem div_le_roundQuotient (num den : Nat) : num / den ≤ roundQuotient num den := by
  unfold roundQuotient
  dsimp only
  split_ifs <;> omega

@[simp] theorem roundQuotient_one (num : Nat) : roundQuotient num 1 = num := by
  simp [roundQuotient, Nat.mod_one]

theorem roundQuotient_eq_succ_iff {num den q : Nat} (hodd : q % 2 = 1)
    (hlt : num < (q + 1) * den) :
    roundQuotient num den = q + 1 ↔ (2 * q + 1) * den ≤ 2 * num := by
  have hden : 0 < den := Nat.pos_of_mul_pos_left (Nat.zero_lt_of_lt hlt)
  have hdiv : num / den ≤ q := Nat.lt_succ_iff.mp ((Nat.div_lt_iff_lt_mul hden).mpr hlt)
  have hsplit : den * (num / den) + num % den = num := Nat.div_add_mod num den
  have hmul : (2 * q + 1) * den = 2 * (den * q) + den := by ring
  rcases Nat.lt_or_eq_of_le hdiv with hless | heq
  · have hround := roundQuotient_le num den
    have hnum : num < den * q := Nat.mul_comm q den ▸ (Nat.div_lt_iff_lt_mul hden).mp hless
    exact iff_of_false (by omega) (by omega)
  · rw [heq] at hsplit
    unfold roundQuotient
    dsimp only
    rw [heq, hmul]
    split_ifs <;> omega

theorem roundingExponent_one {num : Nat} (hnum : num ≠ 0) :
    roundingExponent num 1 = Nat.log2 num - 52 := by
  have hlog : Nat.log2 1 = 0 := by decide
  have hscaled : scaled num 1 (Nat.log2 num) = (num, 2 ^ Nat.log2 num) := by
    unfold scaled
    rw [if_neg (by omega), Nat.one_mul]
    rfl
  unfold roundingExponent
  dsimp only
  rw [hlog, Nat.cast_zero, Int.sub_zero, hscaled, if_pos (Nat.log2_self_le hnum)]
  omega

theorem truncate?_ofFraction_of_lt {num : Nat} (hlt : num < 2 ^ 53) (negative : Bool) :
    (ofFraction negative num 1).truncate? = some (if negative then -(num : ℤ) else num) := by
  rcases eq_or_ne num 0 with rfl | hnum
  · have hzero : whole 0 (-1074) = 0 := Nat.zero_div _
    rw [ofFraction, if_pos rfl, truncate?_finite, hzero]
  obtain ⟨k, hk⟩ : ∃ k, Nat.log2 num + k = 52 :=
    ⟨52 - Nat.log2 num, Nat.add_sub_cancel' (Nat.lt_succ_iff.mp ((Nat.log2_lt hnum).mpr hlt))⟩
  have hexp : (Nat.log2 num : ℤ) - 52 = -(k : ℤ) := by omega
  have hmantissa : num * 2 ^ k < 2 ^ 53 := by
    calc num * 2 ^ k < 2 ^ (Nat.log2 num + 1) * 2 ^ k :=
          Nat.mul_lt_mul_of_pos_right Nat.lt_log2_self (Nat.pow_pos (by decide))
      _ = 2 ^ 53 := by rw [← Nat.pow_add]; congr 1; omega
  have hscaled : roundQuotient (scaled num 1 (-(k : ℤ))).1 (scaled num 1 (-(k : ℤ))).2 =
      num * 2 ^ k := by
    unfold scaled
    split
    · simp
    · have hzero : k = 0 := by omega
      simp [hzero]
  have hwhole : whole (num * 2 ^ k) (-(k : ℤ)) = num := by
    unfold whole
    split
    · rw [Int.natAbs_neg, Int.natAbs_natCast]
      exact Nat.mul_div_cancel _ (Nat.pow_pos (by decide))
    · have hzero : k = 0 := by omega
      simp [hzero]
  have hround : ofFraction negative num 1 = finite negative (num * 2 ^ k) (-(k : ℤ)) := by
    unfold ofFraction
    rw [if_neg hnum]
    dsimp only
    rw [roundingExponent_one hnum, hexp, hscaled]
    rw [if_neg (show num * 2 ^ k ≠ Nat.pow 2 53 from Nat.ne_of_lt hmantissa)]
    exact if_neg (by omega)
  rw [hround, truncate?_finite, hwhole]

theorem ofFraction_of_le {num k : Nat} (hk : Nat.log2 num = 52 + k) (negative : Bool) :
    ofFraction negative num 1 =
      if roundQuotient num (2 ^ k) = 2 ^ 53 then
        if 971 < (k : ℤ) + 1 then infinity negative else finite negative (2 ^ 52) (k + 1)
      else
        if 971 < (k : ℤ) then infinity negative
        else finite negative (roundQuotient num (2 ^ k)) k := by
  have hnum : num ≠ 0 := by
    rintro rfl
    rw [Nat.log2_zero] at hk
    omega
  have hexp : (Nat.log2 num : ℤ) - 52 = k := by omega
  have hscaled : scaled num 1 k = (num, 2 ^ k) := by
    unfold scaled
    rw [if_neg (by omega), Nat.one_mul]
    rfl
  unfold ofFraction
  rw [if_neg hnum]
  dsimp only
  rw [roundingExponent_one hnum, hexp, hscaled]
  dsimp only [Nat.pow_eq]
  split_ifs <;> rfl

theorem le_roundQuotient {num k : Nat} (hnum : num ≠ 0) (hk : Nat.log2 num = 52 + k) :
    2 ^ 52 ≤ roundQuotient num (2 ^ k) := by
  refine le_trans ?_ (div_le_roundQuotient _ _)
  rw [Nat.le_div_iff_mul_le (Nat.pow_pos (by decide)), ← Nat.pow_add, ← hk]
  exact Nat.log2_self_le hnum

/-- The exponent of a rounded number goes above `t + 1` from halfway before the next power of two.
The bound on the exponent is a variable, so that no large power is computed. -/
theorem overflows_iff {num k : Nat} (hnum : num ≠ 0) (hk : Nat.log2 num = 52 + k) (t : Nat) :
    (t + 1 < k ∨ k = t + 1 ∧ roundQuotient num (2 ^ k) = 2 ^ 53) ↔
      (2 ^ 54 - 1) * 2 ^ t ≤ num := by
  have hlow : 2 ^ (52 + k) ≤ num := hk ▸ Nat.log2_self_le hnum
  have hhigh : num < 2 ^ (52 + k + 1) := hk ▸ Nat.lt_log2_self
  rcases Nat.lt_trichotomy k (t + 1) with hless | rfl | hmore
  · have hbelow : num < 2 ^ 53 * 2 ^ t := by
      calc num < 2 ^ (52 + k + 1) := hhigh
        _ ≤ 2 ^ (53 + t) := Nat.pow_le_pow_right (by decide) (by omega)
        _ = 2 ^ 53 * 2 ^ t := Nat.pow_add 2 53 t
    constructor <;> omega
  · have hdouble : 2 ^ (t + 1) = 2 * 2 ^ t := Nat.pow_succ'
    have hlt : num < (2 ^ 53 - 1 + 1) * 2 ^ (t + 1) := by
      calc num < 2 ^ (53 + (t + 1)) := by rwa [show 53 + (t + 1) = 52 + (t + 1) + 1 by omega]
        _ = 2 ^ 53 * 2 ^ (t + 1) := Nat.pow_add 2 53 (t + 1)
    have hround := roundQuotient_eq_succ_iff (by decide) hlt
    rw [hdouble] at hround ⊢
    constructor
    · rintro (h | ⟨-, h⟩)
      · exact absurd h (Nat.lt_irrefl _)
      · have := hround.mp h
        omega
    · intro h
      exact .inr ⟨rfl, hround.mpr (by omega)⟩
  · have habove : 2 ^ 54 * 2 ^ t ≤ num := by
      calc 2 ^ 54 * 2 ^ t = 2 ^ (54 + t) := (Nat.pow_add 2 54 t).symm
        _ ≤ 2 ^ (52 + k) := Nat.pow_le_pow_right (by decide) (by omega)
        _ ≤ num := hlow
    constructor <;> omega

theorem exists_log2_eq {num : Nat} (hle : 2 ^ 53 ≤ num) : ∃ k, Nat.log2 num = 52 + k := by
  have hlog : 53 ≤ Nat.log2 num := (Nat.le_log2 (by omega)).mpr hle
  exact ⟨Nat.log2 num - 52, by omega⟩

theorem le_mul_two_pow (t : Nat) : 2 ^ 53 ≤ (2 ^ 54 - 1) * 2 ^ t := by
  calc 2 ^ 53 ≤ (2 ^ 54 - 1) * 1 := by decide
    _ ≤ (2 ^ 54 - 1) * 2 ^ t := Nat.mul_le_mul_left _ (Nat.two_pow_pos t)

theorem le_overflowBound : 2 ^ 53 ≤ overflowBound := le_mul_two_pow 970

theorem ofFraction_eq_infinity {num : Nat} (h : overflowBound ≤ num) (negative : Bool) :
    ofFraction negative num 1 = infinity negative := by
  have hle : 2 ^ 53 ≤ num := le_overflowBound.trans h
  obtain ⟨k, hk⟩ := exists_log2_eq hle
  have hover := (overflows_iff (by omega) hk 970).mpr h
  rw [ofFraction_of_le hk]
  by_cases hcarry : roundQuotient num (2 ^ k) = 2 ^ 53
  · rw [if_pos hcarry, if_pos (by omega)]
  · rw [if_neg hcarry, if_pos (by omega)]

theorem exists_ofFraction_eq_finite {num : Nat} (hle : 2 ^ 53 ≤ num) (hlt : num < overflowBound)
    (negative : Bool) :
    ∃ m e, 2 ^ 52 ≤ whole m e ∧ ofFraction negative num 1 = finite negative m e := by
  have hnum : num ≠ 0 := by omega
  have hwhole (m k : Nat) (hm : 2 ^ 52 ≤ m) : 2 ^ 52 ≤ whole m k :=
    hm.trans (Nat.le_mul_of_pos_right m (Nat.pow_pos (by decide)))
  obtain ⟨k, hk⟩ := exists_log2_eq hle
  have hfits := (not_congr (overflows_iff hnum hk 970)).mpr (Nat.not_le.mpr hlt)
  by_cases hcarry : roundQuotient num (2 ^ k) = 2 ^ 53
  · refine ⟨2 ^ 52, (k + 1 : Nat), hwhole _ _ le_rfl, ?_⟩
    rw [ofFraction_of_le hk, if_pos hcarry, if_neg (by omega), Nat.cast_succ]
  · refine ⟨_, k, hwhole _ _ (le_roundQuotient hnum hk), ?_⟩
    rw [ofFraction_of_le hk, if_neg hcarry, if_neg (by omega)]

end Rounding

end Binary64

open Binary64

theorem headingLevel_of_numericValue? {v : Json} {x : Binary64} (h : numericValue? v = some x) :
    headingLevel v = (x.truncate?.map clampLevel).getD 1 := by
  rw [headingLevel, h, Option.bind_some]
  cases x.truncate? <;> rfl

theorem headingLevel_float {x : Binary64} {q : ℚ} (h : x.value? = some q) :
    headingLevel (.float x) = clampLevel (towardZero q) := by
  rw [headingLevel_of_numericValue? rfl, truncate?_of_value? h]
  rfl

theorem clampLevel_of_le {n : ℤ} (h : n ≤ 1) : clampLevel n = 1 := by
  unfold clampLevel
  omega

theorem clampLevel_of_ge {n : ℤ} (h : 6 ≤ n) : clampLevel n = 6 := by
  unfold clampLevel
  omega

theorem headingLevel_int (n : ℤ) :
    headingLevel (.int n) = if n < overflowBound then clampLevel n else 1 := by
  have hsign : (if decide (n < 0) then -(n.natAbs : ℤ) else n.natAbs) = n := by
    split_ifs with h <;> simp at h <;> omega
  have hlevel : headingLevel (.int n) =
      ((ofFraction (decide (n < 0)) n.natAbs 1).truncate?.map clampLevel).getD 1 :=
    headingLevel_of_numericValue? rfl
  rw [hlevel]
  rcases Nat.lt_or_ge n.natAbs (2 ^ 53) with hsmall | hlarge
  · have hbound := le_overflowBound
    rw [truncate?_ofFraction_of_lt hsmall, hsign, if_pos (by omega), Option.map_some,
      Option.getD_some]
  · rcases Nat.lt_or_ge n.natAbs overflowBound with hfits | hover
    · obtain ⟨m, e, hwhole, hround⟩ := exists_ofFraction_eq_finite hlarge hfits (decide (n < 0))
      rw [hround, truncate?_finite, if_pos (show n < overflowBound by omega), Option.map_some,
        Option.getD_some]
      by_cases hneg : n < 0
      · rw [if_pos (decide_eq_true hneg)]
        exact (clampLevel_of_le (by omega)).trans (clampLevel_of_le (by omega)).symm
      · rw [if_neg (by simpa using hneg)]
        exact (clampLevel_of_ge (by omega)).trans (clampLevel_of_ge (by omega)).symm
    · rw [ofFraction_eq_infinity hover, show (infinity (decide (n < 0))).truncate? = none from rfl,
        Option.map_none, Option.getD_none]
      split_ifs with h
      · exact (clampLevel_of_le (by omega)).symm
      · rfl

/-- A whole number is brought between one and six if it does not overflow, and only then. -/
theorem headingLevel_int_eq_clampLevel_iff (n : ℤ) :
    headingLevel (.int n) = clampLevel n ↔ n < overflowBound := by
  rw [headingLevel_int]
  split_ifs with h
  · exact iff_of_true rfl h
  · have hbound := le_overflowBound
    have hlarge : clampLevel n = 6 := clampLevel_of_ge (by omega)
    rw [hlarge]
    exact iff_of_false (by decide) h

def Json.number? : Json → Option ℚ
  | .int n => some n
  | .float x => x.value?
  | _ => none

/-- A whole number so large that it is rounded to an infinity. -/
def Json.Overflows : Json → Prop
  | .int n => (overflowBound : ℤ) ≤ n
  | _ => False

theorem headingLevel_of_number {v : Json} {q : ℚ} (h : v.number? = some q)
    (hfits : ¬ v.Overflows) : headingLevel v = clampLevel (towardZero q) := by
  cases v with
  | int n =>
    obtain rfl := Option.some.inj h
    rw [headingLevel_int, if_pos (Int.not_le.mp hfits), towardZero_intCast]
  | float x => exact headingLevel_float h
  | _ => cases h

theorem headingLevel_of_overflows {v : Json} (h : v.Overflows) : headingLevel v = 1 := by
  cases v with
  | int n => rw [headingLevel_int, if_neg (Int.not_lt.mpr h)]
  | _ => exact h.elim

theorem one_le_clampLevel (n : ℤ) : 1 ≤ clampLevel n :=
  le_max_left ..

theorem clampLevel_mono {a b : ℤ} (h : a ≤ b) : clampLevel a ≤ clampLevel b := by
  unfold clampLevel
  omega

theorem headingLevel_le_iff {v w : Json} {a b : ℚ} (hv : v.number? = some a)
    (hw : w.number? = some b) (hle : a ≤ b) :
    headingLevel v ≤ headingLevel w ↔ (w.Overflows → headingLevel v = 1) := by
  have hone : 1 ≤ headingLevel v := by
    by_cases hover : v.Overflows
    · rw [headingLevel_of_overflows hover]
    · rw [headingLevel_of_number hv hover]
      exact one_le_clampLevel _
  by_cases hover : w.Overflows
  · rw [headingLevel_of_overflows hover]
    exact ⟨fun h _ => le_antisymm h hone, fun h => (h hover).le⟩
  · refine ⟨fun _ h => absurd h hover, fun _ => ?_⟩
    rw [headingLevel_of_number hw hover]
    by_cases hsmaller : v.Overflows
    · rw [headingLevel_of_overflows hsmaller]
      exact one_le_clampLevel _
    · rw [headingLevel_of_number hv hsmaller]
      exact clampLevel_mono (towardZero_mono hle)

theorem mul_zpow_lt {m : Nat} {e : ℤ} {t : Nat} (hm : m < 2 ^ 53) (he : e ≤ (t + 1 : Nat)) :
    (m : ℚ) * 2 ^ e < ((2 ^ 54 - 1) * 2 ^ t : Nat) := by
  have hmantissa : (m : ℚ) ≤ (2 ^ 53 - 1 : Nat) := by exact_mod_cast Nat.le_sub_one_of_lt hm
  have hpow : (2 : ℚ) ^ e ≤ 2 ^ (t + 1) := by
    rw [← zpow_natCast]
    exact zpow_le_zpow_right₀ one_le_two he
  calc (m : ℚ) * 2 ^ e ≤ (2 ^ 53 - 1 : Nat) * 2 ^ (t + 1) :=
        mul_le_mul hmantissa hpow (zpow_nonneg zero_le_two e) (Nat.cast_nonneg _)
    _ = ((2 ^ 54 - 2) * 2 ^ t : Nat) := by push_cast; ring
    _ < ((2 ^ 54 - 1) * 2 ^ t : Nat) := by
        exact_mod_cast Nat.mul_lt_mul_of_pos_right (by decide) (Nat.two_pow_pos t)

theorem lt_overflowBound_of_inFormat {x : Binary64} {q : ℚ} (hx : x.InFormat)
    (h : x.value? = some q) : q < overflowBound := by
  cases x with
  | nan => cases h
  | infinity negative => cases h
  | finite negative m e =>
    obtain ⟨hm, -, he⟩ := hx
    have hlt : (m : ℚ) * 2 ^ e < overflowBound := mul_zpow_lt (t := 970) hm (by omega)
    have hnonneg : (0 : ℚ) ≤ m * 2 ^ e := mul_nonneg m.cast_nonneg (zpow_nonneg zero_le_two e)
    obtain rfl := Option.some.inj h
    cases negative with
    | false =>
      rw [if_neg Bool.false_ne_true, one_mul]
      exact hlt
    | true =>
      rw [if_pos rfl, neg_one_mul]
      exact (neg_nonpos.mpr hnonneg).trans_lt (hnonneg.trans_lt hlt)

/-- The level of a heading is a number's whole part toward zero, brought between one and six, for
every number that is not a whole number past the bound. A larger number has no smaller level, unless
it is such a whole number and the other has a level above one. A whole number has the level of the
binary number that equals it. -/
theorem headingLevel_clamps (n : ℤ) (x : Binary64) (v w : Json) (q a b : ℚ) :
    (headingLevel (.int n) = max 1 (min 6 n) ↔ n < overflowBound) ∧
    (x.value? = some q → headingLevel (.float x) = max 1 (min 6 (towardZero q))) ∧
    (v.number? = some a → w.number? = some b → a ≤ b →
      (headingLevel v ≤ headingLevel w ↔ (w.Overflows → headingLevel v = 1))) ∧
    (x.InFormat → x.value? = some (n : ℚ) → headingLevel (.int n) = headingLevel (.float x)) := by
  refine ⟨headingLevel_int_eq_clampLevel_iff n, fun h => headingLevel_float h,
    fun hv hw hle => headingLevel_le_iff hv hw hle, fun hx hvalue => ?_⟩
  have hfits : ¬ (Json.int n).Overflows :=
    Int.not_le.mpr (by exact_mod_cast lt_overflowBound_of_inFormat hx hvalue)
  rw [headingLevel_float hvalue, headingLevel_of_number rfl hfits]

theorem headingLevel_clamps_five :
    headingLevel (.float (.finite true 15 (-1))) = max 1 (min 6 (towardZero (-15 / 2))) ∧
      headingLevel (.int 5) ≤ headingLevel (.float (.finite false 11 (-1))) ∧
      headingLevel (.int 5) = headingLevel (.float (.finite false 5 0)) := by
  obtain ⟨-, hfloat, -, -⟩ :=
    headingLevel_clamps 0 (.finite true 15 (-1)) .null .null (-15 / 2) 0 0
  obtain ⟨-, -, hmono, hequal⟩ :=
    headingLevel_clamps 5 (.finite false 5 0) (.int 5) (.float (.finite false 11 (-1))) 5 5 (11 / 2)
  refine ⟨hfloat ?_, (hmono rfl ?_ (by norm_num)).mpr (fun h => h.elim), hequal ?_ ?_⟩
  · norm_num [value?]
  · norm_num [Json.number?, value?]
  · exact ⟨by decide, by decide, by decide⟩
  · norm_num [value?]

/-- A whole number past the bound has the least level and not the greatest one. -/
theorem headingLevel_ne_of_overflow :
    headingLevel (.int ((10 ^ 309 : Nat) : ℤ)) ≠ max 1 (min 6 ((10 ^ 309 : Nat) : ℤ)) := by
  have hover : overflowBound ≤ 10 ^ 309 := by decide +kernel
  intro h
  have hfits := (headingLevel_int_eq_clampLevel_iff _).mp h
  omega

end AdfMarkdown
