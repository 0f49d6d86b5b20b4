/-
  Tracewright.Proofs.Number.Exact

  Doubles as the numbers they are, where nothing is rounded off: a number that
  has a double is that double, and only the writing of it rounds.

    * `IsNearest`          — the whole number next to a number, of two that are
                             as near the even one.
    * `roundHalfEven_eq_iff` — this is what rounding yields.
    * `Is`                 — a double and the number that it is.
    * `ofQuotient_eq`      — the double of a number that has one.
    * `Is.divNat_two_pow`  — division by a power of two, as long as the exponent
                             stays in its range.
-/
import Mathlib.Algebra.Order.Field.Power
import Mathlib.Data.Rat.Cast.Order
import Mathlib.Tactic.Linarith
import Mathlib.Tactic.NormNum
import Mathlib.Tactic.Positivity
import Mathlib.Tactic.Ring
import Mathlib.Tactic.SplitIfs
import Tracewright.Number.Fixed

namespace Tracewright.Double

variable {num den m t t' : Nat} {e : Int} {q : ℚ} {s : Bool} {x : Double}

/-! ## Rounding -/

/-- The whole number next to `q`; of two that are as near, the even one. -/
structure IsNearest (q : ℚ) (t : Nat) : Prop where
  near : |q - t| ≤ 1 / 2
  even : |q - t| = 1 / 2 → Even t

theorem IsNearest.unique (h : IsNearest q t) (h' : IsNearest q t') : t = t' := by
  have hnear := abs_le.1 h.near
  have hnear' := abs_le.1 h'.near
  by_contra hne
  -- two different ones are neighbours, and both are half a unit away
  wlog hlt : t < t' generalizing t t'
  · exact this h' h hnear' hnear (Ne.symm hne) (by omega)
  have hle : (t : ℚ) + 1 ≤ t' := by exact_mod_cast hlt
  have hq : q - t = 1 / 2 := by linarith [hnear.2, hnear'.1]
  have hq' : q - t' = -(1 / 2) := by linarith [hnear.2, hnear'.1]
  have hnext : (t' : ℚ) = (t + 1 : Nat) := by push_cast; linarith
  have heven := h.even (by rw [hq]; norm_num)
  have heven' := h'.even (by rw [hq']; norm_num)
  rw [Nat.cast_inj.1 hnext, Nat.even_add_one] at heven'
  exact heven' heven

theorem isNearest_natCast (t : Nat) : IsNearest t t := by
  constructor
  · rw [sub_self, abs_zero]; norm_num
  · rw [sub_self, abs_zero]; norm_num

/-- For a quotient all of this is about whole numbers. -/
theorem isNearest_div_iff (hden : 0 < den) :
    IsNearest ((num : ℚ) / den) t ↔
      2 * |(num : ℤ) - t * den| ≤ den ∧ (2 * |(num : ℤ) - t * den| = den → Even t) := by
  have hpos : (0 : ℚ) < den := by exact_mod_cast hden
  -- multiplied by the denominator, the distance is one between integers
  have habs : |(num : ℚ) / den - t| = |(num : ℤ) - t * den| / (den : ℚ) := by
    rw [div_sub' hpos.ne', abs_div, abs_of_pos hpos]
    push_cast
    rw [mul_comm (den : ℚ)]
  have hle : |(num : ℤ) - t * den| / (den : ℚ) ≤ 1 / 2 ↔ 2 * |(num : ℤ) - t * den| ≤ den := by
    rw [div_le_div_iff₀ hpos two_pos, one_mul, mul_comm]
    exact_mod_cast Iff.rfl
  have heq : |(num : ℤ) - t * den| / (den : ℚ) = 1 / 2 ↔ 2 * |(num : ℤ) - t * den| = den := by
    rw [div_eq_div_iff hpos.ne' two_ne_zero, one_mul, mul_comm]
    exact_mod_cast Iff.rfl
  constructor
  · rintro ⟨hnear, heven⟩
    rw [habs] at hnear heven
    exact ⟨hle.1 hnear, fun h => heven (heq.2 h)⟩
  · rintro ⟨hnear, heven⟩
    constructor
    · rw [habs]
      exact hle.2 hnear
    · rw [habs]
      exact fun h => heven (heq.1 h)

theorem isNearest_roundHalfEven (num : Nat) (hden : 0 < den) :
    IsNearest ((num : ℚ) / den) (roundHalfEven num den) := by
  rw [isNearest_div_iff hden, roundHalfEven]
  have hsum : den * (num / den) + num % den = num := Nat.div_add_mod num den
  have hlt : num % den < den := Nat.mod_lt num hden
  generalize num / den = k at hsum ⊢
  generalize num % den = r at hsum hlt ⊢
  subst hsum
  -- the remainder, and what is missing to the next multiple of the divisor
  have hbelow : |((den * k + r : Nat) : ℤ) - (k : Nat) * den| = r := by
    rw [show ((den * k + r : Nat) : ℤ) - (k : Nat) * den = r by push_cast; ring]
    exact abs_of_nonneg (by omega)
  have habove : |((den * k + r : Nat) : ℤ) - (k + 1 : Nat) * den| = den - r := by
    rw [show ((den * k + r : Nat) : ℤ) - (k + 1 : Nat) * den = -(den - r) by push_cast; ring,
      abs_neg]
    exact abs_of_nonneg (by omega)
  split_ifs with hlow hhigh heven
  · rw [hbelow]; omega
  · rw [habove]; omega
  · rw [hbelow, Nat.even_iff]; omega
  · rw [habove, Nat.even_iff]; omega

/-- Rounding yields the nearest whole number. -/
theorem roundHalfEven_eq_iff (hden : 0 < den) :
    roundHalfEven num den = t ↔ IsNearest ((num : ℚ) / den) t := by
  constructor
  · rintro rfl
    exact isNearest_roundHalfEven num hden
  · exact (isNearest_roundHalfEven num hden).unique

/-! ## Exact values -/

/-- The mantissa has all its digits, and the exponent is in its range. -/
structure IsNormal (m : Nat) (e : Int) : Prop where
  low : 2 ^ 52 ≤ m
  high : m < 2 ^ 53
  least : leastExponent ≤ e
  greatest : e ≤ greatestExponent

/-- A power of two with an exponent of either sign, by a power with a natural one. -/
theorem two_zpow_of_nonneg (he : 0 ≤ e) : (2 : ℚ) ^ e = (2 ^ e.toNat : Nat) := by
  obtain ⟨k, rfl⟩ := Int.eq_ofNat_of_zero_le he
  rw [Int.toNat_natCast, zpow_natCast, Nat.cast_pow, Nat.cast_two]

theorem two_zpow_of_neg (he : ¬ 0 ≤ e) : (2 : ℚ) ^ e = ((2 ^ (-e).toNat : Nat) : ℚ)⁻¹ := by
  rw [← two_zpow_of_nonneg (show 0 ≤ -e by omega), zpow_neg, inv_inv]

theorem quotient_eq (m : Nat) (e : Int) :
    0 < (quotient m e).2 ∧ ((quotient m e).1 : ℚ) / (quotient m e).2 = m * 2 ^ e := by
  rw [quotient]
  split_ifs with he
  · refine ⟨Nat.one_pos, ?_⟩
    rw [two_zpow_of_nonneg he, Nat.cast_one, div_one, ← Nat.cast_mul]
    rfl
  · refine ⟨Nat.two_pow_pos _, ?_⟩
    rw [two_zpow_of_neg he, ← div_eq_mul_inv]
    rfl

theorem lessThanNat_finite (s : Bool) (m : Nat) (e : Int) (n : Nat) :
    (finite s m e).lessThanNat n = if s then (quotient m e).1 != 0 || decide (0 < n)
      else decide ((quotient m e).1 < n * (quotient m e).2) := rfl

theorem divNat_finite (s : Bool) (m : Nat) (e : Int) (k : Nat) :
    (finite s m e).divNat k = ofQuotient s (quotient m e).1 ((quotient m e).2 * k) := rfl

theorem oneDecimal_finite (s : Bool) (m : Nat) (e : Int) :
    (finite s m e).oneDecimal =
      if s then '-' :: writeTenths (roundHalfEven (10 * (quotient m e).1) (quotient m e).2)
      else writeTenths (roundHalfEven (10 * (quotient m e).1) (quotient m e).2) := rfl

theorem scaleDown_eq (num : Nat) (hden : 0 < den) (e : Int) :
    0 < (scaleDown num den e).2 ∧
      ((scaleDown num den e).1 : ℚ) / (scaleDown num den e).2 = num / den / 2 ^ e := by
  rw [scaleDown]
  split_ifs with he
  · refine ⟨Nat.mul_pos hden (Nat.two_pow_pos _), ?_⟩
    rw [two_zpow_of_nonneg he, div_div, ← Nat.cast_mul]
    rfl
  · refine ⟨hden, ?_⟩
    rw [two_zpow_of_neg he, div_inv_eq_mul, div_mul_eq_mul_div, ← Nat.cast_mul]
    rfl

/-- Scaled down by its power of two, a number is a whole multiple of the divisor. -/
theorem scaleDown_of_eq (hden : 0 < den) (h : (num : ℚ) / den = m * 2 ^ e) :
    (scaleDown num den e).1 = m * (scaleDown num den e).2 := by
  obtain ⟨hpos, heq⟩ := scaleDown_eq num hden e
  rw [h, mul_div_cancel_right₀ _ (by positivity), div_eq_iff (by positivity)] at heq
  exact_mod_cast heq

/-- A number lies between the powers of two that its binary logarithm names. -/
theorem log2_bounds (hm : m ≠ 0) :
    (2 : ℚ) ^ (m.log2 : ℤ) ≤ m ∧ (m : ℚ) < 2 ^ ((m.log2 : ℤ) + 1) := by
  have hlow : 2 ^ m.log2 ≤ m := Nat.log2_self_le hm
  have hhigh : m < 2 ^ (m.log2 + 1) := Nat.lt_log2_self
  exact ⟨by exact_mod_cast hlow, by exact_mod_cast hhigh⟩

/-- The exponent that is tried first is the right one, or the one below it. -/
theorem guess_cases (hden : 0 < den) (hm : IsNormal m e) (h : (num : ℚ) / den = m * 2 ^ e) :
    max ((num.log2 : Int) - den.log2 - 53) leastExponent = e ∨
      max ((num.log2 : Int) - den.log2 - 53) leastExponent = e - 1 := by
  obtain ⟨hlow, hhigh, hleast, -⟩ := hm
  have hlow : (2 : ℚ) ^ (52 : ℤ) ≤ m := by exact_mod_cast hlow
  have hhigh : (m : ℚ) < 2 ^ (53 : ℤ) := by exact_mod_cast hhigh
  have hden' : (0 : ℚ) < den := by exact_mod_cast hden
  have hnum : (num : ℚ) = m * 2 ^ e * den := (div_eq_iff hden'.ne').1 h
  have hpos : (0 : ℚ) < num := by rw [hnum]; positivity
  obtain ⟨hnumLow, hnumHigh⟩ := log2_bounds (Nat.cast_pos.1 hpos).ne'
  obtain ⟨hdenLow, hdenHigh⟩ := log2_bounds hden.ne'
  -- the logarithm of the quotient is that of the mantissa and the exponent, give or take one
  have hbelow : (2 : ℚ) ^ (52 + e + den.log2) < 2 ^ ((num.log2 : ℤ) + 1) := by
    calc (2 : ℚ) ^ (52 + e + den.log2) = 2 ^ (52 : ℤ) * 2 ^ e * 2 ^ (den.log2 : ℤ) := by
          rw [zpow_add₀ two_ne_zero, zpow_add₀ two_ne_zero]
      _ ≤ m * 2 ^ e * den := by gcongr
      _ = num := hnum.symm
      _ < 2 ^ ((num.log2 : ℤ) + 1) := hnumHigh
  have habove : (2 : ℚ) ^ (num.log2 : ℤ) < 2 ^ (53 + e + (den.log2 + 1)) := by
    calc (2 : ℚ) ^ (num.log2 : ℤ) ≤ num := hnumLow
      _ = m * 2 ^ e * den := hnum
      _ < 2 ^ (53 : ℤ) * 2 ^ e * 2 ^ ((den.log2 : ℤ) + 1) := by gcongr
      _ = 2 ^ (53 + e + (den.log2 + 1)) := by
          rw [zpow_add₀ two_ne_zero (53 + e), zpow_add₀ two_ne_zero 53]
  rw [zpow_lt_zpow_iff_right₀ one_lt_two] at hbelow habove
  omega

/-- A number that has a double is that double. -/
theorem ofQuotient_eq (s : Bool) (hden : 0 < den) (hm : IsNormal m e)
    (h : (num : ℚ) / den = m * 2 ^ e) : ofQuotient s num den = .finite s m e := by
  have hm0 : 0 < m := Nat.lt_of_lt_of_le (by decide) hm.low
  have hnum : num ≠ 0 := by
    rintro rfl
    rw [Nat.cast_zero, zero_div] at h
    have : (0 : ℚ) < m * 2 ^ e := by positivity
    exact this.ne h
  obtain ⟨hpos, -⟩ := scaleDown_eq num hden e
  have hscaled := scaleDown_of_eq hden h
  -- whichever exponent is tried first, the number is scaled by the right one in the end
  have hexponent : ∀ guess, guess = e ∨ guess = e - 1 →
      (if 2 ^ 53 ≤ (scaleDown num den guess).1 / (scaleDown num den guess).2 then guess + 1
        else guess) = e := by
    rintro guess (rfl | rfl)
    · rw [hscaled, Nat.mul_div_cancel _ hpos, if_neg (Nat.not_le.2 hm.high)]
    · have hdouble : (num : ℚ) / den = (2 * m : Nat) * 2 ^ (e - 1) := by
        rw [h, zpow_sub_one₀ two_ne_zero]
        push_cast
        ring
      obtain ⟨hpos', -⟩ := scaleDown_eq num hden (e - 1)
      have hlow := hm.low
      rw [scaleDown_of_eq hden hdouble, Nat.mul_div_cancel _ hpos', if_pos (by omega)]
      omega
  have hround : roundHalfEven (scaleDown num den e).1 (scaleDown num den e).2 = m := by
    rw [hscaled, roundHalfEven_eq_iff hpos, Nat.cast_mul, mul_div_cancel_right₀ _ (by positivity)]
    exact isNearest_natCast m
  have hfirst := hexponent _ (guess_cases hden hm h)
  have hfinite : m ≠ 2 ^ 53 := hm.high.ne
  simp only [ofQuotient, if_neg hnum, Nat.pow_eq, hfirst, hround, if_neg hfinite]
  exact if_neg (Int.not_lt.2 hm.greatest)

/-! ## Doubles as numbers -/

/-- The double is the number `q`, negated if `s`. -/
def Is (x : Double) (s : Bool) (q : ℚ) : Prop :=
  ∃ m e, x = .finite s m e ∧ IsNormal m e ∧ (m : ℚ) * 2 ^ e = q

theorem Is.pos (h : x.Is s q) : 0 < q := by
  obtain ⟨m, e, -, hm, rfl⟩ := h
  have hm0 : 0 < m := Nat.lt_of_lt_of_le (by decide) hm.low
  positivity

/-- An integer of at most 53 bits is a double. -/
theorem exists_ofInt? {n : Int} (hn : n ≠ 0) (hlt : n.natAbs < 2 ^ 53) :
    ∃ x, ofInt? n = some x ∧ x.Is (n < 0) n.natAbs := by
  have hlow : 2 ^ n.natAbs.log2 ≤ n.natAbs := Nat.log2_self_le (Int.natAbs_ne_zero.2 hn)
  have hhigh : n.natAbs < 2 ^ (n.natAbs.log2 + 1) := Nat.lt_log2_self
  have hlog : n.natAbs.log2 < 53 := (Nat.log2_lt (Int.natAbs_ne_zero.2 hn)).2 hlt
  -- the mantissa gets its digits by moving the point behind the first of them
  obtain ⟨k, hk⟩ : ∃ k, n.natAbs.log2 + k = 52 := ⟨52 - n.natAbs.log2, by omega⟩
  have hm : IsNormal (n.natAbs * 2 ^ k) (-k) := by
    refine ⟨?_, ?_, ?_, ?_⟩
    · rw [← hk, pow_add]
      exact Nat.mul_le_mul_right _ hlow
    · rw [show 53 = n.natAbs.log2 + 1 + k by omega, pow_add]
      exact Nat.mul_lt_mul_of_pos_right hhigh (Nat.two_pow_pos k)
    · rw [leastExponent]; omega
    · rw [greatestExponent]; omega
  have hvalue : ((n.natAbs * 2 ^ k : Nat) : ℚ) * 2 ^ (-(k : ℤ)) = n.natAbs := by
    rw [zpow_neg, zpow_natCast]
    push_cast
    rw [mul_assoc, mul_inv_cancel₀ (by positivity), mul_one]
  have hdouble : ofQuotient (n < 0) n.natAbs 1 =
      .finite (n < 0) (n.natAbs * 2 ^ k) (-k) := by
    refine ofQuotient_eq _ Nat.one_pos hm ?_
    rw [hvalue, Nat.cast_one, div_one]
  exact ⟨_, by rw [ofInt?, hdouble], _, _, rfl, hm, hvalue⟩

theorem Is.lessThanNat_iff (h : x.Is false q) (n : Nat) : x.lessThanNat n = true ↔ q < n := by
  obtain ⟨m, e, rfl, -, rfl⟩ := h
  obtain ⟨hden, hvalue⟩ := quotient_eq m e
  have hden' : (0 : ℚ) < (quotient m e).2 := by exact_mod_cast hden
  rw [← hvalue, div_lt_iff₀ hden', lessThanNat_finite, if_neg Bool.false_ne_true,
    decide_eq_true_eq]
  exact_mod_cast Iff.rfl

/-- A negative number is less than any that is not. -/
theorem Is.lessThanNat_of_negative (h : x.Is true q) (n : Nat) : x.lessThanNat n = true := by
  have hpos := h.pos
  obtain ⟨m, e, rfl, -, rfl⟩ := h
  obtain ⟨-, hvalue⟩ := quotient_eq m e
  have hnum : (quotient m e).1 ≠ 0 := by
    intro hzero
    rw [hzero, Nat.cast_zero, zero_div] at hvalue
    exact hpos.ne hvalue
  rw [lessThanNat_finite, if_pos rfl, bne_iff_ne.2 hnum, Bool.true_or]

/-- Divided by a power of two, a number keeps its mantissa; it must not be so small that the
    exponent leaves its range. -/
theorem Is.divNat_two_pow (h : x.Is s q) (k : Nat) (hq : (2 : ℚ) ^ (leastExponent + 53 + k) ≤ q) :
    (x.divNat (2 ^ k)).Is s (q / 2 ^ k) := by
  obtain ⟨m, e, rfl, hm, rfl⟩ := h
  obtain ⟨hden, hvalue⟩ := quotient_eq m e
  have hhigh : (m : ℚ) < 2 ^ (53 : ℤ) := by exact_mod_cast hm.high
  have hexponent : leastExponent + k < e := by
    have hlt : (2 : ℚ) ^ (leastExponent + 53 + k) < 2 ^ (53 + e) := by
      calc (2 : ℚ) ^ (leastExponent + 53 + k) ≤ m * 2 ^ e := hq
        _ < 2 ^ (53 : ℤ) * 2 ^ e := by gcongr
        _ = 2 ^ (53 + e) := (zpow_add₀ two_ne_zero 53 e).symm
    rw [zpow_lt_zpow_iff_right₀ one_lt_two] at hlt
    omega
  have hm' : IsNormal m (e - k) :=
    ⟨hm.low, hm.high, by omega, by have := hm.greatest; omega⟩
  have hquotient : (m : ℚ) * 2 ^ (e - k) = m * 2 ^ e / 2 ^ k := by
    rw [zpow_sub₀ two_ne_zero, zpow_natCast, mul_div_assoc]
  refine ⟨m, e - k, ?_, hm', hquotient⟩
  rw [divNat_finite]
  refine ofQuotient_eq s (Nat.mul_pos hden (Nat.two_pow_pos k)) hm' ?_
  rw [hquotient, ← hvalue, Nat.cast_mul, Nat.cast_pow, Nat.cast_two, div_div]

/-- With one decimal a double is written as the nearest number of tenths. -/
theorem Is.oneDecimal_eq (h : x.Is s q) (ht : IsNearest (10 * q) t) :
    x.oneDecimal = if s then '-' :: writeTenths t else writeTenths t := by
  obtain ⟨m, e, rfl, -, rfl⟩ := h
  obtain ⟨hden, hvalue⟩ := quotient_eq m e
  have hround : roundHalfEven (10 * (quotient m e).1) (quotient m e).2 = t := by
    rw [roundHalfEven_eq_iff hden, Nat.cast_mul, Nat.cast_ofNat, mul_div_assoc, hvalue]
    exact ht
  rw [oneDecimal_finite, hround]

end Tracewright.Double
