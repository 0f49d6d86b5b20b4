/-
  Tracewright.Proofs.Output.Size

  A size as people read it is the exact one, rounded once.  No division by
  1024 rounds, so the unit is the greatest one that the size fills, and the one
  decimal is that of the exact quotient.

    * `renderIn_of_is`  — the walk through the units.
    * `IsLevel`         — the unit that a size is shown in.
    * `renderInt_exact` — the text of every size of at most 53 bits.
-/
import Tracewright.Output.Size
import Tracewright.Proofs.Number.Exact
import Tracewright.Proofs.Number.Numeral
import Tracewright.Proofs.Run

namespace Tracewright.Size

open Double (IsNearest)

variable {x : Double} {q : ℚ} {n k t : Nat}

/-! ## The walk through the units -/

theorem is_divNat (h : x.Is false q) (hq : 1024 ≤ q) : (x.divNat 1024).Is false (q / 1024) := by
  have hleast : (2 : ℚ) ^ (Double.leastExponent + 53 + (10 : Nat)) ≤ q := by
    calc (2 : ℚ) ^ (Double.leastExponent + 53 + (10 : Nat)) ≤ 2 ^ (10 : ℤ) :=
          zpow_le_zpow_right₀ one_le_two (by rw [Double.leastExponent]; omega)
      _ = 1024 := by norm_num
      _ ≤ q := hq
  have hdivided := h.divNat_two_pow 10 hleast
  norm_num at hdivided
  exact hdivided

/-- The walk stops at the first unit that leaves a number below 1024, or at the greatest one; what
    it has divided by is divided off exactly. -/
theorem renderIn_of_is (h : x.Is false q) (us : List Text) :
    ∃ k y unit, (us ++ [greatestUnit])[k]? = some unit ∧ renderIn x us = inUnit y unit ∧
      y.Is false (q / 1024 ^ k) ∧ (∀ j < k, 1024 ^ (j + 1) ≤ q) ∧
      (k < us.length → q < 1024 ^ (k + 1)) := by
  induction us generalizing x q with
  | nil => exact ⟨0, x, greatestUnit, rfl, rfl, by rwa [pow_zero, div_one], nofun, nofun⟩
  | cons u us ih =>
    rw [renderIn]
    split_ifs with hless
    -- the walk stops here, with nothing divided off
    · rw [h.lessThanNat_iff] at hless
      refine ⟨0, x, u, rfl, rfl, by rwa [pow_zero, div_one], nofun, fun _ => ?_⟩
      rw [zero_add, pow_one]
      exact_mod_cast hless
    -- one unit further all of this is about the quotient
    · rw [h.lessThanNat_iff, not_lt] at hless
      have hq : 1024 ≤ q := by exact_mod_cast hless
      obtain ⟨k, y, unit, hunit, hrender, hy, hfills, hleaves⟩ := ih (is_divNat h hq)
      refine ⟨k + 1, y, unit, hunit, hrender, ?_, fun j hj => ?_, fun hk => ?_⟩
      · rw [pow_succ', ← div_div]
        exact hy
      · cases j with
        | zero => rw [zero_add, pow_one]; exact hq
        | succ j =>
          rw [pow_succ, ← le_div_iff₀ (by norm_num)]
          exact hfills j (by omega)
      · rw [pow_succ, ← div_lt_iff₀ (by norm_num)]
        exact hleaves (by rw [List.length_cons] at hk; omega)

/-! ## The unit -/

/-- The size fills `k` of the steps from one unit to the next, and no more of the four. -/
structure IsLevel (n k : Nat) : Prop where
  le : k ≤ 4
  fills : 1024 ^ k ≤ n ∨ n < 1024 ∧ k = 0
  greatest : ∀ j ≤ 4, 1024 ^ j ≤ n → j ≤ k

theorem isLevel_of_steps (hk : k ≤ 4) (hfills : ∀ j < k, 1024 ^ (j + 1) ≤ n)
    (hleaves : k < 4 → n < 1024 ^ (k + 1)) : IsLevel n k := by
  refine ⟨hk, ?_, fun j hj hle => ?_⟩
  · cases k with
    | zero => exact .inr ⟨hleaves (by omega), rfl⟩
    | succ k => exact .inl (hfills k (by omega))
  · by_contra hlt
    have hpow : 1024 ^ (k + 1) ≤ 1024 ^ j := Nat.pow_le_pow_right (by decide) (by omega)
    have := hleaves (by omega)
    omega

theorem IsLevel.unique {k' : Nat} (h : IsLevel n k) (h' : IsLevel n k') : k = k' := by
  -- a level with nothing below it is filled or the least one
  have hle : ∀ {i j}, IsLevel n i → IsLevel n j → i ≤ j := by
    intro i j hi hj
    rcases hi.fills with hfills | ⟨-, rfl⟩
    · exact hj.greatest i hi.le hfills
    · exact Nat.zero_le j
  exact Nat.le_antisymm (hle h h') (hle h' h)

/-! ## The text -/

/-- Tenths as a numeral with one decimal. -/
theorem writeTenths_eq (t : Nat) :
    Double.writeTenths t =
      Numeral.decimal (t / 10 : Nat) ++ '.' :: Numeral.decimal (t % 10 : Nat) := by
  have hdigits : ∀ m : Nat, Nat.toDigits 10 m = Numeral.decimal m := fun m =>
    Numeral.isCanonical_iff.1 (Numeral.isCanonical_toDigits m)
  rw [Double.writeTenths, hdigits, hdigits]

theorem isNearest_tenths (n k : Nat) :
    IsNearest (10 * ((n : ℚ) / 1024 ^ k)) (Double.roundHalfEven (10 * n) (1024 ^ k)) := by
  have hden : 0 < 1024 ^ k := by positivity
  have hnearest := Double.isNearest_roundHalfEven (10 * n) hden
  push_cast at hnearest
  rw [mul_div_assoc] at hnearest
  exact hnearest

theorem renderInt_of_pos (hn : 0 < n) (hlt : n < 2 ^ 53) :
    ∃ k unit, IsLevel n k ∧ (units ++ [greatestUnit])[k]? = some unit ∧
      ∀ t, IsNearest (10 * ((n : ℚ) / 1024 ^ k)) t →
        renderInt n = .ok (Double.writeTenths t ++ ' ' :: unit) := by
  obtain ⟨x, hx, his⟩ := Double.exists_ofInt? (n := n) (by omega) hlt
  have hsign : decide ((n : Int) < 0) = false := decide_eq_false (by omega)
  rw [hsign, Int.natAbs_natCast] at his
  obtain ⟨k, y, unit, hunit, hrender, hy, hfills, hleaves⟩ := renderIn_of_is his units
  have hk : k < (units ++ [greatestUnit]).length := (List.getElem?_eq_some_iff.1 hunit).1
  have hlevel : IsLevel n k := by
    refine isLevel_of_steps (Nat.le_of_lt_succ hk) (fun j hj => ?_) (fun h => ?_)
    · exact_mod_cast hfills j hj
    · exact_mod_cast hleaves h
  refine ⟨k, unit, hlevel, hunit, fun t ht => ?_⟩
  rw [renderInt, hx]
  show Except.ok (renderIn x units) = _
  rw [hrender, inUnit, hy.oneDecimal_eq ht]
  rfl

theorem renderInt_zero : renderInt 0 = .ok (Double.writeTenths 0 ++ ' ' :: ("B" : Text)) :=
  eq_ok_of_toOption (by decide +kernel)

/-- The unit of a negative size is the least one, since the walk does not look at its digits. -/
theorem renderInt_of_negative {n : Int} (hn : n < 0) (hlt : n.natAbs < 2 ^ 53) :
    renderInt n = .ok (Numeral.decimal n ++ (".0 B" : Text)) := by
  obtain ⟨x, hx, his⟩ := Double.exists_ofInt? (n := n) (by omega) hlt
  rw [decide_eq_true hn] at his
  have htenths : IsNearest (10 * (n.natAbs : ℚ)) (10 * n.natAbs) := by
    have hnearest := Double.isNearest_natCast (10 * n.natAbs)
    push_cast at hnearest ⊢
    exact hnearest
  have hwhole : Double.writeTenths (10 * n.natAbs) = Nat.toDigits 10 n.natAbs ++ (".0" : Text) := by
    rw [Double.writeTenths, Nat.mul_div_cancel_left _ (by decide), Nat.mul_mod_right]
    rfl
  have hrender : render x = inUnit x "B" := if_pos (his.lessThanNat_of_negative 1024)
  rw [renderInt, hx]
  show Except.ok (render x) = _
  rw [hrender, inUnit, his.oneDecimal_eq htenths, if_pos rfl, hwhole, Numeral.decimal,
    Numeral.signed, if_pos hn]
  simp

/-! ## A size next to the unit above -/

/-- A size is shown as 1024 of a unit only if it is next to that. -/
theorem le_of_isNearest_1024 (h : IsNearest (10 * q) 10240) : 1023.95 ≤ q := by
  have hnear := (abs_le.1 h.near).1
  push_cast at hnear
  norm_num at hnear ⊢
  linarith

theorem isNearest_1024 (hlow : 1023.95 ≤ q) (hhigh : q < 1024) : IsNearest (10 * q) 10240 := by
  norm_num at hlow
  refine ⟨abs_le.2 ⟨?_, ?_⟩, fun _ => by decide⟩
  · push_cast
    linarith
  · push_cast
    linarith

theorem IsLevel.lt_1024 (h : IsLevel n k) (hk : k < 4) : (n : ℚ) / 1024 ^ k < 1024 := by
  have hlt : n < 1024 ^ (k + 1) := by
    by_contra hle
    have := h.greatest (k + 1) hk (Nat.not_lt.1 hle)
    omega
  rw [div_lt_iff₀ (by positivity), ← pow_succ']
  exact_mod_cast hlt

/-- Every size of at most 53 bits is shown in the greatest unit that it fills, as the exact
    quotient with one decimal, of two that are as near the even one; next to the unit above, and
    only there, that is 1024 of a unit.  A negative size is shown in whole bytes. -/
theorem renderInt_exact :
    (∀ n : Nat, n < 2 ^ 53 → ∃ k tenths unit, IsLevel n k ∧
      (["B", "KB", "MB", "GB", "TB"] : List Text)[k]? = some unit ∧
      IsNearest (10 * ((n : ℚ) / 1024 ^ k)) tenths ∧
      renderInt n = .ok (Numeral.decimal (tenths / 10 : Nat) ++
        '.' :: Numeral.decimal (tenths % 10 : Nat) ++ ' ' :: unit) ∧
      (tenths = 10240 → 1023.95 ≤ (n : ℚ) / 1024 ^ k) ∧
      (k < 4 → 1023.95 ≤ (n : ℚ) / 1024 ^ k → tenths = 10240)) ∧
    (∃ n : Nat, n < 2 ^ 53 ∧ renderInt n = .ok ("1024.0 KB" : Text)) ∧
    ∀ n : Int, -2 ^ 53 < n → n < 0 → renderInt n = .ok (Numeral.decimal n ++ (".0 B" : Text)) := by
  refine ⟨fun n hlt => ?_, ⟨1048575, by decide, eq_ok_of_toOption (by decide +kernel)⟩,
    fun n hlt hn => ?_⟩
  · obtain ⟨k, unit, hlevel, hunit, hrender⟩ : ∃ k unit, IsLevel n k ∧
        (units ++ [greatestUnit])[k]? = some unit ∧
        ∀ t, IsNearest (10 * ((n : ℚ) / 1024 ^ k)) t →
          renderInt n = .ok (Double.writeTenths t ++ ' ' :: unit) := by
      -- nought has no digits to count, so it is looked at on its own
      rcases Nat.eq_zero_or_pos n with rfl | hn
      · refine ⟨0, "B", isLevel_of_steps (by decide) nofun (by decide), rfl, fun t ht => ?_⟩
        rw [Nat.cast_zero, zero_div, mul_zero] at ht
        have hzero : IsNearest 0 0 := by exact_mod_cast Double.isNearest_natCast 0
        rw [ht.unique hzero]
        exact renderInt_zero
      · exact renderInt_of_pos hn hlt
    have ht := isNearest_tenths n k
    refine ⟨k, _, unit, hlevel, hunit, ht, ?_, fun h => ?_, fun hk hnear => ?_⟩
    · rw [hrender _ ht, writeTenths_eq]
    · rw [h] at ht
      exact le_of_isNearest_1024 ht
    · exact ht.unique (isNearest_1024 hnear (hlevel.lt_1024 hk))
  · exact renderInt_of_negative hn (by omega)

/-- A tie, which goes to the even tenth, and a negative size. -/
theorem renderInt_exact_tie :
    1280 < 2 ^ 53 ∧ IsLevel 1280 1 ∧ IsNearest (10 * (((1280 : Nat) : ℚ) / 1024 ^ 1)) 12 ∧
      renderInt (1280 : Nat) = .ok ("1.2 KB" : Text) ∧
      -2 ^ 53 < (-1025 : Int) ∧ (-1025 : Int) < 0 ∧
      renderInt (-1025) = .ok ("-1025.0 B" : Text) := by
  have hlt : 1280 < 2 ^ 53 := by decide
  have hnegative : -2 ^ 53 < (-1025 : Int) ∧ (-1025 : Int) < 0 := by decide
  have hlevel : IsLevel 1280 1 := isLevel_of_steps (by decide) (by decide) (by decide)
  have htie : IsNearest (10 * (((1280 : Nat) : ℚ) / 1024 ^ 1)) 12 := by
    refine ⟨?_, fun _ => by decide⟩
    norm_num
  obtain ⟨hsizes, -, hbelow⟩ := renderInt_exact
  obtain ⟨k, tenths, unit, hk, hunit, ht, hrender, -⟩ := hsizes 1280 hlt
  rw [hk.unique hlevel] at hunit ht
  rw [ht.unique htie] at hrender
  cases hunit
  exact ⟨hlt, hlevel, htie, hrender, hnegative.1, hnegative.2,
    hbelow (-1025) hnegative.1 hnegative.2⟩

end Tracewright.Size
