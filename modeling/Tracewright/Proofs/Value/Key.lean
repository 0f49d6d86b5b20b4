/-
  Tracewright.Proofs.Value.Key

  When two scalars are one key.  Each scalar counts as something, a number as
  its value, and scalars are one key if they count as the same; so being one
  key is an equivalence.

    * `Double.fraction`  — the value of a finite number.
    * `Scalar.Standing`  — what a scalar counts as.
    * `Scalar.same_iff`  — one key is what counts as the same.
    * `Scalar.same_self`, `same_comm`, `same_congr`
                         — the equivalence.
-/
import Mathlib.Tactic.SplitIfs
import Tracewright.Value.Basic

namespace Tracewright

/-! ## Numbers by value -/

namespace Double

/-- The number with a sign. -/
def signed (negative : Bool) (n : Nat) : Int := if negative then -(n : Int) else n

/-- The value of a finite number. -/
def fraction (negative : Bool) (m : Nat) (e : Int) : Rat :=
  mkRat (signed negative (quotient m e).1) (quotient m e).2

theorem quotient_pos (m : Nat) (e : Int) : 0 < (quotient m e).2 := by
  rw [quotient]
  split_ifs
  · exact Nat.one_pos
  · exact Nat.pow_pos (by decide)

/-- Products with signs are equal if they are without, and the sign of nought does not count. -/
theorem signed_mul_eq_iff {s s' : Bool} {n d n' d' : Nat} (hd' : 0 < d') :
    signed s n * d' = signed s' n' * d ↔ n * d' = n' * d ∧ (s = s' ∨ n = 0) := by
  have hn : (n : Int) * d' = ((n * d' : Nat) : Int) := (Int.natCast_mul n d').symm
  have hn' : (n' : Int) * d = ((n' * d : Nat) : Int) := (Int.natCast_mul n' d).symm
  have hzero : n * d' = 0 ↔ n = 0 := by
    rw [Nat.mul_eq_zero]
    omega
  -- as integers the products differ from those of the natural numbers by their signs
  cases s <;> cases s' <;>
    simp only [signed, Bool.false_eq_true, if_false, if_true, Int.neg_mul, hn, hn', reduceCtorEq,
      false_or, true_or, and_true] <;>
    omega

theorem same_finite_iff {s s' : Bool} {m m' : Nat} {e e' : Int} :
    same (.finite s m e) (.finite s' m' e') = true ↔ fraction s m e = fraction s' m' e' := by
  have hpos := quotient_pos m e
  have hpos' := quotient_pos m' e'
  rw [fraction, fraction, Rat.mkRat_eq_iff (by omega) (by omega), signed_mul_eq_iff hpos', same]
  simp

/-- A number with a sign is a multiple of what the number without it is one of. -/
theorem signed_mul (s : Bool) (n d : Nat) : signed s (d * n) = signed s n * d := by
  cases s
  · simp only [signed, Bool.false_eq_true, if_false, Int.natCast_mul, Int.mul_comm]
  · simp only [signed, if_true, Int.natCast_mul, Int.neg_mul, Int.mul_comm (d : Int)]

theorem dvd_of_dvd_signed {s : Bool} {n d : Nat} (h : (d : Int) ∣ signed s n) : d ∣ n := by
  cases s
  · exact Int.natCast_dvd_natCast.1 h
  · exact Int.natCast_dvd_natCast.1 (Int.dvd_neg.1 h)

/-- The integer that a finite number is has its value. -/
theorem toInt?_finite_iff {s : Bool} {m : Nat} {e n : Int} :
    toInt? (.finite s m e) = some n ↔ fraction s m e = n := by
  have hpos := quotient_pos m e
  rw [fraction, ← Rat.mkRat_one, Rat.mkRat_eq_iff (by omega) Nat.one_ne_zero, toInt?]
  rcases hquotient : quotient m e with ⟨num, den⟩
  rw [hquotient] at hpos
  have hvalue : (if s then -((num / den : Nat) : Int) else ((num / den : Nat) : Int)) =
      signed s (num / den) := rfl
  simp only [hvalue, Int.natCast_one, Int.mul_one]
  constructor
  · intro h
    split_ifs at h with hmod
    rw [Option.some.injEq] at h
    have hnum : den * (num / den) = num := Nat.mul_div_cancel' (Nat.dvd_of_mod_eq_zero hmod)
    rw [← h, ← signed_mul, hnum]
  · intro h
    have hdvd : den ∣ num := dvd_of_dvd_signed ⟨n, h.trans (Int.mul_comm n den)⟩
    have hnum : den * (num / den) = num := Nat.mul_div_cancel' hdvd
    rw [← hnum, signed_mul] at h
    -- the denominator is not nought, so it can be taken away on both sides
    have hden : (den : Int) ≠ 0 := by omega
    rw [if_pos (Nat.mod_eq_zero_of_dvd hdvd), Int.eq_of_mul_eq_mul_right hden h]

end Double

/-! ## What scalars count as -/

namespace Scalar

/-- What a scalar counts as, as a key. -/
inductive Standing where
  | nothing
  | number (q : Rat)
  | infinite (negative : Bool)
  | notNumber
  | text (t : Text)
  | bytes (bs : List UInt8)
  | moment (kind : MomentKind) (instant : Int)

/-- A finite floating point number counts as its value. -/
def Standing.ofDouble : Double → Standing
  | .finite s m e => .number (Double.fraction s m e)
  | .infinite s => .infinite s
  | .nan => .notNumber

/-- The number that a truth value counts as. -/
def truth (b : Bool) : Int := if b then 1 else 0

def standing : Scalar → Standing
  | .null => .nothing
  | .bool b => .number (truth b)
  | .int n => .number n
  | .float x => .ofDouble x
  | .text t => .text t
  | .bytes bs => .bytes bs
  | .moment m => .moment m.kind m.instant

theorem ofDouble_eq_number_iff {x : Double} {n : Int} :
    Standing.ofDouble x = .number n ↔ x.toInt? = some n := by
  cases x with
  | finite s m e => rw [Double.toInt?_finite_iff, Standing.ofDouble, Standing.number.injEq]
  | infinite s => simp [Double.toInt?, Standing.ofDouble]
  | nan => simp [Double.toInt?, Standing.ofDouble]

/-- The scalar is a number. -/
def isNumber : Scalar → Bool
  | .bool _ | .int _ | .float _ => true
  | _ => false

/-- No floating point number counts as what is not a number. -/
theorem ofDouble_ne_standing (x : Double) {s : Scalar} (h : s.isNumber = false) :
    Standing.ofDouble x ≠ s.standing := by
  cases s with
  | bool _ | int _ | float _ => cases h
  | null | text _ | bytes _ | moment _ => cases x <;> exact Standing.noConfusion

theorem same_float_iff {x y : Double} :
    same (.float x) (.float y) = true ↔ Standing.ofDouble x = Standing.ofDouble y := by
  rw [same, Bool.or_eq_true]
  cases x with
  | finite s m e =>
    cases y with
    | finite s' m' e' => simp [Double.same_finite_iff, Standing.ofDouble]
    | infinite s' => simp [Double.same, Standing.ofDouble]
    | nan => simp [Double.same, Standing.ofDouble]
  | infinite s => cases y <;> simp [Double.same, Standing.ofDouble]
  | nan => cases y <;> simp [Double.same, Standing.ofDouble]

/-- Scalars are one key if they count as the same. -/
theorem same_iff {a b : Scalar} : a.same b = true ↔ a.standing = b.standing := by
  -- an integer, a truth value or not, is compared with a floating point number by its value
  have hfloat (x : Double) (n : Int) : (Standing.ofDouble x = .number n ↔ x.toInt? = some n) ∧
      (.number n = Standing.ofDouble x ↔ x.toInt? = some n) :=
    ⟨ofDouble_eq_number_iff, eq_comm.trans ofDouble_eq_number_iff⟩
  -- and with anything else it is never one key
  have hother (x : Double) (c : Scalar) (hc : c.isNumber = false) :
      Standing.ofDouble x ≠ c.standing ∧ c.standing ≠ Standing.ofDouble x :=
    ⟨ofDouble_ne_standing x hc, (ofDouble_ne_standing x hc).symm⟩
  cases a with
  | float x =>
    cases b with
    | float y => exact same_float_iff
    | bool c => simp [same, standing, integer?, ← truth.eq_1, hfloat]
    | int n => simp [same, standing, integer?, hfloat]
    | null | text _ | bytes _ | moment _ =>
      exact iff_of_false (by simp [same, integer?]) (hother x _ rfl).1
  | bool c => cases b <;> simp [same, standing, integer?, ← truth.eq_1, hfloat]
  | int n => cases b <;> simp [same, standing, integer?, ← truth.eq_1, hfloat]
  | null | text _ | bytes _ | moment _ =>
    cases b with
    | float x => exact iff_of_false (by simp [same, integer?]) (hother x _ rfl).2
    | null | text _ | bytes _ | moment _ | bool _ | int _ => simp [same, standing, integer?]

/-! ## The equivalence -/

theorem same_self (a : Scalar) : a.same a = true := same_iff.2 rfl

theorem same_comm (a b : Scalar) : a.same b = b.same a := by
  rw [Bool.eq_iff_iff, same_iff, same_iff]
  exact eq_comm

/-- One key in the place of the other makes no difference. -/
theorem same_congr {a b : Scalar} (h : a.same b = true) (c : Scalar) : a.same c = b.same c := by
  rw [Bool.eq_iff_iff, same_iff, same_iff, same_iff.1 h]

end Scalar

end Tracewright
