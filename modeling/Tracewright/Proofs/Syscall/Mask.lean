/-
  Tracewright.Proofs.Syscall.Mask

  Masks by their bits.  A mask is an integer, a negative one has all bits set
  from some place on, and two masks with the same bits are one.

    * `bit_eq_testBit`, `union_eq_lor`
                          — bits and union are those of the integers.
    * `eq_of_bit`         — a mask is known by its bits.
    * `meet_ne_zero_iff`  — masks meet where they have a bit in common.
    * `bit_of_flag?`      — the capability of a name is one bit, and the place
                            of the name says which.
-/
import Mathlib.Data.Int.Bitwise
import Tracewright.Syscall.Mask

namespace Tracewright.Mask

variable {a b m : Mask} {t : Text} {i j : Nat}

/-! ## Bits -/

theorem bit_eq_testBit (m : Mask) (i : Nat) : m.bit i = Int.testBit m i := by
  cases m <;> rfl

/-- A mask is known by its bits. -/
theorem eq_of_bit (h : ∀ i, a.bit i = b.bit i) : a = b := by
  -- far enough up, an integer that is not negative has no bit set, and a negative one has all
  have hfar (m n : Nat) : ∃ i, m.testBit i = false ∧ n.testBit i = false :=
    ⟨max m n, Nat.testBit_lt_two_pow (Nat.lt_of_le_of_lt (Nat.le_max_left m n) Nat.lt_two_pow_self),
      Nat.testBit_lt_two_pow (Nat.lt_of_le_of_lt (Nat.le_max_right m n) Nat.lt_two_pow_self)⟩
  cases a with
  | ofNat m =>
    cases b with
    | ofNat n => exact congrArg Int.ofNat (Nat.eq_of_testBit_eq h)
    | negSucc n =>
      obtain ⟨i, hm, hn⟩ := hfar m n
      have hi : m.testBit i = !n.testBit i := h i
      rw [hm, hn] at hi
      cases hi
  | negSucc m =>
    cases b with
    | ofNat n =>
      obtain ⟨i, hm, hn⟩ := hfar m n
      have hi : (!m.testBit i) = n.testBit i := h i
      rw [hm, hn] at hi
      cases hi
    | negSucc n =>
      exact congrArg Int.negSucc (Nat.eq_of_testBit_eq fun i => Bool.not_inj (h i))

theorem union_eq_lor (a b : Mask) : union a b = Int.lor a b := by
  apply eq_of_bit
  intro i
  rw [bit_union, bit_eq_testBit (Int.lor a b), Int.testBit_lor, bit_eq_testBit, bit_eq_testBit]

@[simp] theorem bit_zero (i : Nat) : bit 0 i = false := Nat.zero_testBit i

theorem ne_zero_iff : m ≠ 0 ↔ ∃ i, m.bit i = true := by
  constructor
  · intro h
    by_contra hnone
    rw [not_exists] at hnone
    exact h (eq_of_bit fun i => by rw [bit_zero, Bool.eq_false_iff.2 (hnone i)])
  · rintro ⟨i, hi⟩ rfl
    rw [bit_zero] at hi
    cases hi

/-- Masks meet where they have a bit in common. -/
theorem meet_ne_zero_iff : meet a b ≠ 0 ↔ ∃ i, a.bit i = true ∧ b.bit i = true := by
  rw [ne_zero_iff]
  simp only [bit_meet, Bool.and_eq_true]

theorem bit_ofNat_pow : bit (.ofNat (Nat.pow 2 i)) j = true ↔ i = j := by
  show (2 ^ i).testBit j = true ↔ i = j
  rw [Nat.testBit_two_pow, decide_eq_true_eq]

theorem bit_string : (string i).bit j = true ↔ i = j := bit_ofNat_pow

/-! ## Capabilities -/

/-- The names of the capabilities, each at the place of its bit. -/
def flagNames : List Text :=
  ["STR_1", "STR_2", "STR_3", "STR_4", "STR_5", "STR_6", "FD_1", "FD_2"]

theorem nodup_flagNames : flagNames.Nodup := by decide

/-- The `i`-th name goes with the `i`-th bit. -/
theorem getElem?_names (i : Nat) :
    names[i]? = flagNames[i]?.map fun t => (t, .ofNat (Nat.pow 2 i)) := by
  have hnames : names = flagNames.zipIdx.map fun e => (e.1, .ofNat (Nat.pow 2 e.2)) := rfl
  rw [hnames, List.getElem?_map, List.getElem?_zipIdx, Option.map_map, Nat.zero_add]
  rfl

theorem isSome_flag?_iff : (flag? t).isSome = true ↔ Text.upper t ∈ flagNames := by
  have hnames : flagNames = names.map Prod.fst := rfl
  rw [flag?, List.lookup_isSome_iff, hnames, List.mem_map]
  refine exists_congr fun e => and_congr_right fun _ => ?_
  rw [beq_iff_eq, eq_comm]

/-- The capability of a name is the bit at its place, and no other one. -/
theorem bit_of_flag? (h : flag? t = some m) :
    m.bit i = true ↔ flagNames[i]? = some (Text.upper t) := by
  rw [flag?, List.lookup_eq_some_iff] at h
  obtain ⟨before, after, hnames, -⟩ := h
  have hplace : names[before.length]? = some (Text.upper t, m) := by
    rw [hnames, List.getElem?_append_right (Nat.le_refl _), Nat.sub_self]
    rfl
  rw [getElem?_names, Option.map_eq_some_iff] at hplace
  obtain ⟨name, hname, heq⟩ := hplace
  cases heq
  rw [bit_ofNat_pow]
  constructor
  · rintro rfl
    exact hname
  · intro hi
    have hplace := (List.getElem?_eq_some_iff.1 hname).1
    exact (List.getElem?_inj hplace nodup_flagNames).1 (hname.trans hi.symm)

end Tracewright.Mask
