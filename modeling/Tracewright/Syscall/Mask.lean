/-
  Tracewright.Syscall.Mask

  Sets of argument capabilities as bits of an integer.  A negative integer
  has all bits set from some place on: `-1 - n` holds the bits that `n` lacks.

    * `Mask.bit`    — whether a place is set.
    * `Mask.meet`, `Mask.union` — the bits of both, the bits of either.
    * `Mask.flag?`  — the bit that goes by a name.

  Reference: `ArgMask`.
-/
import Tracewright.Text.Case

namespace Tracewright

/-- A set of capabilities. -/
abbrev Mask := Int

namespace Mask

/-! ## Bits -/

def bit (m : Mask) (i : Nat) : Bool :=
  match m with
  | .ofNat n => n.testBit i
  | .negSucc n => !n.testBit i

/-- The bits that the mask lacks. -/
def complement : Mask → Mask
  | .ofNat n => .negSucc n
  | .negSucc n => .ofNat n

def meet : Mask → Mask → Mask
  | .ofNat m, .ofNat n => .ofNat (m &&& n)
  | .ofNat m, .negSucc n => .ofNat (m ^^^ (m &&& n))
  | .negSucc m, .ofNat n => .ofNat (n ^^^ (n &&& m))
  | .negSucc m, .negSucc n => .negSucc (m ||| n)

def union (a b : Mask) : Mask := (meet a.complement b.complement).complement

@[simp] theorem bit_complement (m : Mask) (i : Nat) : m.complement.bit i = !m.bit i := by
  cases m <;> simp [complement, bit]

@[simp] theorem bit_meet (a b : Mask) (i : Nat) : (meet a b).bit i = (a.bit i && b.bit i) := by
  cases a <;> cases b <;>
    simp only [meet, bit, Nat.testBit_and, Nat.testBit_or, Nat.testBit_xor, Bool.not_or] <;>
    rename_i m n <;> cases m.testBit i <;> cases n.testBit i <;> rfl

@[simp] theorem bit_union (a b : Mask) (i : Nat) : (union a b).bit i = (a.bit i || b.bit i) := by
  simp [union]

/-! ## Capabilities -/

/-- The number of argument slots of a system call. -/
abbrev slotLimit : Nat := 6

/-- The `i`-th argument slot, counted from nought, holds a string. -/
def string (i : Nat) : Mask := .ofNat (Nat.pow 2 i)

/-- The `i`-th of the two places for file descriptors, counted from nought, is taken. -/
def descriptor (i : Nat) : Mask := .ofNat (Nat.pow 2 (slotLimit + i))

def names : List (Text × Mask) := [
  ("STR_1", string 0), ("STR_2", string 1), ("STR_3", string 2),
  ("STR_4", string 3), ("STR_5", string 4), ("STR_6", string 5),
  ("FD_1", descriptor 0), ("FD_2", descriptor 1)]

/-- The capability of a name, in letters of either case. -/
def flag? (name : Text) : Option Mask := names.lookup (Text.upper name)

end Mask

end Tracewright
