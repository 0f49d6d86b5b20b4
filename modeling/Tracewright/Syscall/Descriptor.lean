/-
  Tracewright.Syscall.Descriptor

  A system call as the generator sees it: number, name, whether the platform
  has it, and which argument slots hold strings.

    * `Descriptor.ofMask`   — the slots follow from the capabilities.
    * `Descriptor.checked`  — the slots are given, and checked.
    * `Descriptor.fits`     — the call has one of the capabilities asked for.

  Reference: `SyscallDescriptor`, with `__post_init__`, `from_mask` and
  `matches`; slots are positions there.
-/
import Tracewright.Failure
import Tracewright.Syscall.Mask

namespace Tracewright

/-- A system call; `slots` are the argument slots that hold strings. -/
structure Descriptor where
  number : Int
  name : Text
  available : Bool := true
  slots : List (Fin Mask.slotLimit) := []
  mask : Mask := 0
  deriving DecidableEq, Repr

namespace Descriptor

def strings (d : Descriptor) : Nat := d.slots.length

/-- The slots whose bit is set, in ascending order. -/
def maskSlots (mask : Mask) : List (Fin Mask.slotLimit) :=
  (List.finRange Mask.slotLimit).filter fun i => mask.bit i

/-- A system call whose string slots are those of its mask. -/
def ofMask (number : Int) (name : Text) (mask : Mask) (available : Bool) : Descriptor where
  number := number
  name := name
  available := available
  slots := maskSlots mask
  mask := mask

def slot? (n : Int) : Option (Fin Mask.slotLimit) :=
  if h : 0 ≤ n ∧ n < Mask.slotLimit then some ⟨n.toNat, by omega⟩ else none

/-- The numbers as slots, if all of them are. -/
def slots? : List Int → Option (List (Fin Mask.slotLimit))
  | [] => some []
  | n :: rest => do
    let i ← slot? n
    let is ← slots? rest
    pure (i :: is)

/-- A system call with the slots given: as many as are said to be, and all of them slots. -/
def checked (number : Int) (name : Text) (available : Bool) (count : Int) (slots : List Int)
    (mask : Mask) : Except ConfigFault Descriptor :=
  if (slots.length : Int) ≠ count then .error (.slotCount name count slots.length)
  else match slots? slots with
    | some is => .ok ⟨number, name, available, is, mask⟩
    | none => .error (.slotsOutOfRange name slots)

/-- Nothing is asked for, or the call has one of the capabilities asked for. -/
def fits (d : Descriptor) (mask : Mask) : Bool := mask == 0 || Mask.meet d.mask mask != 0

def isSelected (d : Descriptor) (mask : Mask) : Bool := d.available && d.fits mask

theorem mem_maskSlots {mask : Mask} {i : Fin Mask.slotLimit} :
    i ∈ maskSlots mask ↔ mask.bit i = true := by
  simp [maskSlots]

end Descriptor

end Tracewright
