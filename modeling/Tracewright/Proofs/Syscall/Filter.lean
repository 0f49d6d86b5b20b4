/-
  Tracewright.Proofs.Syscall.Filter

  What a mask says about a system call: which argument slots hold strings, and
  which filters let the call pass.  Both go by the bits of the mask, so they
  agree, whatever integer the mask is.

    * `slots?_eq_some_iff` — numbers that are slots.
    * `fits_iff`           — a filter and a mask share a bit.
    * `fits_string_iff`, `fits_union_iff` — filters of one bit, and of two parts.
    * `isByMask_ofMask`    — a call that is made of a mask.
    * `select_eq_filter`   — a selection by what the filter says of each call.
    * `filters_agree`      — all of this, for the named selections, too.
-/
import Mathlib.Data.List.FinRange
import Tracewright.Capture.Selection
import Tracewright.Proofs.Syscall.Catalog
import Tracewright.Proofs.Syscall.Mask

namespace Tracewright

namespace Descriptor

variable {d : Descriptor} {mask : Mask}

/-! ## Slots -/

theorem slot?_eq_some_iff {n : Int} {i : Fin Mask.slotLimit} : slot? n = some i ↔ n = i.val := by
  rw [slot?]
  split_ifs with h
  · rw [Option.some.injEq, Fin.ext_iff]
    show n.toNat = i.val ↔ n = i.val
    omega
  · refine ⟨nofun, fun hn => absurd ?_ h⟩
    have := i.isLt
    omega

theorem slots?_eq_some_iff {ns : List Int} {is : List (Fin Mask.slotLimit)} :
    slots? ns = some is ↔ ns = is.map fun i => (i.val : Int) := by
  induction ns generalizing is with
  | nil =>
    rw [slots?, Option.some.injEq, eq_comm (a := []), eq_comm (a := []), List.map_eq_nil_iff]
  | cons n ns ih =>
    rw [slots?]
    constructor
    · intro h
      obtain ⟨i, hi, h⟩ := Option.bind_eq_some_iff.1 h
      obtain ⟨js, hjs, h⟩ := Option.bind_eq_some_iff.1 h
      cases h
      rw [List.map_cons, slot?_eq_some_iff.1 hi, ih.1 hjs]
    · intro h
      cases is with
      | nil => cases h
      | cons i is =>
        rw [List.map_cons, List.cons.injEq] at h
        rw [slot?_eq_some_iff.2 h.1, ih.2 h.2]
        rfl

/-- Slots are accepted as they are. -/
theorem checked_slots (d : Descriptor) :
    checked d.number d.name d.available d.strings (d.slots.map fun i => (i.val : Int)) d.mask =
      .ok d := by
  have hcount : ¬ ((d.slots.map fun i => (i.val : Int)).length : Int) ≠ d.strings := by
    rw [List.length_map]
    exact not_not_intro rfl
  rw [checked, if_neg hcount, slots?_eq_some_iff.2 rfl]

theorem maskSlots_ascending (mask : Mask) : (maskSlots mask).Pairwise (· < ·) :=
  (List.pairwise_lt_finRange _).filter _

/-! ## Filters -/

/-- A filter lets a call pass if it is empty, or if it has a bit in common with its mask. -/
theorem fits_iff : d.fits mask = true ↔
    mask = 0 ∨ ∃ i, d.mask.bit i = true ∧ mask.bit i = true := by
  rw [fits, Bool.or_eq_true, beq_iff_eq, bne_iff_ne, Mask.meet_ne_zero_iff]

theorem fits_string_iff {i : Nat} : d.fits (Mask.string i) = true ↔ d.mask.bit i = true := by
  have hne : Mask.string i ≠ 0 := Mask.ne_zero_iff.2 ⟨i, Mask.bit_string.2 rfl⟩
  rw [fits_iff, or_iff_right hne]
  simp only [Mask.bit_string, exists_eq_right']

theorem fits_descriptor_iff {i : Nat} :
    d.fits (Mask.descriptor i) = true ↔ d.mask.bit (Mask.slotLimit + i) = true :=
  fits_string_iff

/-- A filter of two parts lets a call pass that one of them lets pass.  An empty filter is no part
    in this sense: it lets every call pass. -/
theorem fits_union_iff {a b : Mask} (ha : a ≠ 0) (hb : b ≠ 0) :
    d.fits (Mask.union a b) = true ↔ d.fits a = true ∨ d.fits b = true := by
  have hne : Mask.union a b ≠ 0 := by
    obtain ⟨i, hi⟩ := Mask.ne_zero_iff.1 ha
    exact Mask.ne_zero_iff.2 ⟨i, by rw [Mask.bit_union, hi, Bool.true_or]⟩
  rw [fits_iff, fits_iff, fits_iff, or_iff_right hne, or_iff_right ha, or_iff_right hb,
    ← exists_or]
  simp only [Mask.bit_union, Bool.or_eq_true, and_or_left]

/-- A call says what it has been made of, and its slots, and the filters that let it pass, are
    those of the mask. -/
structure IsByMask (d : Descriptor) (number : Int) (name : Text) (mask : Mask)
    (available : Bool) : Prop where
  number_eq : d.number = number
  name_eq : d.name = name
  mask_eq : d.mask = mask
  available_eq : d.available = available
  /-- The slots stand as any others would be accepted. -/
  accepted : checked number name available d.strings (d.slots.map fun i => (i.val : Int)) mask =
    .ok d
  ascending : d.slots.Pairwise (· < ·)
  mem_slots_iff : ∀ i, i ∈ d.slots ↔ Int.testBit mask i = true
  fits_iff : ∀ i, d.fits ((1 <<< i.val : Nat) : Int) = true ↔ i ∈ d.slots

theorem isByMask_ofMask (number : Int) (name : Text) (mask : Mask) (available : Bool) :
    IsByMask (ofMask number name mask available) number name mask available where
  number_eq := rfl
  name_eq := rfl
  mask_eq := rfl
  available_eq := rfl
  accepted := checked_slots (ofMask number name mask available)
  ascending := maskSlots_ascending mask
  mem_slots_iff i := by
    rw [← Mask.bit_eq_testBit]
    exact mem_maskSlots
  fits_iff i := by
    rw [Nat.one_shiftLeft]
    exact fits_string_iff.trans mem_maskSlots.symm

end Descriptor

namespace Catalog

variable {c : Catalog} {d : Descriptor} {mask : Mask}

/-! ## Selections -/

theorem mem_select :
    d ∈ c.select mask ↔ d ∈ c.toList ∧ d.available = true ∧ d.fits mask = true := by
  rw [select, List.mem_filter, Descriptor.isSelected, Bool.and_eq_true]

/-- A selection by a filter is the one by what the filter says about each call. -/
theorem select_eq_filter {p : Descriptor → Bool}
    (h : ∀ d ∈ c.entries, d.fits mask = true ↔ p d = true) :
    c.select mask = c.toList.filter fun d => d.available && p d := by
  refine List.filter_congr fun d hd => ?_
  rw [Descriptor.isSelected, Bool.eq_iff_iff.2 (h d (mem_toList.1 hd))]

/-- An empty filter selects whatever any other one does. -/
theorem select_sublist (c : Catalog) (mask : Mask) : (c.select mask).Sublist (c.select 0) := by
  refine List.monotone_filter_right _ fun d hd => ?_
  rw [Descriptor.isSelected, Bool.and_eq_true] at hd ⊢
  exact ⟨hd.1, Descriptor.fits_iff.2 (.inl rfl)⟩

/-- Masks, slots and filters agree, for every integer that a mask can be.  A call made of a mask
    has the slots of its bits, and each of the named selections of such calls is the one by its
    slots and its bits.  For calls of any kind, a filter of two parts selects what either part
    does, and every selection is one from the selection without a filter, in its order. -/
theorem filters_agree :
    (∀ number name mask available,
      (Descriptor.ofMask number name mask available).IsByMask number name mask available) ∧
    (∀ c : Catalog, (∀ d ∈ c.entries, ∃ number name mask available,
        d = .ofMask number name mask available) →
      (Selection.ofName? "kp-file").map (fun s => c.select s.mask) =
        some (c.toList.filter fun d => d.available && d.slots.contains 0) ∧
      (Selection.ofName? "kp-desc").map (fun s => c.select s.mask) =
        some (c.toList.filter fun d => d.available && Int.testBit d.mask 6) ∧
      (Selection.ofName? "kp-fileio").map (fun s => c.select s.mask) =
        some (c.toList.filter fun d => d.available &&
          (d.slots.contains 0 || d.slots.contains 1 || Int.testBit d.mask 6))) ∧
    ∀ (c : Catalog) (a b : Mask), a ≠ 0 → b ≠ 0 →
      (∀ d, d ∈ c.select (Int.lor a b) ↔ d ∈ c.select a ∨ d ∈ c.select b) ∧
      ∀ m ∈ [a, b, Int.lor a b],
        (c.select m).Sublist (c.select 0) ∧ (c.select m).Pairwise (·.number < ·.number) := by
  refine ⟨Descriptor.isByMask_ofMask, fun c hc => ?_, fun c a b ha hb => ⟨fun d => ?_, ?_⟩⟩
  · have hslot (i : Fin Mask.slotLimit) : ∀ d ∈ c.entries,
        d.fits (Mask.string i) = true ↔ d.slots.contains i = true := by
      intro d hd
      obtain ⟨number, name, mask, available, rfl⟩ := hc d hd
      rw [List.contains_iff_mem, Descriptor.fits_string_iff]
      exact Descriptor.mem_maskSlots.symm
    have hdescriptor : ∀ d ∈ c.entries,
        d.fits (Mask.descriptor 0) = true ↔ Int.testBit d.mask 6 = true := by
      intro d _
      rw [Descriptor.fits_descriptor_iff, Mask.bit_eq_testBit]
    have hfile : Selection.ofName? "kp-file" = some ⟨Mask.string 0, false⟩ := by decide
    have hdesc : Selection.ofName? "kp-desc" = some ⟨Mask.descriptor 0, false⟩ := by decide
    have hfileio : Selection.ofName? "kp-fileio" = some
        ⟨Mask.union (Mask.string 0) (Mask.union (Mask.string 1) (Mask.descriptor 0)), false⟩ := by
      decide
    refine ⟨?_, ?_, ?_⟩
    · rw [hfile]
      exact congrArg some (select_eq_filter (hslot 0))
    · rw [hdesc]
      exact congrArg some (select_eq_filter hdescriptor)
    · rw [hfileio]
      refine congrArg some (select_eq_filter fun d hd => ?_)
      -- the filter has three parts, none of them empty
      rw [Descriptor.fits_union_iff (by decide) (by decide),
        Descriptor.fits_union_iff (by decide) (by decide), hdescriptor d hd, Bool.or_eq_true,
        Bool.or_eq_true, or_assoc]
      exact or_congr (hslot 0 d hd) (or_congr_left (hslot 1 d hd))
  · rw [← Mask.union_eq_lor, mem_select, mem_select, mem_select, Descriptor.fits_union_iff ha hb,
      and_or_left, and_or_left]
  · exact fun m _ => ⟨select_sublist c m, c.toList_ascending.filter _⟩

/-- Calls with masks that are negative, or have bits beyond those with names. -/
def oddMasks : Catalog where
  entries := [.ofMask 16 "b" 64 true, .ofMask 8 "a" (-2) true, .ofMask 1 "c" 1024 true,
    .ofMask 3 "d" (-1) false]
  nodup_numbers := by decide

/-- A negative mask has every bit from some place on: those of slots, of file descriptors, and those
    without a name. -/
theorem filters_agree_oddMasks :
    (Descriptor.ofMask 8 "a" (-2) true).mask = -2 ∧
      (∀ i, i ∈ (Descriptor.ofMask 8 "a" (-2) true).slots ↔ i ≠ 0) ∧
      (Selection.ofName? "kp-fileio").map (fun s => (oddMasks.select s.mask).map (·.number)) =
        some [8, 16] ∧
      Descriptor.ofMask 8 "a" (-2) true ∈ oddMasks.select (Int.lor 1 1024) := by
  have hmade : ∀ d ∈ oddMasks.entries, ∃ number name mask available,
      d = .ofMask number name mask available := by
    intro d hd
    simp only [oddMasks, List.mem_cons, List.not_mem_nil, or_false] at hd
    rcases hd with rfl | rfl | rfl | rfl <;> exact ⟨_, _, _, _, rfl⟩
  obtain ⟨hmask, hnamed, hunion⟩ := filters_agree
  have hmade₈ := hmask 8 "a" (-2) true
  obtain ⟨-, -, hfileio⟩ := hnamed oddMasks hmade
  refine ⟨hmade₈.mask_eq, fun i => (hmade₈.mem_slots_iff i).trans ?_, ?_, ?_⟩
  · revert i
    decide
  · have hnumbers := congrArg (Option.map (List.map Descriptor.number)) hfileio
    rw [Option.map_map] at hnumbers
    exact hnumbers.trans (by decide)
  · exact ((hunion oddMasks 1 1024 (by decide) (by decide)).1 _).2 (.inr (by decide))

end Catalog

end Tracewright
