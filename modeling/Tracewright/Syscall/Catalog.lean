/-
  Tracewright.Syscall.Catalog

  A collection of system calls, no two of one number.  It remembers the order
  in which they were added and lists them by ascending number.

    * `Catalog.add`, `Catalog.ofList` — a second call of one number is refused.
    * `Catalog.toList`                — every call, by ascending number.
    * `Catalog.select`                — the calls that are to be traced.

  Reference: `SyscallCatalog`, with `add`, `__iter__`, `get_by_name` and
  `select`.
-/
import Tracewright.Sorting
import Tracewright.Syscall.Descriptor

namespace Tracewright

/-- System calls in the order in which they were added. -/
structure Catalog where
  entries : List Descriptor
  nodup_numbers : (entries.map Descriptor.number).Nodup
  deriving Repr

namespace Catalog

def empty : Catalog := ⟨[], .nil⟩

/-! ## Adding -/

def add (c : Catalog) (d : Descriptor) : Except ConfigFault Catalog :=
  if h : d.number ∈ c.entries.map Descriptor.number then .error (.duplicateNumber d.number)
  else .ok ⟨c.entries ++ [d], by
    rw [List.map_append, List.nodup_append]
    refine ⟨c.nodup_numbers, by simp, fun a ha b hb => ?_⟩
    simp only [List.map_cons, List.map_nil, List.mem_singleton] at hb
    subst hb
    exact fun e => h (e ▸ ha)⟩

/-- Adds system calls one after the other. -/
def addAll (c : Catalog) (ds : List Descriptor) : Except ConfigFault Catalog := ds.foldlM add c

/-- The catalog of a list of system calls. -/
def ofList (ds : List Descriptor) : Except ConfigFault Catalog := empty.addAll ds

/-! ## Looking up -/

def size (c : Catalog) : Nat := c.entries.length

def get? (c : Catalog) (n : Int) : Option Descriptor := c.entries.find? (·.number == n)

def contains (c : Catalog) (n : Int) : Bool := c.entries.any (·.number == n)

/-- The system call of a name that was added first. -/
def byName? (c : Catalog) (name : Text) : Option Descriptor := c.entries.find? (·.name == name)

/-! ## Listing -/

/-- Every system call, by ascending number. -/
def toList (c : Catalog) : List Descriptor := sortBy (fun a b => a.number ≤ b.number) c.entries

/-- The available system calls with one of the capabilities asked for. -/
def select (c : Catalog) (mask : Mask) : List Descriptor := c.toList.filter (·.isSelected mask)

theorem toList_perm (c : Catalog) : c.toList.Perm c.entries := sortBy_perm _ _

@[simp] theorem mem_toList {c : Catalog} {d : Descriptor} : d ∈ c.toList ↔ d ∈ c.entries :=
  mem_sortBy

/-- The numbers are strictly ascending. -/
theorem toList_ascending (c : Catalog) : c.toList.Pairwise (·.number < ·.number) := by
  have sorted : c.toList.Pairwise fun a b => decide (a.number ≤ b.number) = true :=
    sortBy_pairwise
      (fun a b => by simp only [decide_eq_true_eq]; omega)
      (fun a b c => by simp only [decide_eq_true_eq]; omega) c.entries
  have nodup : c.toList.Pairwise (·.number ≠ ·.number) :=
    List.pairwise_map.1 ((c.toList_perm.map Descriptor.number).nodup_iff.2 c.nodup_numbers)
  refine (sorted.and nodup).imp fun {a b} h => ?_
  have := h.1
  simp only [decide_eq_true_eq] at this
  have := h.2
  omega

end Catalog

end Tracewright
