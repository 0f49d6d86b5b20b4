/-
  Tracewright.Proofs.Value.Memory

  The objects of a memory after it has changed.

    * `object?_make`, `object?_putAt`, `object?_append` and their companions
                        — the objects after a change.
    * `mapping?_eq_some_iff` — the items that are mappings.
-/
import Mathlib.Data.List.Basic
import Tracewright.Proofs.Value.Mapping
import Tracewright.Settings.Basic

namespace Tracewright

/-- A document is a mapping as it is in a memory that holds nothing else. -/
theorem Document.entries?_eq (d : Document) (depths : Depths) :
    d.entries? = (d.memory depths).mapping? d.root := by
  rw [entries?]
  cases d.root <;> rfl

namespace Memory

variable {m m' : Memory} {r q n : Nat} {i j : Item} {k : Scalar} {o : Object}
  {entries : Mapping Item}

/-! ## Mappings -/

theorem mapping?_eq_some_iff :
    m.mapping? i = some entries ↔ ∃ r, i = .ref r ∧ m.object? r = some (.map entries) := by
  cases i with
  | scalar s => simp [mapping?]
  | ref r =>
    rw [mapping?, Option.bind_eq_some_iff]
    constructor
    · rintro ⟨o, ho, hentries⟩
      cases o <;> cases hentries
      exact ⟨r, rfl, ho⟩
    · rintro ⟨r', hr', ho⟩
      cases hr'
      exact ⟨_, ho, rfl⟩

theorem mapping?_ref_eq_some_iff :
    m.mapping? (.ref r) = some entries ↔ m.object? r = some (.map entries) := by
  rw [mapping?_eq_some_iff]
  constructor
  · rintro ⟨r', hr', ho⟩
    cases hr'
    exact ho
  · exact fun ho => ⟨r, rfl, ho⟩

theorem mapping?_congr (h : m'.object? r = m.object? r) :
    m'.mapping? (.ref r) = m.mapping? (.ref r) := by
  rw [mapping?, mapping?, h]

theorem entriesAt_congr (h : m'.object? r = m.object? r) : m'.entriesAt r = m.entriesAt r := by
  rw [entriesAt, entriesAt, mapping?_congr h]

theorem lt_length_of_object? (h : m.object? r = some o) : r < m.objects.length :=
  (List.getElem?_eq_some_iff.1 h).1

/-! ## Objects after a change -/

theorem object?_make_of_lt (hr : r < m.objects.length) (o : Object) :
    (m.make o).object? r = m.object? r :=
  List.getElem?_append_left hr

theorem object?_make_length (m : Memory) (o : Object) :
    (m.make o).object? m.objects.length = some o :=
  List.getElem?_concat_length

theorem length_make (m : Memory) (o : Object) :
    (m.make o).objects.length = m.objects.length + 1 :=
  List.length_append

theorem putAt_of_mapping? (h : m.mapping? (.ref r) = some entries) (k : Scalar) (i : Item) :
    m.putAt r k i = { m with objects := m.objects.set r (.map (entries.put k i)) } := by
  rw [putAt, h]

theorem object?_putAt (h : m.mapping? (.ref r) = some entries) (k : Scalar) (i : Item) :
    (m.putAt r k i).object? r = some (.map (entries.put k i)) := by
  rw [putAt_of_mapping? h]
  exact List.getElem?_set_self (lt_length_of_object? (mapping?_ref_eq_some_iff.1 h))

theorem mapping?_putAt (h : m.mapping? (.ref r) = some entries) (k : Scalar) (i : Item) :
    (m.putAt r k i).mapping? (.ref r) = some (entries.put k i) :=
  mapping?_ref_eq_some_iff.2 (object?_putAt h k i)

theorem object?_putAt_of_ne (hq : q ≠ r) (m : Memory) (k : Scalar) (i : Item) :
    (m.putAt r k i).object? q = m.object? q := by
  rw [putAt]
  split
  · exact List.getElem?_set_ne (Ne.symm hq)
  · rfl

/-- What is a mapping stays one, and nothing else becomes one. -/
theorem isSome_mapping?_putAt (m : Memory) (r : Nat) (k : Scalar) (i j : Item) :
    ((m.putAt r k i).mapping? j).isSome = (m.mapping? j).isSome := by
  cases j with
  | scalar s => rfl
  | ref q =>
    by_cases hq : q = r
    · subst hq
      cases h : m.mapping? (.ref q) with
      | none => rw [putAt, h, h]
      | some entries => rw [mapping?_putAt h]; rfl
    · rw [mapping?_congr (object?_putAt_of_ne hq m k i)]

theorem length_putAt (m : Memory) (r : Nat) (k : Scalar) (i : Item) :
    (m.putAt r k i).objects.length = m.objects.length := by
  rw [putAt]
  split
  · exact List.length_set
  · rfl

theorem depths_putAt (m : Memory) (r : Nat) (k : Scalar) (i : Item) :
    (m.putAt r k i).depths = m.depths := by
  rw [putAt]
  split <;> rfl

theorem object?_append_of_lt (hr : r < m.objects.length) (objects : List Object) :
    (m.append objects).object? r = m.object? r :=
  List.getElem?_append_left hr

theorem object?_append_add (m : Memory) (objects : List Object) (r : Nat) :
    (m.append objects).object? (r + m.objects.length) =
      objects[r]?.map (Object.shift m.objects.length) := by
  show (m.objects ++ objects.map (Object.shift m.objects.length))[r + m.objects.length]? = _
  rw [List.getElem?_append_right (Nat.le_add_left _ r), Nat.add_sub_cancel, List.getElem?_map]

end Memory

end Tracewright
