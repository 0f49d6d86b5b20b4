/-
  Tracewright.Proofs.Value.Ways

  The ways from an item to the objects below it.  What happens to an object
  matters to those who can come to it, and to nobody else; if there is one way
  to it only, then only to what stands on this way.

    * `Memory.go?`           — what one comes to on a way.
    * `Memory.Reaches`, `Memory.IsReachedOnce`
                             — one can come to an object, and in one way only.
    * `Memory.IsClosed`      — every reference leads to an object.
    * `Memory.at?`           — what stands at the end of a path of keys.
    * `IsReachedOnce.prefix_of_at?`
                             — what leads to an object that is reached once.
    * `isReachedOnce_of_nodup`, `length_lt_of_isShallow`
                             — checks: no two references to one object, and no
                               mapping deeper than so many steps.
-/
import Mathlib.Data.List.Induction
import Mathlib.Data.List.Nodup
import Tracewright.Proofs.Value.Memory

namespace Tracewright.Memory

variable {m m' : Memory} {i j x : Item} {r q n : Nat} {o : Object} {way way' : List Nat}
  {k : Scalar} {p p' : List Scalar} {entries : Mapping Item}

/-! ## Ways -/

/-- What one comes to on a way: each step goes on to one of the items that an object holds, by its
    place. -/
def go? (m : Memory) : Item → List Nat → Option Item
  | i, [] => some i
  | .scalar _, _ :: _ => none
  | .ref r, n :: way => ((m.object? r).bind (·.items[n]?)).bind fun j => m.go? j way

/-- One can come to an object. -/
def Reaches (m : Memory) (i : Item) (r : Nat) : Prop := ∃ way, m.go? i way = some (.ref r)

/-- One can come to an object in one way only. -/
def IsReachedOnce (m : Memory) (i : Item) (r : Nat) : Prop :=
  ∀ way way', m.go? i way = some (.ref r) → m.go? i way' = some (.ref r) → way = way'

/-- Every reference leads to an object that is there. -/
def IsClosed (m : Memory) : Prop := ∀ o ∈ m.objects, ∀ i ∈ o.items, i.IsBelow m.objects.length

theorem go?_cons_eq_some {n : Nat} : m.go? i (n :: way) = some j ↔
    ∃ r o i', i = .ref r ∧ m.object? r = some o ∧ o.items[n]? = some i' ∧
      m.go? i' way = some j := by
  cases i with
  | scalar s => simp [go?]
  | ref r =>
    rw [go?, Option.bind_eq_some_iff]
    simp only [Option.bind_eq_some_iff, Item.ref.injEq]
    constructor
    · rintro ⟨i', ⟨o, ho, hi'⟩, hj⟩
      exact ⟨r, o, i', rfl, ho, hi', hj⟩
    · rintro ⟨r', o, i', rfl, ho, hi', hj⟩
      exact ⟨i', ⟨o, ho, hi'⟩, hj⟩

theorem go?_append (m : Memory) (i : Item) (way way' : List Nat) :
    m.go? i (way ++ way') = (m.go? i way).bind fun j => m.go? j way' := by
  induction way generalizing i with
  | nil => cases i <;> rfl
  | cons n way ih =>
    cases i with
    | scalar s => rfl
    | ref r =>
      rw [List.cons_append, go?, go?]
      cases (m.object? r).bind (·.items[n]?) with
      | none => rfl
      | some j => exact ih j

theorem reaches_self (m : Memory) (r : Nat) : m.Reaches (.ref r) r := ⟨[], rfl⟩

theorem not_reaches_scalar (m : Memory) (s : Scalar) (r : Nat) : ¬ m.Reaches (.scalar s) r := by
  rintro ⟨way, h⟩
  cases way <;> cases h

/-- What one can come to from something that an object holds, one can come to from the object. -/
theorem reaches_of_mem (ho : m.object? r = some o) (hi : i ∈ o.items) (h : m.Reaches i q) :
    m.Reaches (.ref r) q := by
  obtain ⟨n, hn⟩ := List.getElem?_of_mem hi
  obtain ⟨way, hway⟩ := h
  exact ⟨n :: way, go?_cons_eq_some.2 ⟨r, o, i, rfl, ho, hn, hway⟩⟩

theorem reaches_of_go? (h : m.go? i way = some j) (hj : m.Reaches j q) : m.Reaches i q := by
  obtain ⟨way', hway'⟩ := hj
  exact ⟨way ++ way', by rw [go?_append, h]; exact hway'⟩

/-- One does not come to anything that is not there. -/
theorem IsClosed.isBelow_of_go? (hm : m.IsClosed) (hi : i.IsBelow m.objects.length)
    (h : m.go? i way = some j) : j.IsBelow m.objects.length := by
  induction way generalizing i with
  | nil =>
    cases i <;> cases h <;> exact hi
  | cons n way ih =>
    obtain ⟨r, o, i', rfl, ho, hi', h⟩ := go?_cons_eq_some.1 h
    exact ih (hm o (List.mem_of_getElem? ho) i' (List.mem_of_getElem? hi')) h

theorem IsClosed.lt_length (hm : m.IsClosed) (hi : i.IsBelow m.objects.length)
    (h : m.Reaches i r) : r < m.objects.length := by
  obtain ⟨way, hway⟩ := h
  exact hm.isBelow_of_go? hi hway

/-! ## Paths -/

/-- What stands at the end of a path of keys, from mapping to mapping. -/
def at? (m : Memory) (i : Item) : List Scalar → Option Item
  | [] => some i
  | k :: ks => ((m.mapping? i).bind (·.get? k)).bind fun j => m.at? j ks

theorem at?_cons_of_some (h : m.mapping? i = some entries) (k : Scalar) (p : List Scalar) :
    m.at? i (k :: p) = (entries.get? k).bind fun j => m.at? j p := by
  rw [at?, h]
  rfl

theorem at?_cons_of_none (h : m.mapping? i = none) (k : Scalar) (p : List Scalar) :
    m.at? i (k :: p) = none := by
  rw [at?, h]
  rfl

theorem at?_append (m : Memory) (i : Item) (p p' : List Scalar) :
    m.at? i (p ++ p') = (m.at? i p).bind fun j => m.at? j p' := by
  induction p generalizing i with
  | nil => rfl
  | cons k p ih =>
    rw [List.cons_append, at?, at?]
    cases (m.mapping? i).bind (·.get? k) with
    | none => rfl
    | some j => exact ih j

/-- What stands at the end of a path, if it is a mapping. -/
def mappingAt? (m : Memory) (i : Item) (p : List Scalar) : Option (Mapping Item) :=
  (m.at? i p).bind m.mapping?

theorem mappingAt?_eq_some_iff : m.mappingAt? i p = some entries ↔
    ∃ r, m.at? i p = some (.ref r) ∧ m.mapping? (.ref r) = some entries := by
  rw [mappingAt?, Option.bind_eq_some_iff]
  constructor
  · rintro ⟨j, hj, hentries⟩
    obtain ⟨r, rfl, -⟩ := mapping?_eq_some_iff.1 hentries
    exact ⟨r, hj, hentries⟩
  · rintro ⟨r, hr, hentries⟩
    exact ⟨.ref r, hr, hentries⟩

theorem mappingAt?_nil (m : Memory) (i : Item) : m.mappingAt? i [] = m.mapping? i := rfl

theorem mappingAt?_cons_of_some (h : m.mapping? i = some entries) (k : Scalar) (p : List Scalar) :
    m.mappingAt? i (k :: p) = (entries.get? k).bind fun j => m.mappingAt? j p := by
  rw [mappingAt?, at?_cons_of_some h, Option.bind_assoc]
  rfl

theorem mappingAt?_cons_of_none (h : m.mapping? i = none) (k : Scalar) (p : List Scalar) :
    m.mappingAt? i (k :: p) = none := by
  rw [mappingAt?, at?_cons_of_none h, Option.bind_none]

/-! ## Paths of names -/

theorem find?_eq_at? (m : Memory) (i : Item) (names : List Text) :
    m.find? i names = m.at? i (names.map .text) := by
  induction names generalizing i with
  | nil => rfl
  | cons k ks ih =>
    rw [find?, List.map_cons, at?]
    cases (m.mapping? i).bind (·.getText? k) with
    | none => rfl
    | some j => exact ih j

theorem find?_cons (hi : m.mapping? i = some entries) (t : Text) (names : List Text) :
    m.find? i (t :: names) = (entries.getText? t).bind fun j => m.find? j names := by
  rw [find?, hi, Option.bind_some]
  cases entries.getText? t <;> rfl

theorem find?_cons_of_none (hi : m.mapping? i = none) (t : Text) (names : List Text) :
    m.find? i (t :: names) = none := by
  rw [find?, hi, Option.bind_none]

theorem find?_append (m : Memory) (i : Item) (names names' : List Text) :
    m.find? i (names ++ names') = (m.find? i names).bind fun j => m.find? j names' := by
  simp only [find?_eq_at?, List.map_append, at?_append]

/-! ## Paths and ways -/

/-- Keys lead along a way: at each step, the place is one of an entry under the key. -/
inductive Leads (m : Memory) : Item → List Scalar → List Nat → Item → Prop where
  | nil (i : Item) : Leads m i [] [] i
  | cons {r : Nat} {entries : Mapping Item} {n : Nat} {k k₀ : Scalar} {i j : Item}
    {p : List Scalar} {way : List Nat} : m.object? r = some (.map entries) →
    entries[n]? = some (k₀, i) → k₀.standing = k.standing → Leads m i p way j →
    Leads m (.ref r) (k :: p) (n :: way) j

theorem exists_leads (h : m.at? i p = some j) : ∃ way, Leads m i p way j := by
  induction p generalizing i with
  | nil =>
    cases h
    exact ⟨[], .nil _⟩
  | cons k p ih =>
    rw [at?, Option.bind_eq_some_iff] at h
    obtain ⟨i', hi', h⟩ := h
    obtain ⟨entries, hentries, hget⟩ := Option.bind_eq_some_iff.1 hi'
    obtain ⟨r, rfl, ho⟩ := mapping?_eq_some_iff.1 hentries
    obtain ⟨e, he, hsame, rfl⟩ := Mapping.exists_mem_of_get? hget
    obtain ⟨n, hn⟩ := List.getElem?_of_mem he
    obtain ⟨way, hway⟩ := ih h
    exact ⟨n :: way, .cons ho hn (Scalar.same_iff.1 hsame) hway⟩

theorem Leads.go?_eq (h : Leads m i p way j) : m.go? i way = some j := by
  induction h with
  | nil => rw [go?]
  | cons ho hn _ _ ih =>
    refine go?_cons_eq_some.2 ⟨_, _, _, rfl, ho, ?_, ih⟩
    rw [Object.items, List.getElem?_map, hn]
    rfl

theorem reaches_of_at? (h : m.at? i p = some j) (hj : m.Reaches j q) : m.Reaches i q := by
  obtain ⟨way, hway⟩ := exists_leads h
  exact reaches_of_go? hway.go?_eq hj

/-- A way that goes on has been led by the same keys so far. -/
theorem Leads.prefix_of_way (h : Leads m i p way j) {j' : Item} (h' : Leads m i p' way' j')
    (hway : way <+: way') : p.map Scalar.standing <+: p'.map Scalar.standing := by
  induction h generalizing p' way' j' with
  | nil => exact List.nil_prefix
  | cons ho hn hk _ ih =>
    cases h' with
    | nil => cases List.prefix_nil.1 hway
    | cons ho' hn' hk' hrest =>
      obtain ⟨rfl, hway'⟩ := List.cons_prefix_cons.1 hway
      rw [ho, Option.some.injEq, Object.map.injEq] at ho'
      subst ho'
      rw [hn, Option.some.injEq, Prod.mk.injEq] at hn'
      obtain ⟨rfl, rfl⟩ := hn'
      rw [List.map_cons, List.map_cons, ← hk, ← hk']
      exact List.cons_prefix_cons.2 ⟨rfl, ih hrest hway'⟩

/-- To what one comes in one way only, one comes from nothing but what stands on this way. -/
theorem IsReachedOnce.prefix_of_at? (h : m.IsReachedOnce i r) (hp : m.at? i p = some (.ref r))
    (hp' : m.at? i p' = some j) (hj : m.Reaches j r) :
    p'.map Scalar.standing <+: p.map Scalar.standing := by
  obtain ⟨way, hway⟩ := exists_leads hp
  obtain ⟨way', hway'⟩ := exists_leads hp'
  obtain ⟨rest, hrest⟩ := hj
  -- the other path can be gone on to the object, so it is on the one way there is
  have hlong : m.go? i (way' ++ rest) = some (.ref r) := by
    rw [go?_append, hway'.go?_eq]
    exact hrest
  exact hway'.prefix_of_way hway (h _ _ hlong hway.go?_eq ▸ List.prefix_append way' rest)

/-- One does not come to anything that is not there, along keys either. -/
theorem IsClosed.isBelow_of_at? (hm : m.IsClosed) (hi : i.IsBelow m.objects.length)
    (h : m.at? i p = some j) : j.IsBelow m.objects.length := by
  obtain ⟨way, hway⟩ := exists_leads h
  exact hm.isBelow_of_go? hi hway.go?_eq

/-- Names come to nothing that leads to an object that is reached once, but on the way there. -/
theorem IsReachedOnce.prefix_names (h : m.IsReachedOnce i r) {names names' : List Text}
    (hp : m.find? i names = some (.ref r)) (hp' : m.find? i names' = some j) (hj : m.Reaches j r) :
    names' <+: names := by
  have hinj : Function.Injective (Scalar.standing ∘ Scalar.text) := fun a b hab =>
    Scalar.Standing.text.inj hab
  rw [find?_eq_at?] at hp hp'
  have hpre := h.prefix_of_at? hp hp' hj
  rw [List.map_map, List.map_map] at hpre
  exact (List.prefix_map_iff_of_injective hinj).1 hpre

/-- What stands under a key is held by a mapping. -/
theorem exists_mem_of_get? (hi : m.mapping? i = some entries) (hj : entries.get? k = some j) :
    ∃ r o, i = .ref r ∧ m.object? r = some o ∧ j ∈ o.items := by
  obtain ⟨r, rfl, ho⟩ := mapping?_eq_some_iff.1 hi
  obtain ⟨e, he, -, rfl⟩ := Mapping.exists_mem_of_get? hj
  exact ⟨r, _, rfl, ho, List.mem_map_of_mem he⟩

/-- So it is one of the objects that are there, or a scalar. -/
theorem IsClosed.isBelow_of_get? (hm : m.IsClosed) (hi : m.mapping? i = some entries)
    (hj : entries.get? k = some j) : j.IsBelow m.objects.length := by
  obtain ⟨r, o, rfl, ho, hmem⟩ := exists_mem_of_get? hi hj
  exact hm o (List.mem_of_getElem? ho) j hmem

theorem at?_singleton (hi : m.mapping? i = some entries) (k : Scalar) :
    m.at? i [k] = entries.get? k := by
  rw [at?_cons_of_some hi]
  cases entries.get? k <;> rfl

theorem reaches_of_get? (hi : m.mapping? i = some entries) (hj : entries.get? k = some j)
    (h : m.Reaches j q) : m.Reaches i q :=
  reaches_of_at? ((at?_singleton hi k).trans hj) h

theorem IsReachedOnce.of_get? (h : m.IsReachedOnce i q) (hi : m.mapping? i = some entries)
    (hj : entries.get? k = some j) : m.IsReachedOnce j q := by
  obtain ⟨r, o, rfl, ho, hmem⟩ := exists_mem_of_get? hi hj
  obtain ⟨n, hn⟩ := List.getElem?_of_mem hmem
  intro way way' hway hway'
  have hlonger {way : List Nat} (hway : m.go? j way = some (.ref q)) :
      m.go? (.ref r) (n :: way) = some (.ref q) :=
    go?_cons_eq_some.2 ⟨r, o, j, rfl, ho, hn, hway⟩
  exact (List.cons.inj (h _ _ (hlonger hway) (hlonger hway'))).2

/-- Where one comes in one way only, one cannot come back to. -/
theorem IsReachedOnce.not_reaches_of_get? (h : m.IsReachedOnce (.ref r) r)
    (hi : m.mapping? (.ref r) = some entries) (hj : entries.get? k = some j) :
    ¬ m.Reaches j r := by
  intro hreach
  have hpre := h.prefix_of_at? (p := []) rfl ((at?_singleton hi k).trans hj) hreach
  cases List.prefix_nil.1 hpre

/-! ## Checks -/

/-- No mapping stands so many steps deep. -/
def isShallow (m : Memory) : Nat → Item → Bool
  | 0, i => (m.mapping? i).isNone
  | n + 1, i => ((m.mapping? i).getD []).all fun e => m.isShallow n e.2

theorem length_lt_of_isShallow (h : m.isShallow n i = true)
    (hp : (m.mappingAt? i p).isSome = true) : p.length < n := by
  induction n generalizing i p with
  | zero =>
    have hnone : m.mapping? i = none := Option.isNone_iff_eq_none.1 h
    cases p with
    | nil => rw [mappingAt?_nil, hnone] at hp; cases hp
    | cons k p => rw [mappingAt?_cons_of_none hnone] at hp; cases hp
  | succ n ih =>
    cases p with
    | nil => exact Nat.succ_pos n
    | cons k p =>
      cases hi : m.mapping? i with
      | none => rw [mappingAt?_cons_of_none hi] at hp; cases hp
      | some entries =>
        rw [mappingAt?_cons_of_some hi] at hp
        cases hj : entries.get? k with
        | none => rw [hj] at hp; cases hp
        | some j =>
          rw [hj, Option.bind_some] at hp
          rw [isShallow, hi, Option.getD_some, List.all_eq_true] at h
          obtain ⟨e, he, -, rfl⟩ := Mapping.exists_mem_of_get? hj
          exact Nat.succ_lt_succ (ih (h e he) hp)

/-- The object that an item refers to. -/
def ref? : Item → Option Nat
  | .scalar _ => none
  | .ref r => some r

/-- All references from objects to objects. -/
def refs (m : Memory) : List Nat := m.objects.flatMap fun o => o.items.filterMap ref?

theorem mem_refs (ho : m.object? r = some o) (hn : o.items[n]? = some (.ref q)) : q ∈ m.refs :=
  List.mem_flatMap.2 ⟨o, List.mem_of_getElem? ho,
    List.mem_filterMap.2 ⟨_, List.mem_of_getElem? hn, rfl⟩⟩

/-- If no object is referred to twice, the place of a reference is known. -/
theorem place_unique (h : m.refs.Nodup) {r' n' : Nat} {o' : Object} (ho : m.object? r = some o)
    (hn : o.items[n]? = some (.ref q)) (ho' : m.object? r' = some o')
    (hn' : o'.items[n']? = some (.ref q)) : r = r' ∧ n = n' := by
  obtain ⟨hitems, hobjects⟩ := List.nodup_flatMap.1 h
  -- two objects do not share a reference, and in one object it stands once
  have hr : r = r' := by
    by_contra hne
    have hmem : q ∈ o.items.filterMap ref? :=
      List.mem_filterMap.2 ⟨_, List.mem_of_getElem? hn, rfl⟩
    have hmem' : q ∈ o'.items.filterMap ref? :=
      List.mem_filterMap.2 ⟨_, List.mem_of_getElem? hn', rfl⟩
    obtain ⟨hlt, rfl⟩ := List.getElem?_eq_some_iff.1 ho
    obtain ⟨hlt', rfl⟩ := List.getElem?_eq_some_iff.1 ho'
    have hpair := List.pairwise_iff_getElem.1 hobjects
    rcases Nat.lt_or_gt_of_ne hne with hr | hr
    · exact hpair _ _ hlt hlt' hr hmem hmem'
    · exact hpair _ _ hlt' hlt hr hmem' hmem
  subst hr
  rw [ho, Option.some.injEq] at ho'
  subst ho'
  refine ⟨rfl, ?_⟩
  by_contra hne
  have hpair := List.pairwise_iff_getElem.1
    (List.pairwise_filterMap.1 (hitems o (List.mem_of_getElem? ho)))
  obtain ⟨hlt, hq⟩ := List.getElem?_eq_some_iff.1 hn
  obtain ⟨hlt', hq'⟩ := List.getElem?_eq_some_iff.1 hn'
  rcases Nat.lt_or_gt_of_ne hne with hn | hn
  · exact hpair _ _ hlt hlt' hn q (by rw [hq]; rfl) q (by rw [hq']; rfl) rfl
  · exact hpair _ _ hlt' hlt hn q (by rw [hq']; rfl) q (by rw [hq]; rfl) rfl

/-- The last step of a way. -/
theorem exists_of_go?_concat (h : m.go? i (way ++ [n]) = some j) :
    ∃ r o, m.go? i way = some (.ref r) ∧ m.object? r = some o ∧ o.items[n]? = some j := by
  rw [go?_append, Option.bind_eq_some_iff] at h
  obtain ⟨i', hi', h⟩ := h
  obtain ⟨r, o, j', rfl, ho, hj', h⟩ := go?_cons_eq_some.1 h
  rw [go?, Option.some.injEq] at h
  exact ⟨r, o, hi', ho, h ▸ hj'⟩

/-- One comes to an object from another one only if something refers to it. -/
theorem mem_refs_of_reaches (h : m.Reaches (.ref r) q) (hne : q ≠ r) : q ∈ m.refs := by
  obtain ⟨way, hway⟩ := h
  rcases List.eq_nil_or_concat way with rfl | ⟨way, n, rfl⟩
  · cases hway
    exact absurd rfl hne
  · rw [List.concat_eq_append] at hway
    obtain ⟨r', o, -, ho, hn⟩ := exists_of_go?_concat hway
    exact mem_refs ho hn

/-- If no object is referred to twice, there is one way only from what nothing refers to. -/
theorem isReachedOnce_of_nodup (h : m.refs.Nodup) (hr : r ∉ m.refs) (q : Nat) :
    m.IsReachedOnce (.ref r) q := by
  intro way
  -- on the way back from the object: its last step is the only reference to it
  induction way using List.reverseRecOn generalizing q with
  | nil =>
    intro way' hway hway'
    cases hway
    rcases List.eq_nil_or_concat way' with rfl | ⟨way', n, rfl⟩
    · rfl
    · rw [List.concat_eq_append] at hway'
      obtain ⟨r', o, -, ho, hn⟩ := exists_of_go?_concat hway'
      exact absurd (mem_refs ho hn) hr
  | append_singleton way n ih =>
    intro way' hway hway'
    obtain ⟨r₁, o, hr₁, ho, hn⟩ := exists_of_go?_concat hway
    rcases List.eq_nil_or_concat way' with rfl | ⟨way', n', rfl⟩
    · cases hway'
      exact absurd (mem_refs ho hn) hr
    · rw [List.concat_eq_append] at hway' ⊢
      obtain ⟨r₂, o', hr₂, ho', hn'⟩ := exists_of_go?_concat hway'
      obtain ⟨rfl, rfl⟩ := place_unique h ho hn ho' hn'
      rw [ih r₁ way' hr₁ hr₂]

end Tracewright.Memory
