/-
  Tracewright.Proofs.Value.Alike

  When two items hold the same: the same kinds of things in the same places,
  however deep one goes.  It does not matter which objects they are, nor whether
  one of them stands in several places.

    * `Memory.unroll`      — an item with its parts, down to a depth.
    * `Memory.Alike`       — two items hold the same.
    * `IsCopied.alike`     — a copy holds the same.
    * `Memory.IsVariant`   — one memory has come of another one by putting items
                             that are alike in the place of others.
-/
import Tracewright.Proofs.Value.Copies

namespace Tracewright.Memory

variable {m m' : Memory} {i j : Item} {r n : Nat} {entries : Mapping Item}

/-! ## Parts -/

/-- An item with its parts, and theirs, down to a depth. -/
def unroll (m : Memory) : Nat → Item → Value
  | 0, _ => .tooDeep
  | _ + 1, .scalar s => .scalar s
  | depth + 1, .ref r =>
    match m.object? r with
    | none => .null
    | some (.list items) => .list (items.map (m.unroll depth))
    | some (.tuple items) => .tuple (items.map (m.unroll depth))
    | some (.set items) => .set items
    | some (.map entries) => .map (entries.mapValues (m.unroll depth))

/-- Two items hold the same, however deep one goes. -/
def Alike (m : Memory) (i : Item) (m' : Memory) (j : Item) : Prop :=
  ∀ depth, m.unroll depth i = m'.unroll depth j

theorem Alike.symm (h : Alike m i m' j) : Alike m' j m i := fun depth => (h depth).symm

theorem Alike.trans {m'' : Memory} {i' : Item} (h : Alike m i m' j) (h' : Alike m' j m'' i') :
    Alike m i m'' i' :=
  fun depth => (h depth).trans (h' depth)

/-- An item is a mapping if it is one a step deep. -/
theorem isSome_mapping?_unroll (m : Memory) (i : Item) :
    (m.unroll 1 i).mapping?.isSome = (m.mapping? i).isSome := by
  cases i with
  | scalar s => rfl
  | ref r =>
    rw [unroll, mapping?]
    cases m.object? r with
    | none => rfl
    | some o => cases o <;> rfl

theorem Alike.isSome_mapping? (h : Alike m i m' j) :
    (m.mapping? i).isSome = (m'.mapping? j).isSome := by
  rw [← isSome_mapping?_unroll, ← isSome_mapping?_unroll, h 1]

/-! ## Copies -/

/-- A copy holds the same. -/
theorem IsCopied.alike (h : IsCopied m m' n i) : Alike m' (i.shift n) m i := by
  intro depth
  induction depth generalizing i with
  | zero => rfl
  | succ depth ih =>
    cases i with
    | scalar s => rfl
    | ref r =>
      simp only [Item.shift, unroll, h.object?_eq]
      cases ho : m.object? r with
      | none => rfl
      | some o =>
        have hparts : ∀ j ∈ o.items, m'.unroll depth (j.shift n) = m.unroll depth j :=
          fun j hj => ih (h.of_mem ho hj)
        cases o with
        | list items =>
          have hitems : items.map (m'.unroll depth ∘ Item.shift n) = items.map (m.unroll depth) :=
            List.map_congr_left hparts
          simp only [Option.map_some, Object.shift, List.map_map, hitems]
        | tuple items =>
          have hitems : items.map (m'.unroll depth ∘ Item.shift n) = items.map (m.unroll depth) :=
            List.map_congr_left hparts
          simp only [Option.map_some, Object.shift, List.map_map, hitems]
        | set items => rfl
        | map entries =>
          refine congrArg Value.map ?_
          rw [Mapping.mapValues, Mapping.mapValues, List.map_map]
          exact List.map_congr_left fun e he =>
            congrArg (Prod.mk e.1) (hparts e.2 (List.mem_map_of_mem he))

/-- What has stayed holds the same. -/
theorem IsSame.alike (h : IsSame m m' i) : Alike m' i m i := by
  have hcopy := h.isCopied.alike
  rwa [shift_zero] at hcopy

/-! ## Variants -/

/-- The entry is the same, or it has got an item that is alike; no mapping has been replaced. -/
def IsVariantOf (m : Memory) (e e' : Scalar × Item) : Prop :=
  e'.1 = e.1 ∧ (e'.2 = e.2 ∨ (m.mapping? e.2 = none ∧ m.Alike e.2 m e'.2))

/-- Nothing has changed but items of mappings, which have given way to others that are alike. -/
def IsVariant (m m' : Memory) : Prop :=
  ∀ q, m'.object? q = m.object? q ∨ ∃ entries entries' : Mapping Item,
    m.object? q = some (.map entries) ∧ m'.object? q = some (.map entries') ∧
      List.Forall₂ (IsVariantOf m) entries entries'

theorem isVariant_self (m : Memory) : IsVariant m m := fun _ => .inl rfl

/-- Whatever it is, it holds the same. -/
theorem IsVariant.alike (h : IsVariant m m') (i : Item) : Alike m' i m i := by
  intro depth
  induction depth generalizing i with
  | zero => rfl
  | succ depth ih =>
    have hparts : m'.unroll depth = m.unroll depth := funext ih
    cases i with
    | scalar s => rfl
    | ref r =>
      rcases h r with hr | ⟨entries, entries', hr, hr', hall⟩
      · simp only [unroll, hr, hparts]
      · -- entry by entry, since each item has stayed or given way to one that is alike
        simp only [unroll, hr, hr', hparts]
        refine congrArg Value.map ?_
        clear hr hr'
        induction hall with
        | nil => rfl
        | cons hfirst _ ihall =>
          obtain ⟨hkey, hitem⟩ := hfirst
          have hvalue : m.unroll depth _ = m.unroll depth _ :=
            hitem.elim (fun hsame => congrArg _ hsame) fun halike => (halike.2 depth).symm
          exact congrArg₂ List.cons (Prod.ext hkey hvalue) ihall

theorem IsVariant.isSome_mapping? (h : IsVariant m m') (i : Item) :
    (m'.mapping? i).isSome = (m.mapping? i).isSome :=
  (h.alike i).isSome_mapping?

/-- What is found under a key. -/
theorem get?_of_isVariantOf {entries' : Mapping Item} {k : Scalar}
    (h : List.Forall₂ (IsVariantOf m) entries entries') (hi : entries.get? k = some i) :
    ∃ i', entries'.get? k = some i' ∧ (i' = i ∨ (m.mapping? i = none ∧ m.Alike i m i')) := by
  induction h with
  | nil => cases hi
  | @cons e e' _ _ hfirst _ ih =>
    rw [Mapping.get?] at hi ⊢
    rw [hfirst.1]
    split_ifs at hi ⊢ with hk
    · cases hi
      exact ⟨_, rfl, hfirst.2⟩
    · exact ih hi

/-- An item that is no mapping gives way to one that is alike. -/
theorem put_of_isVariantOf {entries' : Mapping Item} {k : Scalar}
    (h : List.Forall₂ (IsVariantOf m) entries entries') (hi : entries.get? k = some i)
    (hnone : m.mapping? i = none) (hj : m.Alike i m j) :
    List.Forall₂ (IsVariantOf m) entries (entries'.put k j) := by
  induction h with
  | nil => cases hi
  | @cons e e' _ _ hfirst hrest ih =>
    obtain ⟨k', i'⟩ := e'
    obtain ⟨rfl, hitem⟩ : k' = e.1 ∧ _ := hfirst
    rw [Mapping.get?] at hi
    rw [Mapping.put]
    split_ifs at hi ⊢ with hk
    · cases hi
      exact .cons ⟨rfl, .inr ⟨hnone, hj⟩⟩ hrest
    · exact .cons ⟨rfl, hitem⟩ (ih hi)

/-- A mapping has been replaced nowhere, and anything else by what is alike. -/
theorem IsVariant.exists_entries (h : IsVariant m m') (hr : m.mapping? (.ref r) = some entries) :
    ∃ entries' : Mapping Item, m'.mapping? (.ref r) = some entries' ∧
      List.Forall₂ (IsVariantOf m) entries entries' := by
  rcases h r with hsame | ⟨old, new, hold, hnew, hall⟩
  · refine ⟨entries, (mapping?_congr hsame).trans hr, List.forall₂_same.2 fun e _ => ?_⟩
    exact ⟨rfl, .inl rfl⟩
  · rw [mapping?_ref_eq_some_iff, hold, Option.some.injEq, Object.map.injEq] at hr
    subst hr
    exact ⟨new, mapping?_ref_eq_some_iff.2 hnew, hall⟩

theorem IsVariant.putAt {k : Scalar} (h : IsVariant m m') (hr : m.mapping? (.ref r) = some entries)
    (hi : entries.get? k = some i) (hnone : m.mapping? i = none) (hj : m.Alike i m j) :
    IsVariant m (m'.putAt r k j) := by
  obtain ⟨entries', hr', hall⟩ := h.exists_entries hr
  intro q
  by_cases hq : q = r
  · subst hq
    exact .inr ⟨entries, _, mapping?_ref_eq_some_iff.1 hr, object?_putAt hr' k j,
      put_of_isVariantOf hall hi hnone hj⟩
  · rw [object?_putAt_of_ne hq]
    exact h q

end Tracewright.Memory
