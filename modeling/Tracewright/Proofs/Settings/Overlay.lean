/-
  Tracewright.Proofs.Settings.Overlay

  Laying one mapping over another in place.  The entries of the layer are gone
  through one after the other.  Where both sides have a mapping at the end of
  the same path, the one of the base gets the entries of the other; nothing else
  changes, if one comes to each of those mappings in one way only.

    * `goThrough_induct`   — what holds while one goes through a mapping that
                             does not change.
    * `mergeEntry_eq_put`, `mergeEntry_eq_merge`
                           — what is done for one entry.
    * `layEntries`         — entries laid over entries, one level deep.
    * `Meets`, `CanLay`    — where mappings meet, and what is asked of them.
    * `IsLaid`, `exists_isLaid`
                           — what is left.
-/
import Tracewright.Proofs.Run
import Tracewright.Proofs.Value.Copies

namespace Tracewright.Memory

variable {m m' m₁ m₂ : Memory} {b l r q depth : Nat} {i j v : Item} {k : Scalar}
  {p : List Scalar} {entries base layer : Mapping Item}

/-! ## Going through a mapping -/

theorem checkSize_of_entriesAt (h : m.entriesAt r = entries) :
    checkSize r entries.length m = (pure (), m) := by
  rw [checkSize, h, if_pos rfl]

/-- What holds before the first entry, and is carried on by the step for each of them, holds in the
    end, if the entries themselves stay. -/
theorem goThrough_induct {step : Scalar → Item → Action Memory Unit}
    (P : Mapping Item → Memory → Prop)
    (hthere : ∀ rest m, P rest m → m.entriesAt r = entries)
    (hstep : ∀ e rest m, P (e :: rest) m → ∃ m', step e.1 e.2 m = (pure (), m') ∧ P rest m')
    (h : P entries m) :
    ∃ m', goThrough r entries.length step (List.range entries.length) m = (pure (), m') ∧
      P [] m' := by
  -- some entries have been gone through, and the others are left
  have hrest : ∀ (rest before : Mapping Item) (m : Memory), entries = before ++ rest → P rest m →
      ∃ m', goThrough r entries.length step (List.range' before.length rest.length) m =
        (pure (), m') ∧ P [] m' := by
    intro rest
    induction rest with
    | nil => exact fun before m _ h => ⟨m, checkSize_of_entriesAt (hthere _ _ h), h⟩
    | cons e rest ih =>
      intro before m hentries h
      have hsize := checkSize_of_entriesAt (hthere _ _ h)
      have hplace : (m.entriesAt r)[before.length]? = some e := by
        rw [hthere _ _ h, hentries, List.getElem?_append_right (Nat.le_refl _), Nat.sub_self]
        rfl
      obtain ⟨m₁, hrun, h₁⟩ := hstep e rest m h
      obtain ⟨m', hrun', h'⟩ := ih (before ++ [e]) m₁ (by rw [hentries, List.append_assoc]; rfl) h₁
      rw [List.length_append, List.length_singleton] at hrun'
      refine ⟨m', ?_, h'⟩
      rw [List.length_cons, List.range'_succ, goThrough, Action.bind_of_pure hsize,
        Action.bind_of_pure (x := Action.look _) (a := some e)
          (show _ = (pure (some e), m) by rw [Action.look, hplace]; rfl)]
      exact (Action.bind_of_pure hrun _).trans hrun'
  rw [List.range_eq_range']
  exact hrest entries [] m rfl h

/-- The entries of a mapping are laid over another one, one after the other. -/
theorem mergeInto_induct (depth b l : Nat) (layer : Mapping Item)
    (P : Mapping Item → Memory → Prop) (hthere : ∀ rest m, P rest m → m.entriesAt l = layer)
    (hstep : ∀ e rest m, P (e :: rest) m →
      ∃ m', mergeEntry (mergeInto depth) b e.1 e.2 m = (pure (), m') ∧ P rest m')
    (h : P layer m) : ∃ m', mergeInto (depth + 1) b l m = (pure (), m') ∧ P [] m' := by
  obtain ⟨m', hrun, hend⟩ := goThrough_induct P hthere hstep h
  refine ⟨m', ?_, hend⟩
  rw [mergeInto, Action.bind_of_pure (x := Action.look _) (a := layer.length)
    (show _ = (pure _, m) by rw [Action.look, hthere layer m h]; rfl)]
  exact hrun

/-! ## One entry -/

theorem entriesAt_of_mapping? (h : m.mapping? (.ref r) = some entries) :
    m.entriesAt r = entries := by
  rw [entriesAt, h, Option.getD_some]

/-- What is put is no mapping, or there is none to lay it over. -/
theorem mergeEntry_eq_put {merge : Nat → Nat → Action Memory Unit}
    (h : ∀ j, (m.entriesAt b).get? k = some j → m.mapping? j = none ∨ m.mapping? i = none) :
    mergeEntry merge b k i m = (pure (), m.putAt b k i) := by
  unfold mergeEntry
  split
  · rename_i below layer hbelow
    rcases h _ hbelow with hnone | hnone <;> simp [hnone]
  · rfl

theorem mergeEntry_eq_merge {merge : Nat → Nat → Action Memory Unit} {below layer : Nat}
    {entries' : Mapping Item} (hbelow : (m.entriesAt b).get? k = some (.ref below))
    (hmap : m.mapping? (.ref below) = some entries)
    (hlayer : m.mapping? (.ref layer) = some entries') :
    mergeEntry merge b k (.ref layer) m = merge below layer m := by
  simp only [mergeEntry, hbelow, hmap, hlayer, Option.isSome_some, Bool.and_self, if_true]

/-! ## Entries over entries -/

/-- What stands under a key after an item has been laid over what was there: in a mapping that is
    to take another one nothing changes at this level, and anything else is replaced. -/
def layItem (m : Memory) (old : Option Item) (v : Item) : Item :=
  match old with
  | some j => if (m.mapping? j).isSome && (m.mapping? v).isSome then j else v
  | none => v

/-- The entries of a mapping after others have been laid over them. -/
def layEntries (m : Memory) (base layer : Mapping Item) : Mapping Item :=
  layer.foldl (fun base e => base.put e.1 (m.layItem (base.get? e.1) e.2)) base

theorem layEntries_concat (m : Memory) (base layer : Mapping Item) (e : Scalar × Item) :
    m.layEntries base (layer ++ [e]) =
      (m.layEntries base layer).put e.1 (m.layItem ((m.layEntries base layer).get? e.1) e.2) := by
  rw [layEntries, List.foldl_append, ← layEntries]
  rfl

theorem get?_layEntries (h : layer.IsDistinct) (m : Memory) (base : Mapping Item) (k : Scalar) :
    (m.layEntries base layer).get? k =
      match layer.get? k with
      | none => base.get? k
      | some v => some (m.layItem (base.get? k) v) := by
  induction layer generalizing base with
  | nil => rfl
  | cons e layer ih =>
    obtain ⟨hfirst, hrest⟩ := List.pairwise_cons.1 h
    rw [layEntries, List.foldl_cons, ← layEntries, ih hrest, Mapping.get?_put, Mapping.get?]
    by_cases hk : e.1.same k = true
    · -- no other entry of the layer stands under the same key
      have hnone : Mapping.get? layer k = none := by
        rw [← Mapping.get?_congr layer hk]
        exact Mapping.get?_eq_none hfirst
      rw [hnone, if_pos hk, if_pos hk, Mapping.get?_congr base hk]
    · rw [if_neg hk, if_neg hk]

theorem mapping?_eq_none (h : (m'.mapping? i).isSome = (m.mapping? i).isSome)
    (hi : m.mapping? i = none) : m'.mapping? i = none := by
  rw [hi] at h
  exact Option.isNone_iff_eq_none.1 (Option.isSome_eq_false_iff.1 h)

theorem layItem_congr (h : ∀ i, (m'.mapping? i).isSome = (m.mapping? i).isSome) :
    m'.layItem = m.layItem := by
  funext old v
  cases old with
  | none => rfl
  | some j => rw [layItem, layItem, h, h]

theorem layEntries_congr (h : ∀ i, (m'.mapping? i).isSome = (m.mapping? i).isSome)
    (base layer : Mapping Item) : m'.layEntries base layer = m.layEntries base layer := by
  rw [layEntries, layEntries, layItem_congr h]

/-! ## Where mappings meet -/

/-- At the end of a path both items have a mapping, the first of them the one at `b`. -/
structure Meets (m : Memory) (i j : Item) (p : List Scalar) (b : Nat) (base layer : Mapping Item) :
    Prop where
  at_base : m.at? i p = some (.ref b)
  base_eq : m.mapping? (.ref b) = some base
  layer_eq : m.mappingAt? j p = some layer

theorem meets_nil (hb : m.mapping? (.ref b) = some base) (hj : m.mapping? j = some layer) :
    Meets m (.ref b) j [] b base layer :=
  ⟨rfl, hb, hj⟩

/-- Two mappings meet where what they have under a key meets. -/
theorem meets_cons_iff {base' layer' : Mapping Item} (hi : m.mapping? i = some base)
    (hj : m.mapping? j = some layer) : Meets m i j (k :: p) b base' layer' ↔
      ∃ i' j', base.get? k = some i' ∧ layer.get? k = some j' ∧
        Meets m i' j' p b base' layer' := by
  constructor
  · rintro ⟨hat, hb, hl⟩
    rw [at?_cons_of_some hi, Option.bind_eq_some_iff] at hat
    rw [mappingAt?_cons_of_some hj, Option.bind_eq_some_iff] at hl
    obtain ⟨i', hi', hat⟩ := hat
    obtain ⟨j', hj', hl⟩ := hl
    exact ⟨i', j', hi', hj', hat, hb, hl⟩
  · rintro ⟨i', j', hi', hj', hat, hb, hl⟩
    refine ⟨?_, hb, ?_⟩
    · rw [at?_cons_of_some hi, hi']
      exact hat
    · rw [mappingAt?_cons_of_some hj, hj']
      exact hl

namespace Meets

/-- Only mappings meet. -/
theorem isSome (h : Meets m i j p b base layer) :
    (m.mapping? i).isSome = true ∧ (m.mapping? j).isSome = true := by
  obtain ⟨hat, hb, hl⟩ := h
  cases p with
  | nil =>
    cases hat
    rw [mappingAt?_nil] at hl
    rw [hb, hl]
    exact ⟨rfl, rfl⟩
  | cons k p =>
    cases hi : m.mapping? i with
    | none => rw [at?_cons_of_none hi] at hat; cases hat
    | some _ =>
      cases hj : m.mapping? j with
      | none => rw [mappingAt?_cons_of_none hj] at hl; cases hl
      | some _ => exact ⟨rfl, rfl⟩

theorem mappingAt?_eq (h : Meets m i j p b base layer) : m.mappingAt? i p = some base :=
  mappingAt?_eq_some_iff.2 ⟨b, h.at_base, h.base_eq⟩

theorem reaches (h : Meets m i j p b base layer) : m.Reaches i b :=
  reaches_of_at? h.at_base (reaches_self m b)

/-- Where nothing has changed, the same mappings meet. -/
theorem of_same (hi : IsSame m m' i) (hj : IsSame m m' j) :
    Meets m' i j p b base layer ↔ Meets m i j p b base layer := by
  constructor
  · rintro ⟨hat, hb, hl⟩
    rw [hi.at?_eq] at hat
    exact ⟨hat, (hi.of_at? hat).mapping?_eq ▸ hb, hj.mappingAt?_eq p ▸ hl⟩
  · rintro ⟨hat, hb, hl⟩
    exact ⟨(hi.at?_eq p).trans hat, (hi.of_at? hat).mapping?_eq.trans hb,
      (hj.mappingAt?_eq p).trans hl⟩

end Meets

/-- One item can be laid over another: no mapping of the base that meets one of the layer stands
    in the layer itself, one can go as deep as they meet, and no key of the layer stands twice. -/
structure CanLay (m : Memory) (i j : Item) (depth : Nat) : Prop where
  apart : ∀ {p b base layer}, Meets m i j p b base layer → ¬ m.Reaches j b
  lt_depth : ∀ {p b base layer}, Meets m i j p b base layer → p.length < depth
  distinct : ∀ {p layer}, m.mappingAt? j p = some layer → layer.IsDistinct

/-- One comes in one way only to each mapping that meets one of the layer. -/
structure MeetsOnce (m : Memory) (i j : Item) : Prop where
  once : ∀ {p b base layer}, Meets m i j p b base layer → m.IsReachedOnce i b

theorem CanLay.below {i' j' : Item} (h : CanLay m i j (depth + 1)) (hi : m.mapping? i = some base)
    (hj : m.mapping? j = some layer) (hi' : base.get? k = some i') (hj' : layer.get? k = some j') :
    CanLay m i' j' depth where
  apart hmeet hreach :=
    h.apart ((meets_cons_iff hi hj).2 ⟨i', j', hi', hj', hmeet⟩) (reaches_of_get? hj hj' hreach)
  lt_depth hmeet :=
    Nat.lt_of_succ_lt_succ (h.lt_depth ((meets_cons_iff hi hj).2 ⟨i', j', hi', hj', hmeet⟩))
  distinct {p _} hlayer := h.distinct (p := k :: p) (by
    rw [mappingAt?_cons_of_some hj, hj']
    exact hlayer)

theorem CanLay.of_same (h : CanLay m i j depth) (hi : IsSame m m' i) (hj : IsSame m m' j) :
    CanLay m' i j depth where
  apart hmeet hreach := h.apart ((Meets.of_same hi hj).1 hmeet) (hj.reaches_iff.1 hreach)
  lt_depth hmeet := h.lt_depth ((Meets.of_same hi hj).1 hmeet)
  distinct {p _} hlayer := h.distinct ((hj.mappingAt?_eq p).symm.trans hlayer)

theorem MeetsOnce.below {i' j' : Item} (h : MeetsOnce m i j) (hi : m.mapping? i = some base)
    (hj : m.mapping? j = some layer) (hi' : base.get? k = some i') (hj' : layer.get? k = some j') :
    MeetsOnce m i' j' where
  once hmeet := (h.once ((meets_cons_iff hi hj).2 ⟨i', j', hi', hj', hmeet⟩)).of_get? hi hi'

theorem MeetsOnce.of_same (h : MeetsOnce m i j) (hi : IsSame m m' i) (hj : IsSame m m' j) :
    MeetsOnce m' i j where
  once hmeet := hi.isReachedOnce_iff.2 (h.once ((Meets.of_same hi hj).1 hmeet))

/-- The mapping itself is met at its own place only. -/
theorem ne_of_meets_cons (honce : MeetsOnce m (.ref b) (.ref l)) {base' layer' : Mapping Item}
    (hmeet : Meets m (.ref b) (.ref l) (k :: p) q base' layer') : q ≠ b := by
  rintro rfl
  have hpre := (honce.once hmeet).prefix_of_at? (p := []) rfl hmeet.at_base (reaches_self m q)
  cases List.prefix_nil.1 hpre

/-! ## What is left -/

/-- What is left after one item has been laid over another: where mappings meet, the entries of the
    one have been laid over those of the other, and all other objects are what they were. -/
structure IsLaid (m m' : Memory) (i j : Item) : Prop where
  depths_eq : m'.depths = m.depths
  length_eq : m'.objects.length = m.objects.length
  kinds : ∀ i, (m'.mapping? i).isSome = (m.mapping? i).isSome
  laid : ∀ {p b base layer}, Meets m i j p b base layer →
    m'.mapping? (.ref b) = some (m.layEntries base layer)
  frame : ∀ q, (∀ p base layer, ¬ Meets m i j p q base layer) → m'.object? q = m.object? q

/-- While the layer is gone through: some of its entries have been laid over the base. -/
structure IsLaying (m m₁ : Memory) (b l : Nat) (base done : Mapping Item) : Prop where
  depths_eq : m₁.depths = m.depths
  length_eq : m₁.objects.length = m.objects.length
  kinds : ∀ i, (m₁.mapping? i).isSome = (m.mapping? i).isSome
  base_eq : m₁.mapping? (.ref b) = some (m.layEntries base done)
  laid : ∀ {k p b' base' layer'}, done.get? k ≠ none →
    Meets m (.ref b) (.ref l) (k :: p) b' base' layer' →
    m₁.mapping? (.ref b') = some (m.layEntries base' layer')
  frame : ∀ q, q ≠ b → (∀ k p base' layer', done.get? k ≠ none →
    ¬ Meets m (.ref b) (.ref l) (k :: p) q base' layer') → m₁.object? q = m.object? q

/-- The layer is what it was. -/
theorem IsLaying.isSame_layer {done : Mapping Item} (h : IsLaying m m₁ b l base done)
    (hb : m.mapping? (.ref b) = some base) (hl : m.mapping? (.ref l) = some layer)
    (hcan : CanLay m (.ref b) (.ref l) depth) : IsSame m m₁ (.ref l) := by
  intro q hq
  refine h.frame q ?_ fun k p base' layer' _ hmeet => hcan.apart hmeet hq
  rintro rfl
  exact hcan.apart (meets_nil hb hl) hq

/-- The entry of the layer whose turn it is. -/
structure IsNext (m : Memory) (b l : Nat) (base layer done : Mapping Item) (k : Scalar) (v : Item)
    (rest : Mapping Item) : Prop where
  base_eq : m.mapping? (.ref b) = some base
  layer_eq : m.mapping? (.ref l) = some layer
  split : layer = done ++ (k, v) :: rest
  distinct : layer.IsDistinct
  meetsOnce : MeetsOnce m (.ref b) (.ref l)

namespace IsNext

variable {done rest : Mapping Item} (n : IsNext m b l base layer done k v rest)
include n

theorem get?_done : done.get? k = none :=
  (Mapping.IsDistinct.of_append (n.split ▸ n.distinct)).2.1

theorem get?_layer : layer.get? k = some v := by
  rw [n.split]
  exact (Mapping.IsDistinct.of_append (n.split ▸ n.distinct)).2.2

/-- Under its key there is what was there in the beginning. -/
theorem get?_laid : (m.layEntries base done).get? k = base.get? k := by
  rw [get?_layEntries (Mapping.IsDistinct.of_append (n.split ▸ n.distinct)).1, n.get?_done]

omit n in
/-- A key of what has been laid with it is its key, or one of those before. -/
theorem of_concat {k' : Scalar} (h : Mapping.get? (done ++ [(k, v)]) k' ≠ none) :
    done.get? k' ≠ none ∨ k.same k' = true := by
  rw [Mapping.get?_append, Mapping.get?] at h
  by_cases hk : k.same k' = true
  · exact .inr hk
  · rw [if_neg hk, Mapping.get?, Option.or_none] at h
    exact .inl h

/-- What meets under this key. -/
theorem meets_iff {k' : Scalar} {base' layer' : Mapping Item} (hk : k.same k' = true) :
    Meets m (.ref b) (.ref l) (k' :: p) q base' layer' ↔
      ∃ i, base.get? k = some i ∧ Meets m i v p q base' layer' := by
  rw [meets_cons_iff n.base_eq n.layer_eq, ← Mapping.get?_congr base hk,
    ← Mapping.get?_congr layer hk, n.get?_layer]
  simp

/-- What stands under its key is what it was. -/
theorem isSame_base (h : IsLaying m m₁ b l base done) (hi : base.get? k = some i) :
    IsSame m m₁ i := by
  intro q hq
  refine h.frame q ?_ fun k' p base' layer' hk' hmeet => ?_
  · rintro rfl
    exact (n.meetsOnce.once (meets_nil n.base_eq n.layer_eq)).not_reaches_of_get? n.base_eq hi hq
  · -- one comes to this object by way of the other key only
    have hat := (at?_singleton n.base_eq k).trans hi
    have hpre := (n.meetsOnce.once hmeet).prefix_of_at? hmeet.at_base hat hq
    have hsame : k.same k' = true := Scalar.same_iff.2 (List.cons_prefix_cons.1 hpre).1
    exact hk' ((Mapping.get?_congr done hsame).symm.trans n.get?_done)

/-- The entry is put, if it does not lead from one mapping to another. -/
theorem put {merge : Nat → Nat → Action Memory Unit} (h : IsLaying m m₁ b l base done)
    (hleaf : ∀ i, base.get? k = some i → m.mapping? i = none ∨ m.mapping? v = none) :
    ∃ m₂, mergeEntry merge b k v m₁ = (pure (), m₂) ∧
      IsLaying m m₂ b l base (done ++ [(k, v)]) := by
  have hitem : m.layItem (base.get? k) v = v := by
    cases hi : base.get? k with
    | none => rfl
    | some i => rcases hleaf i hi with hnone | hnone <;> simp [layItem, hnone]
  refine ⟨m₁.putAt b k v, mergeEntry_eq_put fun i hi => ?_,
    (depths_putAt _ _ _ _).trans h.depths_eq, (length_putAt _ _ _ _).trans h.length_eq,
    fun i => ?_, ?_, fun {k' p b' base' layer'} hk' hmeet => ?_, fun q hq hnot => ?_⟩
  · rw [entriesAt_of_mapping? h.base_eq, n.get?_laid] at hi
    exact (hleaf i hi).imp (mapping?_eq_none (h.kinds i)) (mapping?_eq_none (h.kinds v))
  · rw [isSome_mapping?_putAt, h.kinds]
  · rw [mapping?_putAt h.base_eq, layEntries_concat, n.get?_laid, hitem]
  · rcases of_concat hk' with hbefore | hk
    · rw [mapping?_congr (object?_putAt_of_ne (ne_of_meets_cons n.meetsOnce hmeet) _ _ _)]
      exact h.laid hbefore hmeet
    · -- nothing meets under this key
      obtain ⟨i, hi, hbelow⟩ := (n.meets_iff hk).1 hmeet
      obtain ⟨hsome, hsome'⟩ := hbelow.isSome
      rcases hleaf i hi with hnone | hnone
      · rw [hnone] at hsome
        cases hsome
      · rw [hnone] at hsome'
        cases hsome'
  · rw [object?_putAt_of_ne hq]
    refine h.frame q hq fun k' p base' layer' hk' => hnot k' p base' layer' fun hnone => hk' ?_
    rw [Mapping.get?_append] at hnone
    exact (Option.or_eq_none_iff.1 hnone).1

/-- The entry goes into the mapping that is there, as one mapping is laid over another. -/
theorem merge {below : Nat} (h : IsLaying m m₁ b l base done)
    (hi : base.get? k = some (.ref below))
    (hmaps : (m.mapping? (.ref below)).isSome = true ∧ (m.mapping? v).isSome = true)
    (hsame : IsSame m m₁ (.ref below)) (hsame' : IsSame m m₁ v)
    (hlaid : IsLaid m₁ m₂ (.ref below) v) : IsLaying m m₂ b l base (done ++ [(k, v)]) := by
  have hkinds : ∀ i, (m₂.mapping? i).isSome = (m.mapping? i).isSome := fun i =>
    (hlaid.kinds i).trans (h.kinds i)
  -- nothing below this key meets anywhere else
  have hnot {q : Nat} (hq : ¬ m.Reaches (.ref below) q) : m₂.object? q = m₁.object? q :=
    hlaid.frame q fun p base' layer' hmeet =>
      hq ((Meets.of_same hsame hsame').1 hmeet).reaches
  have hunder : m.layItem (base.get? k) v = .ref below := by
    rw [hi, layItem, hmaps.1, hmaps.2]
    rfl
  refine ⟨hlaid.depths_eq.trans h.depths_eq, hlaid.length_eq.trans h.length_eq, hkinds, ?_,
    fun {k' p b' base' layer'} hk' hmeet => ?_, fun q hq hother => ?_⟩
  · have hb : ¬ m.Reaches (.ref below) b :=
      (n.meetsOnce.once (meets_nil n.base_eq n.layer_eq)).not_reaches_of_get? n.base_eq hi
    rw [mapping?_congr (hnot hb), h.base_eq, layEntries_concat, n.get?_laid, hunder,
      Mapping.put_of_get? (n.get?_laid.trans hi)]
  · by_cases hk : k.same k' = true
    · obtain ⟨i, hi', hbelow⟩ := (n.meets_iff hk).1 hmeet
      rw [hi, Option.some.injEq] at hi'
      subst hi'
      rw [hlaid.laid ((Meets.of_same hsame hsame').2 hbelow), layEntries_congr h.kinds]
    · have hbefore := (of_concat hk').resolve_right hk
      rw [mapping?_congr (hnot fun hreach => hk ?_), h.laid hbefore hmeet]
      -- one comes to this object by way of the other key only
      have hat := (at?_singleton n.base_eq k).trans hi
      have hpre := (n.meetsOnce.once hmeet).prefix_of_at? hmeet.at_base hat hreach
      exact Scalar.same_iff.2 (List.cons_prefix_cons.1 hpre).1
  · have hsplit (k' : Scalar) : Mapping.get? (done ++ [(k, v)]) k' =
        (done.get? k').or (Mapping.get? [(k, v)] k') :=
      Mapping.get?_append done _ k'
    rw [hlaid.frame q fun p base' layer' hmeet => ?_]
    · refine h.frame q hq fun k' p base' layer' hk' => hother k' p base' layer' fun hnone => hk' ?_
      rw [hsplit] at hnone
      exact (Option.or_eq_none_iff.1 hnone).1
    · refine hother k p base' layer' ?_
        ((n.meets_iff (Scalar.same_self k)).2 ⟨_, hi, (Meets.of_same hsame hsame').1 hmeet⟩)
      rw [hsplit, n.get?_done, Mapping.get?, if_pos (Scalar.same_self k), Option.none_or]
      exact Option.some_ne_none v

end IsNext

/-- One entry of the layer is laid over the base. -/
theorem IsNext.step {done rest : Mapping Item} (n : IsNext m b l base layer done k v rest)
    (hcan : CanLay m (.ref b) (.ref l) (depth + 1))
    (hmerge : ∀ {m : Memory} {b l : Nat} {base layer : Mapping Item},
      m.mapping? (.ref b) = some base → m.mapping? (.ref l) = some layer →
      CanLay m (.ref b) (.ref l) depth → MeetsOnce m (.ref b) (.ref l) →
      ∃ m', mergeInto depth b l m = (pure (), m') ∧ IsLaid m m' (.ref b) (.ref l))
    (h : IsLaying m m₁ b l base done) :
    ∃ m₂, mergeEntry (mergeInto depth) b k v m₁ = (pure (), m₂) ∧
      IsLaying m m₂ b l base (done ++ [(k, v)]) := by
  by_cases hleaf : ∀ i, base.get? k = some i → m.mapping? i = none ∨ m.mapping? v = none
  · exact n.put h hleaf
  · -- mappings on both sides: neither has been touched so far, so they meet as in the beginning
    simp only [not_forall, not_or] at hleaf
    obtain ⟨i, hi, hnone, hnone'⟩ := hleaf
    obtain ⟨entries, hentries⟩ := Option.ne_none_iff_exists'.1 hnone
    obtain ⟨entries', hentries'⟩ := Option.ne_none_iff_exists'.1 hnone'
    obtain ⟨below, rfl, -⟩ := mapping?_eq_some_iff.1 hentries
    obtain ⟨lower, rfl, -⟩ := mapping?_eq_some_iff.1 hentries'
    have hsame := n.isSame_base h hi
    have hlower : m.at? (.ref l) [k] = some (.ref lower) :=
      (at?_singleton n.layer_eq k).trans n.get?_layer
    have hsame' := (h.isSame_layer n.base_eq n.layer_eq hcan).of_at? hlower
    have hbase := hsame.mapping?_eq.trans hentries
    have hlayer := hsame'.mapping?_eq.trans hentries'
    obtain ⟨m₂, hrun, hlaid⟩ := hmerge hbase hlayer
      ((hcan.below n.base_eq n.layer_eq hi n.get?_layer).of_same hsame hsame')
      ((n.meetsOnce.below n.base_eq n.layer_eq hi n.get?_layer).of_same hsame hsame')
    refine ⟨m₂, ?_, n.merge h hi ⟨by rw [hentries]; rfl, by rw [hentries']; rfl⟩ hsame hsame' hlaid⟩
    have hthere : (m₁.entriesAt b).get? k = some (.ref below) := by
      rw [entriesAt_of_mapping? h.base_eq, n.get?_laid, hi]
    rw [mergeEntry_eq_merge hthere hbase hlayer]
    exact hrun

/-- When all of the layer has been gone through, it has been laid. -/
theorem IsLaying.isLaid (h : IsLaying m m' b l base layer) (hb : m.mapping? (.ref b) = some base)
    (hl : m.mapping? (.ref l) = some layer) : IsLaid m m' (.ref b) (.ref l) := by
  have hkey {k : Scalar} {p : List Scalar} {q : Nat} {base' layer' : Mapping Item}
      (hmeet : Meets m (.ref b) (.ref l) (k :: p) q base' layer') : layer.get? k ≠ none := by
    obtain ⟨i, j, -, hj, -⟩ := (meets_cons_iff hb hl).1 hmeet
    rw [hj]
    nofun
  refine ⟨h.depths_eq, h.length_eq, h.kinds, fun {p b' base' layer'} hmeet => ?_, fun q hnot => ?_⟩
  · cases p with
    | nil =>
      obtain ⟨hat, hb', hl'⟩ := hmeet
      cases hat
      rw [hb, Option.some.injEq] at hb'
      rw [mappingAt?_nil, hl, Option.some.injEq] at hl'
      rw [← hb', ← hl']
      exact h.base_eq
    | cons k p => exact h.laid (hkey hmeet) hmeet
  · refine h.frame q ?_ fun k p base' layer' _ => hnot (k :: p) base' layer'
    rintro rfl
    exact hnot [] base layer (meets_nil hb hl)

/-- One mapping is laid over another if it can be, and one comes in one way only to each mapping
    that meets one of the layer. -/
theorem exists_isLaid (hb : m.mapping? (.ref b) = some base) (hl : m.mapping? (.ref l) = some layer)
    (hcan : CanLay m (.ref b) (.ref l) depth) (honce : MeetsOnce m (.ref b) (.ref l)) :
    ∃ m', mergeInto depth b l m = (pure (), m') ∧ IsLaid m m' (.ref b) (.ref l) := by
  -- the induction is on how deep one can still go, and a level is gone through with `IsLaying`
  induction depth generalizing m b l base layer with
  | zero => exact absurd (hcan.lt_depth (meets_nil hb hl)) (Nat.not_lt_zero _)
  | succ depth ih =>
    have hdistinct : layer.IsDistinct := hcan.distinct (p := []) hl
    obtain ⟨m', hrun, done, hdone, hlaying⟩ := mergeInto_induct (m := m) depth b l layer
      (fun rest m₁ => ∃ done, layer = done ++ rest ∧ IsLaying m m₁ b l base done)
      (fun _ _ ⟨_, _, h⟩ =>
        entriesAt_of_mapping? ((h.isSame_layer hb hl hcan).mapping?_eq.trans hl))
      (by
        rintro ⟨k, v⟩ rest m₁ ⟨done, hsplit, h⟩
        have n : IsNext m b l base layer done k v rest := ⟨hb, hl, hsplit, hdistinct, honce⟩
        obtain ⟨m₂, hrun, h₂⟩ := n.step hcan ih h
        exact ⟨m₂, hrun, done ++ [(k, v)], by rw [hsplit, List.append_assoc]; rfl, h₂⟩)
      ⟨[], rfl, rfl, rfl, fun _ => rfl, hb, fun hk => absurd rfl hk, fun _ _ _ => rfl⟩
    rw [List.append_nil] at hdone
    subst hdone
    exact ⟨m', hrun, hlaying.isLaid hb hl⟩

end Tracewright.Memory
