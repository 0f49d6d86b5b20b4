/-
  Tracewright.Proofs.Settings.Merge

  What is found after one mapping has been laid over another, path by path, and
  what it means to lay the same once more.

    * `IsLaid.at?_of_layer` — a path of the layer after it has been laid.
    * `Overlaid`            — what is found at all paths.
    * `overlaid`            — a mapping that has been laid leaves this.
    * `exists_isRelaying`   — laying what is there already changes nothing that
                              one could find.
-/
import Tracewright.Proofs.Settings.Overlay
import Tracewright.Proofs.Value.Alike

namespace Tracewright.Memory

variable {m m' m₁ : Memory} {b l q depth : Nat} {i j v w : Item} {k : Scalar}
  {p p' : List Scalar} {entries base layer : Mapping Item}

/-! ## Paths with the same keys -/

theorem at?_congr (h : p.map Scalar.standing = p'.map Scalar.standing) (m : Memory) (i : Item) :
    m.at? i p = m.at? i p' := by
  induction p generalizing p' i with
  | nil =>
    rw [List.map_nil, eq_comm, List.map_eq_nil_iff] at h
    rw [h]
  | cons k p ih =>
    obtain ⟨k', p', rfl, hk, hp⟩ := List.map_eq_cons_iff.1 h.symm
    have hsame : k.same k' = true := Scalar.same_iff.2 hk.symm
    rw [at?, at?]
    cases m.mapping? i with
    | none => rfl
    | some entries =>
      rw [Option.bind_some, Option.bind_some, Mapping.get?_congr entries hsame]
      exact congrArg _ (funext fun j => ih hp.symm j)

/-- Where one path ends, a longer one finds nothing. -/
theorem at?_eq_none_of_prefix (h : m.at? i p = none)
    (hpre : p.map Scalar.standing <+: p'.map Scalar.standing) : m.at? i p' = none := by
  obtain ⟨first, hfirst, hsame⟩ : ∃ first, first <+: p' ∧
      first.map Scalar.standing = p.map Scalar.standing := by
    obtain ⟨first, hfirst, hsame⟩ := List.prefix_map_iff.1 hpre
    exact ⟨first, hfirst, hsame.symm⟩
  obtain ⟨rest, rfl⟩ := hfirst
  rw [at?_append, at?_congr hsame, h, Option.bind_none]

/-! ## Paths of the layer -/

/-- What has been laid where mappings meet, and a layer that is what it was. -/
structure HasMet (m m' : Memory) (i j : Item) : Prop where
  laid : ∀ {p b base layer}, Meets m i j p b base layer →
    m'.mapping? (.ref b) = some (m.layEntries base layer)
  isSame : IsSame m m' j
  distinct : ∀ {p layer}, m.mappingAt? j p = some layer → layer.IsDistinct

theorem IsLaid.hasMet (h : IsLaid m m' i j) (hcan : CanLay m i j depth) : HasMet m m' i j where
  laid := h.laid
  isSame q hq := h.frame q fun _ _ _ hmeet => hcan.apart hmeet hq
  distinct := hcan.distinct

theorem HasMet.below {i' j' : Item} (h : HasMet m m' i j) (hi : m.mapping? i = some base)
    (hj : m.mapping? j = some layer) (hi' : base.get? k = some i') (hj' : layer.get? k = some j') :
    HasMet m m' i' j' where
  laid hmeet := h.laid ((meets_cons_iff hi hj).2 ⟨i', j', hi', hj', hmeet⟩)
  isSame := h.isSame.of_at? ((at?_singleton hj k).trans hj')
  distinct {p _} hlayer := h.distinct (p := k :: p) (by
    rw [mappingAt?_cons_of_some hj, hj']
    exact hlayer)

/-- A path of the layer leads to the mapping of the base where mappings meet, and otherwise to what
    stands in the layer. -/
theorem HasMet.at?_of_layer (h : HasMet m m' i j) (hi : m.mapping? i = some base)
    (hj : m.mapping? j = some layer) (hv : m.at? j p = some v) :
    (∃ b base' layer', Meets m i j p b base' layer' ∧ m'.at? i p = some (.ref b)) ∨
      ((∀ b base' layer', ¬ Meets m i j p b base' layer') ∧ m'.at? i p = some v) := by
  induction p generalizing i j base layer with
  | nil =>
    obtain ⟨b, rfl, -⟩ := mapping?_eq_some_iff.1 hi
    exact .inl ⟨b, base, layer, meets_nil hi hj, rfl⟩
  | cons k p ih =>
    rw [at?_cons_of_some hj, Option.bind_eq_some_iff] at hv
    obtain ⟨j', hj', hv⟩ := hv
    have hdistinct : layer.IsDistinct := h.distinct (p := []) hj
    have hlaid : m'.mapping? i = some (m.layEntries base layer) := by
      obtain ⟨b, rfl, -⟩ := mapping?_eq_some_iff.1 hi
      exact h.laid (meets_nil hi hj)
    have hstep : m'.at? i (k :: p) = m'.at? (m.layItem (base.get? k) j') p := by
      rw [at?_cons_of_some hlaid, get?_layEntries hdistinct, hj']
      rfl
    simp only [hstep, meets_cons_iff hi hj]
    -- mappings on both sides go on meeting below; anything else is what the layer has there
    by_cases hmaps : ∃ i', base.get? k = some i' ∧ (m.mapping? i').isSome = true ∧
        (m.mapping? j').isSome = true
    · obtain ⟨i', hi', hsome, hsome'⟩ := hmaps
      obtain ⟨base', hbase'⟩ := Option.isSome_iff_exists.1 hsome
      obtain ⟨layer', hlayer'⟩ := Option.isSome_iff_exists.1 hsome'
      have hitem : m.layItem (base.get? k) j' = i' := by
        rw [hi', layItem, hsome, hsome']
        rfl
      rw [hitem]
      rcases ih (h.below hi hj hi' hj') hbase' hlayer' hv with
        ⟨b, base₁, layer₁, hmeet, hat⟩ | ⟨hnot, hat⟩
      · exact .inl ⟨b, base₁, layer₁, ⟨i', j', hi', hj', hmeet⟩, hat⟩
      · refine .inr ⟨?_, hat⟩
        rintro b base₁ layer₁ ⟨i₁, j₁, hi₁, hj₁, hmeet⟩
        rw [hi', Option.some.injEq] at hi₁
        rw [hj', Option.some.injEq] at hj₁
        subst hi₁ hj₁
        exact hnot b base₁ layer₁ hmeet
    · -- the layer has taken the place, and nothing meets there
      have hitem : m.layItem (base.get? k) j' = j' := by
        cases hi' : base.get? k with
        | none => rfl
        | some i' =>
          rw [layItem, if_neg fun hboth => hmaps ⟨i', hi', Bool.and_eq_true_iff.1 hboth⟩]
      have hsame : IsSame m m' j' := h.isSame.of_at? ((at?_singleton hj k).trans hj')
      rw [hitem, hsame.at?_eq]
      refine .inr ⟨?_, hv⟩
      rintro b base₁ layer₁ ⟨i₁, j₁, hi₁, hj₁, hmeet⟩
      rw [hj', Option.some.injEq] at hj₁
      subst hj₁
      exact hmaps ⟨i₁, hi₁, hmeet.isSome⟩

section Paths

variable (h : HasMet m m' i j) (hi : m.mapping? i = some base) (hj : m.mapping? j = some layer)
include h hi hj

/-- Where mappings meet, there is the one of the base. -/
theorem HasMet.at?_of_meets {base' layer' : Mapping Item} (hmeet : Meets m i j p b base' layer') :
    m'.at? i p = some (.ref b) := by
  obtain ⟨r, hr, -⟩ := mappingAt?_eq_some_iff.1 hmeet.layer_eq
  rcases h.at?_of_layer hi hj hr with ⟨b', base₁, layer₁, hmeet', hat⟩ | ⟨hnot, -⟩
  · rwa [← hmeet'.at_base, hmeet.at_base] at hat
  · exact absurd hmeet (hnot _ _ _)

/-- Where there is no mapping on one of the sides, there is what stands in the layer. -/
theorem HasMet.at?_of_none (hv : m.at? j p = some v)
    (hnone : m.mappingAt? i p = none ∨ m.mapping? v = none) : m'.at? i p = some v := by
  rcases h.at?_of_layer hi hj hv with ⟨b, base', layer', hmeet, -⟩ | ⟨-, hat⟩
  · obtain ⟨r, hr, hlayer⟩ := mappingAt?_eq_some_iff.1 hmeet.layer_eq
    rw [hv, Option.some.injEq] at hr
    rw [hmeet.mappingAt?_eq, hr, hlayer] at hnone
    rcases hnone with hnone | hnone <;> cases hnone
  · exact hat

end Paths

/-! ## All paths -/

/-- What is found, path by path, after an item has been laid over another one. -/
structure Overlaid (m m' : Memory) (i j : Item) : Prop where
  /-- What is no mapping in the layer stands where it stood there. -/
  leaf : ∀ p v, m.at? j p = some v → m.mapping? v = none → m'.at? i p = some v ∧ IsSame m m' v
  /-- Nothing of what was below is left. -/
  below : ∀ q v k p, m.at? j q = some v → m.mapping? v = none → m'.at? i (q ++ k :: p) = none
  /-- Under a key that a mapping of the layer has not, what was there stays, ... -/
  kept : ∀ q layer base k p, m.mappingAt? j q = some layer → layer.get? k = none →
    m.mappingAt? i q = some base → m'.at? i (q ++ k :: p) = m.at? i (q ++ k :: p) ∧
      ∀ v, m.at? i (q ++ k :: p) = some v → IsSame m m' v
  /-- ... if there was a mapping at all. -/
  absent : ∀ q layer k p, m.mappingAt? j q = some layer → layer.get? k = none →
    m.mappingAt? i q = none → m'.at? i (q ++ k :: p) = none
  /-- Where the layer has a mapping there is one, with the keys of both. -/
  mapping : ∀ p layer, m.mappingAt? j p = some layer →
    ∃ entries, m'.mappingAt? i p = some entries ∧ ∀ k, (entries.get? k).isSome = true ↔
      (layer.get? k).isSome = true ∨
        ∃ base, m.mappingAt? i p = some base ∧ (base.get? k).isSome = true

/-- Beside the keys of the layer, the entries of a mapping are what they were. -/
theorem IsLaid.isSame_kept (h : IsLaid m m' i j) (honce : MeetsOnce m i j)
    (hmeet : Meets m i j p b base layer) (hk : layer.get? k = none) (hw : base.get? k = some w) :
    IsSame m m' w := by
  intro q hq
  refine h.frame q fun p' base' layer' hmeet' => ?_
  have hat : m.at? i (p ++ [k]) = some w := by
    rw [at?_append, hmeet.at_base, Option.bind_some, at?_singleton hmeet.base_eq, hw]
  -- the layer has nothing on the way to this object
  have hpre := (honce.once hmeet').prefix_of_at? hmeet'.at_base hat hq
  obtain ⟨r, hr, hlayer⟩ := mappingAt?_eq_some_iff.1 hmeet.layer_eq
  have hnone : m.at? j (p ++ [k]) = none := by
    rw [at?_append, hr, Option.bind_some, at?_singleton hlayer, hk]
  have hlayer' := hmeet'.layer_eq
  rw [mappingAt?, at?_eq_none_of_prefix hnone hpre] at hlayer'
  cases hlayer'

/-- Beside the keys of the layer one finds what one found, and it is what it was. -/
theorem IsLaid.at?_of_kept (h : IsLaid m m' i j) (hcan : CanLay m i j depth)
    (honce : MeetsOnce m i j) (hi : m.mapping? i = some base) (hj : m.mapping? j = some layer)
    {base' layer' : Mapping Item} (hmeet : Meets m i j p b base' layer')
    (hk : layer'.get? k = none) :
    m'.at? i (p ++ k :: p') = m.at? i (p ++ k :: p') ∧
      ∀ v, m.at? i (p ++ k :: p') = some v → IsSame m m' v := by
  rw [at?_append, at?_append, (h.hasMet hcan).at?_of_meets hi hj hmeet, hmeet.at_base,
    Option.bind_some, Option.bind_some, at?_cons_of_some (h.laid hmeet),
    at?_cons_of_some hmeet.base_eq, get?_layEntries (hcan.distinct hmeet.layer_eq), hk]
  cases hw : base'.get? k with
  | none => exact ⟨rfl, nofun⟩
  | some w =>
    have hsame := h.isSame_kept honce hmeet hk hw
    exact ⟨hsame.at?_eq p', fun v hv => hsame.of_at? hv⟩

theorem IsLaid.overlaid (h : IsLaid m m' i j) (hcan : CanLay m i j depth) (honce : MeetsOnce m i j)
    (hi : m.mapping? i = some base) (hj : m.mapping? j = some layer) : Overlaid m m' i j := by
  have hmet := h.hasMet hcan
  have hleaf : ∀ p v, m.at? j p = some v → m.mapping? v = none →
      m'.at? i p = some v ∧ IsSame m m' v := fun p v hv hnone =>
    ⟨hmet.at?_of_none hi hj hv (.inr hnone), hmet.isSame.of_at? hv⟩
  refine ⟨hleaf, fun q v k p hv hnone => ?_, fun q layer' base' k p hlayer hk hbase => ?_,
    fun q layer' k p hlayer hk hbase => ?_, fun p layer' hlayer => ?_⟩
  · obtain ⟨hat, hsame⟩ := hleaf q v hv hnone
    rw [at?_append, hat, Option.bind_some, at?_cons_of_none (hsame.mapping?_eq.trans hnone)]
  · obtain ⟨b, hb, hbase'⟩ := mappingAt?_eq_some_iff.1 hbase
    exact h.at?_of_kept hcan honce hi hj ⟨hb, hbase', hlayer⟩ hk
  · obtain ⟨r, hr, hlayer'⟩ := mappingAt?_eq_some_iff.1 hlayer
    have hsame := hmet.isSame.of_at? hr
    rw [at?_append, hmet.at?_of_none hi hj hr (.inl hbase), Option.bind_some,
      at?_cons_of_some (hsame.mapping?_eq.trans hlayer'), hk]
    rfl
  · obtain ⟨r, hr, hlayer'⟩ := mappingAt?_eq_some_iff.1 hlayer
    cases hbase : m.mappingAt? i p with
    | some base' =>
      obtain ⟨b, hb, hbase'⟩ := mappingAt?_eq_some_iff.1 hbase
      have hmeet : Meets m i j p b base' layer' := ⟨hb, hbase', hlayer⟩
      refine ⟨_, mappingAt?_eq_some_iff.2 ⟨b, hmet.at?_of_meets hi hj hmeet, h.laid hmeet⟩,
        fun k => ?_⟩
      rw [get?_layEntries (hcan.distinct hlayer)]
      cases layer'.get? k <;> simp
    | none =>
      have hsame := hmet.isSame.of_at? hr
      refine ⟨layer', mappingAt?_eq_some_iff.2 ⟨r, hmet.at?_of_none hi hj hr (.inl hbase),
        hsame.mapping?_eq.trans hlayer'⟩, fun k => by simp⟩

/-! ## Once more -/

/-- What the layer holds is there already: at each of its paths there is something that is alike, or
    mappings stand on both sides. -/
def Covers (m : Memory) (i j : Item) : Prop :=
  ∀ p v, m.at? j p = some v → ∃ w, m.at? i p = some w ∧
    (m.Alike w m v ∨ ((m.mapping? w).isSome = true ∧ (m.mapping? v).isSome = true))

theorem Covers.below {i' j' : Item} (h : Covers m i j) (hi : m.mapping? i = some base)
    (hj : m.mapping? j = some layer) (hi' : base.get? k = some i') (hj' : layer.get? k = some j') :
    Covers m i' j' := by
  intro p v hv
  obtain ⟨w, hw, hboth⟩ := h (k :: p) v (by rw [at?_cons_of_some hj, hj']; exact hv)
  rw [at?_cons_of_some hi, hi', Option.bind_some] at hw
  exact ⟨w, hw, hboth⟩

/-- While what is there already is laid once more: a variant of the memory, changed only where
    mappings meet. -/
structure IsRelaying (m m₀ m₁ : Memory) (i j : Item) : Prop where
  isVariant : IsVariant m m₁
  frame : ∀ q, (∀ p base layer, ¬ Meets m i j p q base layer) → m₁.object? q = m₀.object? q

theorem IsRelaying.isSame_layer {m₀ : Memory} (h : IsRelaying m m₀ m₁ i j)
    (hcan : CanLay m i j depth) (hj : IsSame m m₀ j) : IsSame m m₁ j := fun q hq =>
  (h.frame q fun _ _ _ hmeet => hcan.apart hmeet hq).trans (hj q hq)

/-- One entry of the layer is laid once more. -/
theorem IsRelaying.step {m₀ : Memory} (hb : m.mapping? (.ref b) = some base)
    (hl : m.mapping? (.ref l) = some layer) (hcan : CanLay m (.ref b) (.ref l) (depth + 1))
    (hcovers : Covers m (.ref b) (.ref l)) (hsame : IsSame m m₀ (.ref l))
    (hmerge : ∀ {b l : Nat} {base layer : Mapping Item} {m₀ : Memory},
      m.mapping? (.ref b) = some base → m.mapping? (.ref l) = some layer →
      CanLay m (.ref b) (.ref l) depth → Covers m (.ref b) (.ref l) → IsVariant m m₀ →
      IsSame m m₀ (.ref l) →
      ∃ m₁, mergeInto depth b l m₀ = (pure (), m₁) ∧ IsRelaying m m₀ m₁ (.ref b) (.ref l))
    (h : IsRelaying m m₀ m₁ (.ref b) (.ref l)) (hv : layer.get? k = some v) :
    ∃ m₂, mergeEntry (mergeInto depth) b k v m₁ = (pure (), m₂) ∧
      IsRelaying m m₀ m₂ (.ref b) (.ref l) := by
  obtain ⟨w, hw, hboth⟩ := hcovers [k] v ((at?_singleton hl k).trans hv)
  rw [at?_singleton hb] at hw
  obtain ⟨entries, hentries, hall⟩ := h.isVariant.exists_entries hb
  cases hlayer : m.mapping? v with
  | none =>
    -- what is there is alike
    have halike : m.Alike w m v := hboth.resolve_right fun hmaps => by
      rw [hlayer] at hmaps
      cases hmaps.2
    have hnone : m.mapping? w = none := by
      have hkinds := halike.isSome_mapping?
      rw [hlayer] at hkinds
      exact Option.isNone_iff_eq_none.1 (Option.isSome_eq_false_iff.1 hkinds)
    refine ⟨m₁.putAt b k v, mergeEntry_eq_put fun i _ => .inr ?_,
      h.isVariant.putAt hb hw hnone halike, fun q hnot => ?_⟩
    · exact mapping?_eq_none (h.isVariant.isSome_mapping? v) hlayer
    · rw [object?_putAt_of_ne, h.frame q hnot]
      rintro rfl
      exact hnot [] base layer (meets_nil hb hl)
  | some layer' =>
    have hsome : (m.mapping? w).isSome = true := by
      rcases hboth with halike | hmaps
      · rw [halike.isSome_mapping?, hlayer]
        rfl
      · exact hmaps.1
    obtain ⟨base', hbase'⟩ := Option.isSome_iff_exists.1 hsome
    obtain ⟨below, rfl, -⟩ := mapping?_eq_some_iff.1 hbase'
    obtain ⟨lower, rfl, -⟩ := mapping?_eq_some_iff.1 hlayer
    -- no mapping has been replaced so far
    obtain ⟨w', hw', hitem⟩ := get?_of_isVariantOf hall hw
    obtain rfl : w' = .ref below := hitem.resolve_right fun hleaf => by
      rw [hbase'] at hleaf
      cases hleaf.1
    have hsame' : IsSame m m₁ (.ref lower) :=
      (h.isSame_layer hcan hsame).of_at? ((at?_singleton hl k).trans hv)
    obtain ⟨entries', hentries', -⟩ := h.isVariant.exists_entries hbase'
    obtain ⟨m₂, hrun, hvariant, hframe⟩ := hmerge hbase' hlayer (hcan.below hb hl hw hv)
      (hcovers.below hb hl hw hv) h.isVariant hsame'
    refine ⟨m₂, ?_, hvariant, fun q hnot => ?_⟩
    · rw [mergeEntry_eq_merge (by rw [entriesAt_of_mapping? hentries, hw']) hentries'
        (hsame'.mapping?_eq.trans hlayer)]
      exact hrun
    · rw [hframe q fun p base₁ layer₁ hmeet => ?_, h.frame q hnot]
      exact hnot (k :: p) base₁ layer₁ ((meets_cons_iff hb hl).2 ⟨_, _, hw, hv, hmeet⟩)

/-- Laying what is there already leaves a variant. -/
theorem exists_isRelaying {m₀ : Memory} (hb : m.mapping? (.ref b) = some base)
    (hl : m.mapping? (.ref l) = some layer) (hcan : CanLay m (.ref b) (.ref l) depth)
    (hcovers : Covers m (.ref b) (.ref l)) (hvariant : IsVariant m m₀)
    (hsame : IsSame m m₀ (.ref l)) :
    ∃ m₁, mergeInto depth b l m₀ = (pure (), m₁) ∧ IsRelaying m m₀ m₁ (.ref b) (.ref l) := by
  -- what meets is fixed by `m`, the memory before; `m₀` is what has come of it so far
  induction depth generalizing b l base layer m₀ with
  | zero => exact absurd (hcan.lt_depth (meets_nil hb hl)) (Nat.not_lt_zero _)
  | succ depth ih =>
    have hdistinct : layer.IsDistinct := hcan.distinct (p := []) hl
    obtain ⟨m₁, hrun, -, hend⟩ := mergeInto_induct (m := m₀) depth b l layer
      (fun rest m₁ => (∀ e ∈ rest, e ∈ layer) ∧ IsRelaying m m₀ m₁ (.ref b) (.ref l))
      (fun _ _ ⟨_, h⟩ =>
        entriesAt_of_mapping? ((h.isSame_layer hcan hsame).mapping?_eq.trans hl))
      (by
        rintro ⟨k, v⟩ rest m₁ ⟨hrest, h⟩
        obtain ⟨hmem, hrest⟩ := List.forall_mem_cons.1 hrest
        obtain ⟨m₂, hrun, h₂⟩ :=
          h.step hb hl hcan hcovers hsame ih (hdistinct.get?_of_mem hmem)
        exact ⟨m₂, hrun, hrest, h₂⟩)
      ⟨fun _ he => he, hvariant, fun _ _ => rfl⟩
    exact ⟨m₁, hrun, hend⟩

end Tracewright.Memory
