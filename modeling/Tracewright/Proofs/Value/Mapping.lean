/-
  Tracewright.Proofs.Value.Mapping

  What is found in a mapping after values have been put under keys.

    * `get?_put`               — after one put, under any key.
    * `put_of_get?`            — a put of what is there changes nothing.
    * `get?_putAll`            — after a whole mapping has been put in.
    * `IsDistinct.get?_of_mem` — each entry of a mapping with distinct keys is
                                 found.
    * `Value.mapping?`, `Value.scalar?`
                               — the kinds of values.
-/
import Mathlib.Tactic.SplitIfs
import Tracewright.Proofs.Value.Key
import Tracewright.Value.Mapping

namespace Tracewright.Mapping

variable {α β : Type} {m : Mapping α} {k : Scalar} {v : α} {t : Text} {e : Scalar × α}

/-! ## What is found -/

/-- One key finds what another one finds that is the same. -/
theorem get?_congr (m : Mapping α) {k k' : Scalar} (h : k.same k' = true) :
    m.get? k = m.get? k' := by
  induction m with
  | nil => rfl
  | cons e m ih =>
    have hkey : e.1.same k = e.1.same k' := by
      rw [Scalar.same_comm, Scalar.same_congr h, Scalar.same_comm]
    rw [get?, get?, hkey, ih]

/-- After a put there is the new value under the key, and under others what was there. -/
theorem get?_put (m : Mapping α) (k : Scalar) (v : α) (k' : Scalar) :
    (m.put k v).get? k' = if k.same k' then some v else m.get? k' := by
  induction m with
  | nil => rfl
  | cons e m ih =>
    obtain ⟨k₀, v₀⟩ := e
    rw [Mapping.put]
    by_cases hput : k₀.same k = true
    · -- the entry keeps its key, which is the same as the new one
      rw [if_pos hput, get?, get?, Scalar.same_congr hput k']
      split_ifs <;> rfl
    · rw [if_neg hput, get?, get?, ih]
      by_cases hk : k.same k' = true
      · have hother : ¬ k₀.same k' = true := by
          intro hk₀
          rw [Scalar.same_comm, Scalar.same_congr (Scalar.same_comm k k' ▸ hk),
            Scalar.same_comm] at hk₀
          exact hput hk₀
        rw [if_neg hother]
        simp only [hk, if_true]
      · simp only [hk, Bool.false_eq_true, if_false]

/-- After a put under a text there is what was there under every other key. -/
theorem get?_put_of_ne_text (m : Mapping α) (v : α) {k : Scalar} (h : k ≠ .text t) :
    (m.put (.text t) v).get? k = m.get? k := by
  have hsame : ¬ (Scalar.text t).same k = true := by
    rw [Scalar.same_comm, same_text_iff]
    exact h
  rw [get?_put, if_neg hsame]

/-- A put of what is there changes nothing. -/
theorem put_of_get? (h : m.get? k = some v) : m.put k v = m := by
  induction m with
  | nil => cases h
  | cons e m ih =>
    obtain ⟨k₀, v₀⟩ := e
    rw [get?] at h
    rw [Mapping.put]
    split_ifs at h ⊢ with hk
    · rw [Option.some.inj h]
    · rw [ih h]

/-- What is found stands in an entry, under a key that is the same. -/
theorem exists_mem_of_get? (h : m.get? k = some v) : ∃ e ∈ m, e.1.same k = true ∧ e.2 = v := by
  induction m with
  | nil => cases h
  | cons e m ih =>
    rw [get?] at h
    split_ifs at h with hk
    · exact ⟨e, List.mem_cons_self, hk, Option.some.inj h⟩
    · obtain ⟨e', he', hfound⟩ := ih h
      exact ⟨e', List.mem_cons_of_mem _ he', hfound⟩

/-- A key that is not the same as any that stands there finds nothing. -/
theorem get?_eq_none (h : ∀ e ∈ m, k.same e.1 = false) : m.get? k = none := by
  cases hfound : m.get? k with
  | none => rfl
  | some v =>
    obtain ⟨e, he, hsame, -⟩ := exists_mem_of_get? hfound
    rw [Scalar.same_comm, h e he] at hsame
    cases hsame

/-- With distinct keys, each entry is found. -/
theorem IsDistinct.get?_of_mem (h : m.IsDistinct) (he : e ∈ m) : m.get? e.1 = some e.2 := by
  induction m with
  | nil => exact absurd he List.not_mem_nil
  | cons e₀ m ih =>
    obtain ⟨hfirst, hrest⟩ := List.pairwise_cons.1 h
    rw [get?]
    rcases List.mem_cons.1 he with rfl | he
    · rw [if_pos (Scalar.same_self _)]
    · rw [hfirst e he, ih hrest he]
      rfl

theorem get?_append (m rest : Mapping α) (k : Scalar) :
    Mapping.get? (m ++ rest) k = (m.get? k).or (Mapping.get? rest k) := by
  induction m with
  | nil => rfl
  | cons e m ih =>
    rw [List.cons_append, get?, get?]
    split_ifs
    · rfl
    · exact ih

/-- With distinct keys, the entries before another one have not got its key. -/
theorem IsDistinct.of_append {rest : Mapping α} (h : IsDistinct (m ++ e :: rest)) :
    m.IsDistinct ∧ m.get? e.1 = none ∧ Mapping.get? (m ++ e :: rest) e.1 = some e.2 := by
  obtain ⟨hm, -, hcross⟩ := List.pairwise_append.1 h
  refine ⟨hm, get?_eq_none fun e' he' => ?_, h.get?_of_mem (by simp)⟩
  rw [Scalar.same_comm]
  exact hcross e' he' e List.mem_cons_self

/-! ## One mapping over another -/

/-- The entries of a mapping, put into another one. -/
def putAll (m layer : Mapping α) : Mapping α := layer.foldl (fun m e => m.put e.1 e.2) m

/-- What is found is what the layer has, or else what was there. -/
theorem get?_putAll {layer : Mapping α} (h : layer.IsDistinct) (m : Mapping α) (k : Scalar) :
    (m.putAll layer).get? k = (layer.get? k).or (m.get? k) := by
  induction layer generalizing m with
  | nil => rfl
  | cons e layer ih =>
    obtain ⟨hfirst, hrest⟩ := List.pairwise_cons.1 h
    rw [putAll, List.foldl_cons, ← putAll, ih hrest, get?_put, get?]
    split_ifs with hk
    · -- no other entry of the layer stands under the same key
      have hnone : get? layer k = none := get?_eq_none fun e' he' => by
        rw [← Scalar.same_congr hk]
        exact hfirst e' he'
      rw [hnone]
      rfl
    · rfl

/-! ## Texts as keys -/

/-- A text is found only under itself. -/
theorem mem_of_getText? (h : m.getText? t = some v) : (.text t, v) ∈ m := by
  obtain ⟨⟨k, w⟩, he, hsame, rfl⟩ := exists_mem_of_get? h
  rw [← same_text_iff.1 hsame]
  exact he

/-! ## Other values under the same keys -/

/-- The mapping with each value replaced. -/
def mapValues (f : α → β) (m : Mapping α) : Mapping β := m.map fun e => (e.1, f e.2)

theorem get?_mapValues (f : α → β) (m : Mapping α) (k : Scalar) :
    (m.mapValues f).get? k = (m.get? k).map f := by
  induction m with
  | nil => rfl
  | cons e m ih =>
    obtain ⟨k₀, v₀⟩ := e
    rw [mapValues, List.map_cons, get?, get?]
    split_ifs
    · rfl
    · exact ih

/-- Keys are distinct whatever stands under them. -/
theorem isDistinct_mapValues_iff (f : α → β) : (m.mapValues f).IsDistinct ↔ m.IsDistinct := by
  rw [IsDistinct, mapValues, List.pairwise_map]
  exact Iff.rfl

end Tracewright.Mapping

namespace Tracewright.Value

/-! ## Kinds of values -/

/-- The entries of a value that is a mapping. -/
def mapping? : Value → Option (Mapping Value)
  | .map m => some m
  | _ => none

def scalar? : Value → Option Scalar
  | .scalar s => some s
  | _ => none

theorem eq_scalar_of_scalar? {v : Value} {s : Scalar} (h : scalar? v = some s) :
    v = .scalar s := by
  cases v <;> cases h
  rfl

end Tracewright.Value
