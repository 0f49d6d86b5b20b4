/-
  Tracewright.Proofs.Text.Places

  The places of a word in a text, without a walk over it: where the first one
  is, and the pieces between the places that are found from left to right.

    * `IsFirstPlace`, `cut?_eq_some_iff` — the first place of a word.
    * `IsCut`, `isCut_iff`  — the pieces of a text, each of them up to the first
                              place in what the earlier ones leave.
    * `IsPassed`            — a text that a search passes over, whatever
                              follows it.
-/
import Mathlib.Tactic.SplitIfs
import Tracewright.Proofs.Text.Seam

namespace Tracewright.Text

variable {t r s p a b : Text} {ps : List Text} {k : Nat}

/-! ## The first place -/

/-- The word stands behind the first `k` characters of the text, and nowhere before. -/
structure IsFirstPlace (t s : Text) (k : Nat) : Prop where
  starts : t <+: s.drop k
  least : ∀ j < k, ¬ t <+: s.drop j

theorem IsFirstPlace.unique {k' : Nat} (h : IsFirstPlace t s k) (h' : IsFirstPlace t s k') :
    k = k' := by
  rcases Nat.lt_trichotomy k k' with hlt | heq | hlt
  · exact absurd h.starts (h'.least k hlt)
  · exact heq
  · exact absurd h'.starts (h.least k' hlt)

theorem isFirstPlace_zero (h : t <+: s) : IsFirstPlace t s 0 := ⟨h, nofun⟩

/-- Behind a character where the word does not start, its first place is one further on. -/
theorem IsFirstPlace.succ {c : Char} (hc : ¬ t <+: c :: s) (h : IsFirstPlace t s k) :
    IsFirstPlace t (c :: s) (k + 1) := by
  refine ⟨h.starts, fun j hj => ?_⟩
  cases j with
  | zero => exact hc
  | succ j => exact h.least j (Nat.lt_of_succ_lt_succ hj)

/-- The search stops at the first place. -/
theorem isFirstPlace_of_cut? (h : cut? t s = some (b, a)) : IsFirstPlace t s b.length := by
  induction s generalizing b with
  | nil =>
    rw [cut?_nil] at h
    split_ifs at h with ht
    rw [Option.some_inj, Prod.mk.injEq] at h
    rw [← h.1, ht]
    exact isFirstPlace_zero List.nil_prefix
  | cons c s ih =>
    rw [cut?_cons] at h
    split_ifs at h with hp
    · rw [Option.some_inj, Prod.mk.injEq] at h
      rw [← h.1]
      exact isFirstPlace_zero (List.isPrefixOf_iff_prefix.1 hp)
    · rw [Option.map_eq_some_iff] at h
      obtain ⟨⟨b', a'⟩, hcut, heq⟩ := h
      rw [Prod.mk.injEq] at heq
      rw [heq.2] at hcut
      rw [← heq.1]
      exact (ih hcut).succ fun hstarts => hp (List.isPrefixOf_iff_prefix.2 hstarts)

/-- A text is cut at a place of the word iff it is the first one. -/
theorem cut?_eq_some_iff :
    cut? t s = some (b, a) ↔ b ++ t ++ a = s ∧ IsFirstPlace t s b.length := by
  refine ⟨fun h => ⟨append_of_cut? h, isFirstPlace_of_cut? h⟩, ?_⟩
  rintro ⟨rfl, hfirst⟩
  -- there is a place, so the text is cut somewhere; and there is only one first place
  have hword : hasWord t (b ++ t ++ a) = true := (hasWord_iff _ _).2 ⟨b, a, rfl⟩
  obtain ⟨⟨b', a'⟩, hcut⟩ := Option.isSome_iff_exists.1 hword
  have hlength := (isFirstPlace_of_cut? hcut).unique hfirst
  have hparts := append_of_cut? hcut
  rw [List.append_assoc, List.append_assoc] at hparts
  obtain ⟨rfl, hrest⟩ := List.append_inj hparts hlength
  rw [List.append_cancel_left_eq] at hrest
  rw [hcut, hrest]

theorem cut?_eq_none_iff : cut? t s = none ↔ ¬ t <:+: s := by
  rw [← hasWord_eq_false_iff, hasWord, Option.isSome_eq_false_iff, Option.isNone_iff_eq_none]

/-- What is passed over before the first place has none. -/
theorem not_infix_of_cut? (ht : t ≠ []) (h : cut? t s = some (b, a)) : ¬ t <:+: b := by
  rintro ⟨u, v, rfl⟩
  obtain ⟨rfl, hfirst⟩ := cut?_eq_some_iff.1 h
  have hpos : 0 < t.length := List.length_pos_iff.2 ht
  refine hfirst.least u.length (by simp only [List.length_append]; omega) ?_
  refine ⟨v ++ t ++ a, ?_⟩
  simp only [List.append_assoc, List.drop_left]

/-! ## The pieces -/

/-- The pieces of a text that is searched for a word from left to right: put together with the
    word between them they are the text; each of them but the last one ends at the first place
    in what is left of the text behind the places found before; and the last one has no place. -/
structure IsCut (t s : Text) (ps : List Text) : Prop where
  joins : t.intercalate ps = s
  first : ∀ i p, i + 1 < ps.length → ps[i]? = some p →
    IsFirstPlace t (t.intercalate (ps.drop i)) p.length
  last : ∃ p, ps.getLast? = some p ∧ ¬ t <:+: p

theorem IsCut.ne_nil (h : IsCut t s ps) : ps ≠ [] := by
  rintro rfl
  obtain ⟨p, hp, -⟩ := h.last
  cases hp

theorem isCut_singleton (h : ¬ t <:+: s) : IsCut t s [s] := by
  refine ⟨List.intercalate_singleton, fun i p hi => ?_, s, rfl, h⟩
  rw [List.length_singleton] at hi
  omega

theorem isCut_singleton_iff : IsCut t s [p] ↔ p = s ∧ ¬ t <:+: s := by
  constructor
  · intro h
    have hjoins := h.joins
    rw [List.intercalate_singleton] at hjoins
    obtain ⟨q, hq, hword⟩ := h.last
    cases hq
    exact ⟨hjoins, hjoins ▸ hword⟩
  · rintro ⟨rfl, hword⟩
    exact isCut_singleton hword

/-- The first of several pieces ends at the first place, and the others are those of what is
    behind it. -/
theorem isCut_cons_iff (hps : ps ≠ []) :
    IsCut t s (p :: ps) ↔ ∃ rest, cut? t s = some (p, rest) ∧ IsCut t rest ps := by
  have hlength : 0 < ps.length := List.length_pos_iff.2 hps
  have hjoin : t.intercalate (p :: ps) = p ++ t ++ t.intercalate ps :=
    List.intercalate_cons_of_ne_nil hps
  have hlast : (p :: ps).getLast? = ps.getLast? := by
    obtain ⟨q, qs, rfl⟩ := List.exists_cons_of_ne_nil hps
    exact List.getLast?_cons_cons
  constructor
  -- what the text leaves behind the first place is what the other pieces make up
  · intro h
    refine ⟨t.intercalate ps, cut?_eq_some_iff.2 ⟨?_, ?_⟩, rfl, ?_, ?_⟩
    · rw [← hjoin, h.joins]
    · have hfirst := h.first 0 p (by rw [List.length_cons]; omega) rfl
      rw [List.drop_zero, h.joins] at hfirst
      exact hfirst
    · intro i q hi hq
      exact h.first (i + 1) q (by rw [List.length_cons]; omega) hq
    · rw [← hlast]
      exact h.last
  · rintro ⟨rest, hcut, h⟩
    rw [cut?_eq_some_iff] at hcut
    refine ⟨?_, ?_, ?_⟩
    · rw [hjoin, h.joins, hcut.1]
    · intro i q hi hq
      cases i with
      | zero =>
        cases hq
        rw [List.drop_zero, hjoin, h.joins, hcut.1]
        exact hcut.2
      | succ i => exact h.first i q (by rw [List.length_cons] at hi; omega) hq
    · rw [hlast]
      exact h.last

theorem split_of_wordless (ht : t ≠ []) (h : ¬ t <:+: s) : split t s = [s] := by
  induction s with
  | nil => exact split_nil ht
  | cons c s ih =>
    rw [List.infix_cons_iff, not_or] at h
    rw [split_cons ht, if_neg (fun hp => h.1 (List.isPrefixOf_iff_prefix.1 hp)), ih h.2]
    rfl

/-- The first piece is what stands before the first place; the search goes on behind it. -/
theorem split_of_cut? (ht : t ≠ []) (h : cut? t s = some (b, a)) : split t s = b :: split t a := by
  induction s generalizing b with
  | nil =>
    rw [cut?_nil, if_neg ht] at h
    cases h
  | cons c s ih =>
    rw [cut?_cons] at h
    rw [split_cons ht]
    split_ifs at h ⊢
    · rw [Option.some_inj, Prod.mk.injEq] at h
      rw [← h.1, h.2]
    · rw [Option.map_eq_some_iff] at h
      obtain ⟨⟨b', a'⟩, hcut, heq⟩ := h
      rw [Prod.mk.injEq] at heq
      rw [heq.2] at hcut
      rw [ih hcut, ← heq.1]
      rfl

/-- The walk finds the pieces. -/
theorem isCut_split (ht : t ≠ []) (s : Text) : IsCut t s (split t s) := by
  cases hcut : cut? t s with
  | none =>
    have hword : ¬ t <:+: s := cut?_eq_none_iff.1 hcut
    rw [split_of_wordless ht hword]
    exact isCut_singleton hword
  | some found =>
    obtain ⟨b, a⟩ := found
    -- the search goes on behind the word, so the recursion is on the length
    have hpos : 0 < t.length := List.length_pos_iff.2 ht
    have hlength := congrArg List.length (append_of_cut? hcut)
    rw [List.length_append, List.length_append] at hlength
    have hshorter : a.length < s.length := by omega
    rw [split_of_cut? ht hcut]
    exact (isCut_cons_iff (split_ne_nil t a)).2 ⟨a, hcut, isCut_split ht a⟩
termination_by s.length

/-- A text has no other pieces than those that the walk finds. -/
theorem IsCut.eq_split (ht : t ≠ []) (h : IsCut t s ps) : ps = split t s := by
  induction ps generalizing s with
  | nil => exact absurd rfl h.ne_nil
  | cons p ps ih =>
    by_cases hps : ps = []
    · subst hps
      obtain ⟨rfl, hword⟩ := isCut_singleton_iff.1 h
      exact (split_of_wordless ht hword).symm
    · obtain ⟨rest, hcut, hrest⟩ := (isCut_cons_iff hps).1 h
      rw [split_of_cut? ht hcut, ← ih hrest]

/-- No piece has a place of the word. -/
theorem IsCut.wordless (ht : t ≠ []) (h : IsCut t s ps) (hp : p ∈ ps) : ¬ t <:+: p := by
  induction ps generalizing s with
  | nil => cases hp
  | cons q ps ih =>
    by_cases hps : ps = []
    · subst hps
      obtain ⟨rfl, hword⟩ := isCut_singleton_iff.1 h
      rw [List.mem_singleton.1 hp]
      exact hword
    · obtain ⟨rest, hcut, hrest⟩ := (isCut_cons_iff hps).1 h
      rcases List.mem_cons.1 hp with rfl | hp
      · exact not_infix_of_cut? ht hcut
      · exact ih hrest hp

/-! ## Passing over a text -/

/-- A search passes over the text, whatever follows it: the first place in the whole is the
    first one behind it. -/
def IsPassed (t a : Text) : Prop :=
  ∀ s, cut? t (a ++ s) = (cut? t s).map fun (b, e) => (a ++ b, e)

theorem isPassed_nil : IsPassed t [] := fun s => by simp

theorem IsPassed.append (ha : IsPassed t a) (hb : IsPassed t b) : IsPassed t (a ++ b) := by
  intro s
  rw [List.append_assoc, ha (b ++ s), hb s, Option.map_map]
  simp only [Function.comp_def, List.append_assoc]

/-- A text without the word is passed over in front of one that bars it. -/
theorem cut?_append_word (ht : t ≠ []) (hself : Bars t t) (ha : ¬ t <:+: a) (s : Text) :
    cut? t (a ++ (t ++ s)) = some (a, s) := by
  have hbars : Bars t (t ++ s) := by
    intro u v huv hu hv hstarts
    have hshort : v.length ≤ t.length := by rw [huv, List.length_append]; omega
    exact hself u v huv hu hv
      (List.prefix_of_prefix_length_le hstarts (List.prefix_append t s) hshort)
  rw [cut?_append hbars ((hasWord_eq_false_iff t a).2 ha), cut?_word_append ht]
  simp

/-- No part but the whole is both a start and an end of the text. -/
def IsUnbordered (t : Text) : Prop := ∀ v, v <+: t → v <:+ t → v = [] ∨ v = t

theorem isUnbordered_iff : IsUnbordered t ↔ Bars t t := by
  constructor
  -- an end that the text starts with would be such a part
  · rintro h u v rfl hu hv hstarts
    rcases h v hstarts (List.suffix_append u v) with hnil | hwhole
    · exact hv hnil
    · exact hu (List.self_eq_append_left.1 hwhole)
  · rintro h v hstarts ⟨u, hu⟩
    by_contra hborder
    rw [not_or] at hborder
    refine h u v hu.symm ?_ hborder.1 hstarts
    rintro rfl
    exact hborder.2 hu

end Tracewright.Text
