/-
  Tracewright.Proofs.Text.Count

  How many places a word has, and what replacing them does to a length.

    * `length_replaceAll`   — the length of a text in which a word has been
                              replaced in all its places.
    * `countWord_of_cut?`   — the first place is counted with those behind it.
    * `eq_of_append_word`   — a word that bars itself has no place but the one
                              it is put in.
-/
import Mathlib.Tactic.Ring
import Tracewright.Proofs.Text.Places

namespace Tracewright.Text

variable {t s a b : Text}

/-! ## Lengths -/

@[simp] theorem length_copies (count : Nat) (t : Text) :
    (copies count t).length = count * t.length := by
  rw [copies_eq, List.length_flatten, List.map_replicate, List.sum_replicate_nat]

@[simp] theorem copies_zero (t : Text) : copies 0 t = [] := by
  rw [copies_eq, List.replicate_zero, List.flatten_nil]

theorem copies_succ (count : Nat) (t : Text) : copies (count + 1) t = t ++ copies count t := by
  rw [copies_eq, copies_eq, List.replicate_succ, List.flatten_cons]

/-- Each place makes a text longer by what is put in it, and shorter by the word. -/
theorem length_replaceAll (ht : t ≠ []) (r s : Text) :
    ((replaceAll t r s).length : Int) =
      s.length + countWord t s * ((r.length : Int) - t.length) := by
  match s with
  | [] =>
    rw [replaceAll_nil ht, countWord_nil ht]
    simp
  | c :: s =>
    rw [replaceAll_cons ht, countWord_cons ht]
    by_cases hp : t.isPrefixOf (c :: s) = true
    -- the search goes on behind the word, so the recursion is on the length
    · have hpos : 0 < t.length := List.length_pos_iff.2 ht
      have ih := length_replaceAll ht r ((c :: s).drop t.length)
      have hle : t.length ≤ (c :: s).length := (List.isPrefixOf_iff_prefix.1 hp).length_le
      rw [List.length_drop, Nat.cast_sub hle] at ih
      rw [if_pos hp, if_pos hp, List.length_append, Nat.cast_add, ih]
      push_cast
      ring
    · have ih := length_replaceAll ht r s
      rw [if_neg hp, if_neg hp, List.length_cons, List.length_cons, Nat.cast_succ, ih]
      push_cast
      ring
termination_by s.length
decreasing_by
  all_goals simp only [List.length_drop, List.length_cons]; omega

/-! ## Places -/

/-- The first place counts, and so do those behind it. -/
theorem countWord_of_cut? (ht : t ≠ []) (h : cut? t s = some (b, a)) :
    countWord t s = countWord t a + 1 := by
  have hpos : 0 < (split t a).length := List.length_pos_iff.2 (split_ne_nil t a)
  rw [countWord, countWord, split_of_cut? ht h, List.length_cons]
  omega

/-- Two places of a word that bars itself do not overlap: a place that does not start before
    another one starts with it, or lies behind it. -/
theorem eq_nil_or_prefix_of_bars (ht : Bars t t) {u : Text} (h : t ++ a = u ++ (t ++ b)) :
    u = [] ∨ t <+: u := by
  rcases List.append_eq_append_iff.1 h with ⟨v, hv, -⟩ | ⟨v, hv, hb⟩
  -- the second place starts behind the first one
  · exact .inr ⟨v, hv.symm⟩
  · by_cases hu : u = []
    · exact .inl hu
    by_cases hv' : v = []
    · rw [hv', List.append_nil] at hv
      exact .inr (hv ▸ List.prefix_rfl)
    -- otherwise the end of the first place would be the start of the second one
    · have hshort : v.length ≤ t.length := by
        rw [hv, List.length_append]
        omega
      have hstart : v <+: t :=
        List.prefix_of_prefix_length_le ⟨a, hb.symm⟩ (List.prefix_append t b) hshort
      exact absurd hstart (ht u v hv hu hv')

/-- A word that bars itself has no other place in a text around which it has none. -/
theorem eq_of_append_word (ht : Bars t t) {b' a' : Text} (hb : ¬ t <:+: b) (ha : ¬ t <:+: a)
    (h : b' ++ (t ++ a') = b ++ (t ++ a)) : b' = b := by
  rcases List.append_eq_append_iff.1 h with ⟨u, rfl, hu⟩ | ⟨u, rfl, hu⟩
  -- a place in front of the one that is known would lie in front of it as a whole
  · rcases eq_nil_or_prefix_of_bars ht hu with rfl | hstart
    · exact (List.append_nil b').symm
    · exact absurd (hstart.isInfix.trans (List.suffix_append b' u).isInfix) hb
  -- and one behind it would lie behind it as a whole
  · rcases eq_nil_or_prefix_of_bars ht hu with rfl | ⟨v, rfl⟩
    · exact List.append_nil b
    · rw [List.append_assoc, List.append_cancel_left_eq] at hu
      exact absurd ⟨v, a', by rw [hu, List.append_assoc]⟩ ha

end Tracewright.Text
