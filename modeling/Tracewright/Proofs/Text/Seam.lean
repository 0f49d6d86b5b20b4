/-
  Tracewright.Proofs.Text.Seam

  Words at a seam: what a search finds in a text that is put together from
  two parts.  A part *bars* a word if it does not start with the end of one:
  then no place of the word reaches into it from what stands before, and
  every search may be made part by part.

    * `Bars t s`            — `s` does not start with an end of `t`.
    * `hasWord_append`, `replaceAll_append`, `cut?_append`
                            — the searches of `Text/Search`, part by part.

  `hasWord_iff` says what it is for a text to have a place of a word.
-/
import Mathlib.Data.List.Infix
import Tracewright.Text.Search

namespace Tracewright.Text

variable {t r s a : Text}

/-! ## The walks, one step at a time -/

theorem hasWord_nil (ht : t ≠ []) : hasWord t [] = false := by
  simp [hasWord, cut?_nil, ht]

/-- A place of a word starts with the text or behind its first character. -/
theorem hasWord_cons (t : Text) (c : Char) (s : Text) :
    hasWord t (c :: s) = (t.isPrefixOf (c :: s) || hasWord t s) := by
  by_cases h : t.isPrefixOf (c :: s) <;> simp [hasWord, cut?_cons, h]

/-- A text has a place of a word iff the word is a part of it. -/
theorem hasWord_iff (t s : Text) : hasWord t s = true ↔ t <:+: s := by
  induction s with
  | nil =>
    rw [List.infix_nil]
    by_cases ht : t = [] <;> simp [hasWord, cut?_nil, ht]
  | cons c s ih =>
    rw [hasWord_cons, Bool.or_eq_true, ih, List.isPrefixOf_iff_prefix, List.infix_cons_iff]

theorem hasWord_eq_false_iff (t s : Text) : hasWord t s = false ↔ ¬ t <:+: s := by
  rw [← hasWord_iff, Bool.not_eq_true]

theorem split_ne_nil (t s : Text) : split t s ≠ [] := by
  by_cases ht : t = []
  · simp [split, ht]
  · induction s with
    | nil => rw [split_nil ht]; exact List.cons_ne_nil _ _
    | cons c s ih =>
      rw [split_cons ht]
      split
      · exact List.cons_ne_nil _ _
      -- the first piece grows by a character, so there is one if there was one
      · intro h
        apply ih
        cases hs : split t s with
        | nil => rfl
        | cons p ps => simp [hs] at h

/-- The pieces of a text are made of its characters. -/
theorem mem_of_mem_split (ht : t ≠ []) {s p : Text} {c : Char} (hp : p ∈ split t s) (hc : c ∈ p) :
    c ∈ s := by
  induction hn : s.length using Nat.strongRecOn generalizing s p with
  | ind n ih =>
    cases s with
    | nil =>
      rw [split_nil ht, List.mem_singleton] at hp
      rw [hp] at hc
      exact hc
    | cons first s =>
      rw [split_cons ht] at hp
      split at hp
      · rcases List.mem_cons.1 hp with rfl | hp
        · exact absurd hc List.not_mem_nil
        · -- what is behind the place is shorter
          have hpos : 0 < t.length := List.length_pos_iff.2 ht
          have hlt : ((first :: s).drop t.length).length < n := by
            rw [List.length_drop, hn]
            rw [List.length_cons] at hn
            omega
          exact List.mem_of_mem_drop (ih _ hlt hp hc rfl)
      · -- the first character goes in front of the first piece of what follows
        have hlt : s.length < n := by
          rw [List.length_cons] at hn
          omega
        cases hpieces : split t s with
        | nil =>
          rw [hpieces] at hp
          exact absurd hp List.not_mem_nil
        | cons q qs =>
          rw [hpieces, List.modifyHead_cons, List.mem_cons] at hp
          rcases hp with rfl | hp
          · rcases List.mem_cons.1 hc with rfl | hc
            · exact List.mem_cons_self
            · have hq : q ∈ split t s := by rw [hpieces]; exact List.mem_cons_self
              exact List.mem_cons_of_mem _ (ih _ hlt hq hc rfl)
          · have hq : p ∈ split t s := by rw [hpieces]; exact List.mem_cons_of_mem q hp
            exact List.mem_cons_of_mem _ (ih _ hlt hq hc rfl)

theorem countWord_nil (ht : t ≠ []) : countWord t [] = 0 := by
  rw [countWord, split_nil ht, List.length_singleton]

/-- A word that the text starts with is counted and passed over. -/
theorem countWord_cons (ht : t ≠ []) (c : Char) (s : Text) :
    countWord t (c :: s) =
      if t.isPrefixOf (c :: s) then countWord t ((c :: s).drop t.length) + 1
      else countWord t s := by
  rw [countWord, split_cons ht]
  split
  -- there is a piece behind the word, so one piece more is one place more
  · have hpos := List.length_pos_iff.2 (split_ne_nil t ((c :: s).drop t.length))
    rw [List.length_cons, countWord]
    omega
  · rw [List.length_modifyHead, countWord]

/-- There is a piece behind the first one iff the word has a place. -/
theorem countWord_eq_zero_iff (ht : t ≠ []) (s : Text) :
    countWord t s = 0 ↔ hasWord t s = false := by
  induction s with
  | nil => simp [countWord_nil ht, hasWord_nil ht]
  | cons c s ih =>
    rw [countWord_cons ht, hasWord_cons, Bool.or_eq_false_iff, ← ih]
    by_cases hp : t.isPrefixOf (c :: s) = true
    · rw [if_pos hp, hp]
      exact ⟨fun h => absurd h (Nat.succ_ne_zero _), fun h => Bool.noConfusion h.1⟩
    · rw [if_neg hp, Bool.eq_false_iff.2 hp]
      exact ⟨fun h => ⟨rfl, h⟩, fun h => h.2⟩

theorem replaceAll_nil (ht : t ≠ []) : replaceAll t r [] = [] := by
  rw [replaceAll, split_nil ht, List.intercalate_singleton]

/-- A word that the text starts with is replaced and passed over; otherwise the first
    character stays. -/
theorem replaceAll_cons (ht : t ≠ []) (r : Text) (c : Char) (s : Text) :
    replaceAll t r (c :: s) =
      if t.isPrefixOf (c :: s) then r ++ replaceAll t r ((c :: s).drop t.length)
      else c :: replaceAll t r s := by
  simp only [replaceAll, split_cons ht]
  split
  · rw [List.intercalate_cons_of_ne_nil (split_ne_nil _ _), List.nil_append]
  · cases hs : split t s with
    | nil => exact absurd hs (split_ne_nil t s)
    | cons p ps => cases ps <;> simp

theorem replaceAll_word_append (ht : t ≠ []) (r s : Text) :
    replaceAll t r (t ++ s) = r ++ replaceAll t r s := by
  cases t with
  | nil => exact absurd rfl ht
  | cons c t =>
    rw [List.cons_append, replaceAll_cons ht, if_pos (by simp), ← List.cons_append,
      List.drop_left]

theorem cut?_word_append (ht : t ≠ []) (s : Text) : cut? t (t ++ s) = some ([], s) := by
  cases t with
  | nil => exact absurd rfl ht
  | cons c t =>
    rw [List.cons_append, cut?_cons, if_pos (by simp), ← List.cons_append, List.drop_left]

/-- Without a place of the word the text stays as it is. -/
theorem replaceAll_of_not_hasWord (ht : t ≠ []) (r : Text) (h : hasWord t s = false) :
    replaceAll t r s = s := by
  induction s with
  | nil => exact replaceAll_nil ht
  | cons c s ih =>
    rw [hasWord_cons, Bool.or_eq_false_iff] at h
    rw [replaceAll_cons ht, if_neg (by simp [h.1]), ih h.2]

theorem replaceAll_word (ht : t ≠ []) (r : Text) : replaceAll t r t = r := by
  have h := replaceAll_word_append ht r []
  rwa [List.append_nil, replaceAll_nil ht, List.append_nil] at h

/-! ## Seams -/

/-- No place of `t` that starts before `s` reaches into `s`: the text does not start with an
    end of the word, the word as a whole aside. -/
def Bars (t s : Text) : Prop := ∀ u v : Text, t = u ++ v → u ≠ [] → v ≠ [] → ¬ v <+: s

/-- A text in front of a bar starts with the word only on its own. -/
theorem isPrefixOf_append_of_bars (hs : Bars t s) (ha : a ≠ []) :
    t.isPrefixOf (a ++ s) = t.isPrefixOf a := by
  rw [Bool.eq_iff_iff, List.isPrefixOf_iff_prefix, List.isPrefixOf_iff_prefix]
  -- a word that lies in `a` is there in any case; the other way is what the bar is for
  refine ⟨fun h => ?_, fun h => h.trans (List.prefix_append a s)⟩
  obtain ⟨rest, h⟩ := h
  rcases List.append_eq_append_iff.1 h with ⟨a', ha', -⟩ | ⟨v, hv, hs'⟩
  · exact ⟨a', ha'.symm⟩
  · -- the word would end in `s`, which the bar forbids unless it ends at the seam
    by_cases hv' : v = []
    · rw [hv, hv', List.append_nil]
    · exact absurd ⟨rest, hs'.symm⟩ (hs a v hv ha hv')

/-- A word in a text in front of a bar is passed over without touching the bar. -/
theorem drop_append_of_isPrefixOf (s : Text) (h : t.isPrefixOf a = true) :
    (a ++ s).drop t.length = a.drop t.length ++ s :=
  List.drop_append_of_le_length (List.isPrefixOf_iff_prefix.1 h).length_le

theorem hasWord_append (ht : t ≠ []) (hs : Bars t s) (a : Text) :
    hasWord t (a ++ s) = (hasWord t a || hasWord t s) := by
  induction a with
  | nil => rw [hasWord_nil ht]; rfl
  | cons c a ih =>
    have hseam := isPrefixOf_append_of_bars hs (List.cons_ne_nil c a)
    rw [List.cons_append] at hseam
    rw [List.cons_append, hasWord_cons, hasWord_cons, hseam, ih, Bool.or_assoc]

/-- Pieces that are kept apart by a text without the word, into which the word does not reach
    and out of which it does not reach either, have the word iff one of them has. -/
theorem hasWord_intercalate (ht : t ≠ []) (hbars : ∀ s, Bars t (r ++ s))
    (hword : ∀ s, hasWord t (r ++ s) = hasWord t s) (ps : List Text) :
    hasWord t (r.intercalate ps) = ps.any (hasWord t) := by
  induction ps with
  | nil => exact hasWord_nil ht
  | cons p ps ih =>
    cases ps with
    | nil => rw [List.intercalate_singleton, List.any_cons, List.any_nil, Bool.or_false]
    | cons q ps =>
      rw [List.intercalate_cons_cons, List.append_assoc, hasWord_append ht (hbars _), hword, ih]
      rfl

theorem replaceAll_append (ht : t ≠ []) (hs : Bars t s) (r a : Text) :
    replaceAll t r (a ++ s) = replaceAll t r a ++ replaceAll t r s := by
  match a with
  | [] => rw [replaceAll_nil ht]; rfl
  | c :: a =>
    have hseam := isPrefixOf_append_of_bars hs (List.cons_ne_nil c a)
    rw [List.cons_append] at hseam ⊢
    rw [replaceAll_cons ht, replaceAll_cons ht, hseam]
    by_cases hp : t.isPrefixOf (c :: a) = true
    -- the search goes on behind the word, so the recursion is on the length
    · have hpos : 0 < t.length := List.length_pos_iff.2 ht
      rw [if_pos hp, if_pos hp, ← List.cons_append, drop_append_of_isPrefixOf s hp,
        replaceAll_append ht hs r ((c :: a).drop t.length), List.append_assoc]
    · rw [if_neg hp, if_neg hp, replaceAll_append ht hs r a, List.cons_append]
termination_by a.length
decreasing_by
  all_goals simp only [List.length_drop, List.length_cons]; omega

/-- The first place of a word that the first part does not have is in the second one. -/
theorem cut?_append (hs : Bars t s) {a : Text} (ha : hasWord t a = false) :
    cut? t (a ++ s) = (cut? t s).map fun (b, e) => (a ++ b, e) := by
  induction a with
  | nil => simp
  | cons c a ih =>
    rw [hasWord_cons, Bool.or_eq_false_iff] at ha
    have hseam := isPrefixOf_append_of_bars hs (List.cons_ne_nil c a)
    rw [List.cons_append] at hseam
    rw [List.cons_append, cut?_cons, if_neg (by simp [hseam, ha.1]), ih ha.2, Option.map_map]
    rfl

/-- A place that lies in the first part stays the first one. -/
theorem cut?_append_left (ht : t ≠ []) {b e : Text} (h : cut? t a = some (b, e)) (s : Text) :
    cut? t (a ++ s) = some (b, e ++ s) := by
  induction a generalizing b e with
  | nil => rw [cut?_nil, if_neg ht] at h; exact absurd h (Option.some_ne_none _).symm
  | cons c a ih =>
    rw [cut?_cons] at h
    rw [List.cons_append, cut?_cons, ← List.cons_append]
    by_cases hp : t.isPrefixOf (c :: a) = true
    · have hp' : t.isPrefixOf (c :: a ++ s) = true :=
        List.isPrefixOf_iff_prefix.2
          ((List.isPrefixOf_iff_prefix.1 hp).trans (List.prefix_append _ _))
      rw [if_pos hp, Option.some_inj, Prod.mk.injEq] at h
      rw [if_pos hp', drop_append_of_isPrefixOf s hp, ← h.1, h.2]
    · rw [if_neg hp, Option.map_eq_some_iff] at h
      obtain ⟨⟨b', e'⟩, hcut, heq⟩ := h
      rw [Prod.mk.injEq] at heq
      -- the word fits into the first part, so it cannot start here and reach beyond it
      have hp' : ¬ t.isPrefixOf (c :: a ++ s) = true := by
        intro hp'
        apply hp
        have hlen := congrArg List.length (append_of_cut? hcut)
        simp only [List.length_append] at hlen
        rw [List.isPrefixOf_iff_prefix] at hp' ⊢
        refine List.prefix_of_prefix_length_le hp' (List.prefix_append _ s) ?_
        rw [List.length_cons]
        omega
      rw [if_neg hp', ih hcut, Option.map_some, ← heq.1, ← heq.2]

theorem replaceFirst?_append_left (ht : t ≠ []) {a' : Text}
    (h : replaceFirst? t r a = some a') (s : Text) :
    replaceFirst? t r (a ++ s) = some (a' ++ s) := by
  rw [replaceFirst?, Option.map_eq_some_iff] at h
  obtain ⟨⟨b, e⟩, hcut, rfl⟩ := h
  rw [replaceFirst?, cut?_append_left ht hcut, Option.map_some]
  simp

end Tracewright.Text
