/-
  Tracewright.Proofs.Text.Pieces

  The pieces of a text between the places of a word.

    * `intercalate_split`       — with the word between them they are the text.
    * `not_hasWord_of_mem_split` — none of them has a place of the word.
    * `isPassed_append_of_apart` — a search for the word passes over a text that
                                  ends without any of its characters.
    * `hasWord_replaceAll_of_apart`
                                — with a text between them that has no
                                  character of the word, nor has the whole.
-/
import Tracewright.Proofs.Text.Places

namespace Tracewright.Text

variable {t r : Text}

/-! ## Pieces -/

theorem intercalate_split (ht : t ≠ []) (s : Text) : t.intercalate (split t s) = s :=
  (isCut_split ht s).joins

theorem not_hasWord_of_mem_split (ht : t ≠ []) {s p : Text} (hp : p ∈ split t s) :
    hasWord t p = false :=
  (hasWord_eq_false_iff t p).2 ((isCut_split ht s).wordless ht hp)

/-! ## A text apart from the word -/

/-- No word reaches into a text without any of its characters. -/
theorem bars_of_apart (hr : r ≠ []) (hapart : ∀ c ∈ r, c ∉ t) (s : Text) : Bars t (r ++ s) := by
  rintro u v rfl - hv hstarts
  cases r with
  | nil => exact hr rfl
  | cons c r =>
    cases v with
    | nil => exact hv rfl
    | cons d v =>
      obtain ⟨rfl, -⟩ := List.cons_prefix_cons.1 hstarts
      exact hapart d List.mem_cons_self (List.mem_append_right u List.mem_cons_self)

/-- A search for the word passes over such a text. -/
theorem isPassed_of_apart (ht : t ≠ []) (hapart : ∀ c ∈ r, c ∉ t) : IsPassed t r := by
  induction r with
  | nil => exact isPassed_nil
  | cons c r ih =>
    intro s
    have hfirst : t.isPrefixOf (c :: (r ++ s)) = false := by
      rw [Bool.eq_false_iff, Ne, List.isPrefixOf_iff_prefix]
      intro hstarts
      cases t with
      | nil => exact ht rfl
      | cons d t =>
        obtain ⟨rfl, -⟩ := List.cons_prefix_cons.1 hstarts
        exact hapart d List.mem_cons_self List.mem_cons_self
    rw [List.cons_append, cut?_cons, if_neg (by rw [hfirst]; exact Bool.false_ne_true),
      ih (fun x hx => hapart x (List.mem_cons_of_mem c hx)) s, Option.map_map]
    rfl

/-- So it does if the text stands behind another one without the word. -/
theorem isPassed_append_of_apart (ht : t ≠ []) (hr : r ≠ []) (hapart : ∀ c ∈ r, c ∉ t)
    {p : Text} (hp : ¬ t <:+: p) : IsPassed t (p ++ r) := by
  intro s
  have hbars : Bars t (r ++ s) := bars_of_apart hr hapart s
  rw [List.append_assoc, cut?_append hbars ((hasWord_eq_false_iff t p).2 hp),
    isPassed_of_apart ht hapart s, Option.map_map]
  simp only [Function.comp_def, List.append_assoc]

theorem hasWord_replaceAll_of_apart (ht : t ≠ []) (hr : r ≠ []) (hapart : ∀ c ∈ r, c ∉ t)
    (s : Text) : hasWord t (replaceAll t r s) = false := by
  have hpassed : ∀ s, hasWord t (r ++ s) = hasWord t s := fun s => by
    rw [hasWord, isPassed_of_apart ht hapart s, Option.isSome_map, hasWord]
  rw [replaceAll, hasWord_intercalate ht (bars_of_apart hr hapart) hpassed, List.any_eq_false]
  intro p hp
  rw [not_hasWord_of_mem_split ht hp]
  exact Bool.false_ne_true

end Tracewright.Text
