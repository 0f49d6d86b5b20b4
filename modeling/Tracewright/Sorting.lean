/-
  Tracewright.Sorting

  Sorting a list by insertion.  Elements that come out equal keep their order.

    * `insertBy le a xs` — puts `a` before the first element that it does not
                           come after.
    * `sortBy le xs`     — the list in order.

  `sortBy_perm` says that nothing is lost or added, `sortBy_pairwise` that the
  result is in order.

  Reference: the built-in `sorted`.
-/

namespace Tracewright

variable {α : Type}

/-- Puts an element before the first one that it does not come after. -/
def insertBy (le : α → α → Bool) (a : α) : List α → List α
  | [] => [a]
  | b :: rest => if le a b then a :: b :: rest else b :: insertBy le a rest

def sortBy (le : α → α → Bool) (xs : List α) : List α := xs.foldr (insertBy le) []

/-! ## Nothing is lost or added -/

theorem insertBy_perm (le : α → α → Bool) (a : α) (xs : List α) :
    (insertBy le a xs).Perm (a :: xs) := by
  induction xs with
  | nil => exact .refl _
  | cons b rest ih =>
    by_cases h : le a b
    · simp [insertBy, h]
    · simp only [insertBy, h]
      exact (ih.cons b).trans (.swap a b rest)

theorem sortBy_perm (le : α → α → Bool) (xs : List α) : (sortBy le xs).Perm xs := by
  induction xs with
  | nil => exact .refl _
  | cons a rest ih => exact (insertBy_perm le a _).trans (ih.cons a)

@[simp] theorem mem_sortBy {le : α → α → Bool} {a : α} {xs : List α} :
    a ∈ sortBy le xs ↔ a ∈ xs :=
  (sortBy_perm le xs).mem_iff

/-! ## The result is in order -/

theorem insertBy_pairwise {le : α → α → Bool} (total : ∀ a b, le a b ∨ le b a)
    (trans : ∀ a b c, le a b → le b c → le a c) {a : α} {xs : List α}
    (h : xs.Pairwise (le · ·)) : (insertBy le a xs).Pairwise (le · ·) := by
  induction xs with
  | nil => simp [insertBy]
  | cons b rest ih =>
    obtain ⟨hb, hrest⟩ := List.pairwise_cons.1 h
    by_cases hab : le a b
    · simp only [insertBy, hab, if_pos]
      refine List.pairwise_cons.2 ⟨fun c hc => ?_, h⟩
      rcases List.mem_cons.1 hc with rfl | hc
      · exact hab
      · exact trans a b c hab (hb c hc)
    · simp only [insertBy, hab]
      refine List.pairwise_cons.2 ⟨fun c hc => ?_, ih hrest⟩
      rcases List.mem_cons.1 ((insertBy_perm le a rest).mem_iff.1 hc) with rfl | hc
      · exact (total c b).resolve_left hab
      · exact hb c hc

theorem sortBy_pairwise {le : α → α → Bool} (total : ∀ a b, le a b ∨ le b a)
    (trans : ∀ a b c, le a b → le b c → le a c) (xs : List α) :
    (sortBy le xs).Pairwise (le · ·) := by
  induction xs with
  | nil => exact .nil
  | cons a rest ih => exact insertBy_pairwise total trans ih

end Tracewright
