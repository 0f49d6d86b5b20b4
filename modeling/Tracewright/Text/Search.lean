/-
  Tracewright.Text.Search

  Exact search in a text: the places of a word are found from left to
  right, none overlaps the one before it, and what is put in a place is
  not searched again.  Everything here rests on two walks over the text.

    * `cut? t s`   — what stands before and after the first place of `t`.
    * `split t s`  — the pieces of `s` between the places of `t`.

  The empty word has a place before every character and one at the end.

  Reference: `str.find`, `str.count`, `str.replace` and `str.split`.
-/
import Tracewright.Text.Basic

namespace Tracewright.Text

/-! ## The first place -/

/-- Looks for `t` from left to right; `before` is what has been passed, last character
    first. -/
def cutLoop (t before : Text) : Text → Option (Text × Text)
  | [] => if t.isEmpty then some (before.reverse, []) else none
  | c :: s =>
    if t.isPrefixOf (c :: s) then some (before.reverse, (c :: s).drop t.length)
    else cutLoop t (c :: before) s

/-- The text before and after the first place of `t` in `s`. -/
def cut? (t s : Text) : Option (Text × Text) := cutLoop t [] s

def hasWord (t s : Text) : Bool := (cut? t s).isSome

/-- Puts `r` in the first place of `t`; `none` if `t` has no place. -/
def replaceFirst? (t r s : Text) : Option Text :=
  (cut? t s).map fun (before, after) => before ++ r ++ after

/-! ## Every place -/

/-- Cuts at the places of `t`: `skip` characters still belong to the last place found,
    `piece` is the current piece and `done` the finished ones, both last first. -/
def splitLoop (t : Text) (skip : Nat) (piece : Text) (done : List Text) : Text → List Text
  | [] => (piece.reverse :: done).reverse
  | c :: s =>
    match skip with
    | k + 1 => splitLoop t k piece done s
    | 0 =>
      if t.isPrefixOf (c :: s) then splitLoop t (t.length - 1) [] (piece.reverse :: done) s
      else splitLoop t 0 (c :: piece) done s

/-- The pieces of `s` between the places of `t`, one more than there are places. -/
def split (t s : Text) : List Text :=
  if t.isEmpty then [] :: (s.map fun c => [c]) ++ [[]] else splitLoop t 0 [] [] s

/-- The number of places of `t` in `s`. -/
def countWord (t s : Text) : Nat := (split t s).length - 1

/-- Puts `r` in every place of `t`. -/
def replaceAll (t r s : Text) : Text := r.intercalate (split t s)

/-! ## The walks, one step at a time -/

theorem cutLoop_eq (t before s : Text) :
    cutLoop t before s = (cutLoop t [] s).map fun (b, a) => (before.reverse ++ b, a) := by
  induction s generalizing before with
  | nil => by_cases h : t.isEmpty <;> simp [cutLoop, h]
  | cons c s ih =>
    by_cases h : t.isPrefixOf (c :: s)
    · simp [cutLoop, h]
    · simp only [cutLoop, h]
      rw [if_neg (by simp), if_neg (by simp), ih (c :: before), ih [c], Option.map_map]
      congr 1; funext x; simp

theorem cut?_nil (t : Text) : cut? t [] = if t = [] then some ([], []) else none := by
  cases t <;> rfl

/-- A text that starts with the word is cut there; otherwise its first character is
    passed over. -/
theorem cut?_cons (t : Text) (c : Char) (s : Text) :
    cut? t (c :: s) =
      if t.isPrefixOf (c :: s) then some ([], (c :: s).drop t.length)
      else (cut? t s).map fun (b, a) => (c :: b, a) := by
  by_cases h : t.isPrefixOf (c :: s)
  · simp [cut?, cutLoop, h]
  · simp only [cut?, cutLoop, h]
    rw [if_neg (by simp), if_neg (by simp), cutLoop_eq t [c] s]
    simp

/-- Cutting loses nothing: before, the word and after make up the text. -/
theorem append_of_cut? {t s before after : Text} (h : cut? t s = some (before, after)) :
    before ++ t ++ after = s := by
  induction s generalizing before after with
  | nil =>
    rw [cut?_nil] at h
    split at h
    · next ht => simp at h; simp [h, ht]
    · simp at h
  | cons c s ih =>
    rw [cut?_cons] at h
    split at h
    · next hp =>
      simp only [Option.some.injEq, Prod.mk.injEq] at h
      obtain ⟨rfl, rfl⟩ := h
      obtain ⟨u, hu⟩ := List.isPrefixOf_iff_prefix.1 hp
      simp [← hu]
    · rcases hc : cut? t s with _ | ⟨b, a⟩
      · simp [hc] at h
      · simp only [hc, Option.map_some, Option.some.injEq, Prod.mk.injEq] at h
        obtain ⟨rfl, rfl⟩ := h
        simp [← ih hc]

theorem splitLoop_eq (t : Text) (k : Nat) (piece : Text) (done : List Text) (s : Text) :
    splitLoop t k piece done s =
      done.reverse ++ (splitLoop t k [] [] s).modifyHead (piece.reverse ++ ·) := by
  induction s generalizing k piece done with
  | nil => simp [splitLoop]
  | cons c s ih =>
    match k with
    | k + 1 => simp only [splitLoop]; exact ih k piece done
    | 0 =>
      by_cases h : t.isPrefixOf (c :: s)
      · simp only [splitLoop, h, if_true]
        rw [ih _ [] (piece.reverse :: done), ih _ [] [List.reverse []]]
        simp
      · simp only [splitLoop, h]
        rw [if_neg (by simp), if_neg (by simp), ih 0 (c :: piece) done, ih 0 [c] []]
        simp [List.modifyHead_modifyHead, Function.comp_def]

/-- The characters of a place are passed over. -/
theorem splitLoop_skip (t : Text) (k : Nat) (s : Text) :
    splitLoop t k [] [] s = splitLoop t 0 [] [] (s.drop k) := by
  induction s generalizing k with
  | nil => simp [splitLoop]
  | cons c s ih =>
    match k with
    | 0 => rfl
    | k + 1 => simp only [splitLoop, List.drop_succ_cons]; exact ih k

@[simp] theorem split_nil {t : Text} (ht : t ≠ []) : split t [] = [[]] := by
  cases t with
  | nil => exact absurd rfl ht
  | cons => rfl

/-- A text that starts with the word has an empty first piece and goes on behind it;
    otherwise its first character belongs to the first piece. -/
theorem split_cons {t : Text} (ht : t ≠ []) (c : Char) (s : Text) :
    split t (c :: s) =
      if t.isPrefixOf (c :: s) then [] :: split t ((c :: s).drop t.length)
      else (split t s).modifyHead (c :: ·) := by
  have he : t.isEmpty = false := by cases t <;> simp_all
  have hl : ((c :: s).drop t.length) = s.drop (t.length - 1) := by
    cases t with
    | nil => exact absurd rfl ht
    | cons => simp
  by_cases h : t.isPrefixOf (c :: s)
  · simp only [split, he, splitLoop, h, if_true, hl]
    rw [splitLoop_eq, splitLoop_skip]
    generalize splitLoop t 0 [] [] (s.drop (t.length - 1)) = ps
    cases ps <;> simp
  · simp only [split, he, splitLoop, h]
    rw [if_neg (by simp), if_neg (by simp), splitLoop_eq]
    rfl

end Tracewright.Text
