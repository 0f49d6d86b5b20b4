/-
  Tracewright.Value.Mapping

  Mappings as lists of entries: looking a key up and putting a value under a
  key.  A key that is there keeps its place; a new one goes to the end.

  Reference: the built-in `dict`.

    * `get?_put_same`, `getText?_put_other` — what is found after a put.
-/
import Tracewright.Value.Basic

namespace Tracewright

/-- The entries of a mapping, in the order of their first writing. -/
abbrev Mapping (α : Type) := List (Scalar × α)

namespace Mapping

variable {α : Type}

def get? (m : Mapping α) (k : Scalar) : Option α :=
  match m with
  | [] => none
  | (k', v) :: rest => if k'.same k then some v else get? rest k

/-- The value under a key that is a text. -/
abbrev getText? (m : Mapping α) (k : Text) : Option α := get? m (.text k)

def put (m : Mapping α) (k : Scalar) (v : α) : Mapping α :=
  match m with
  | [] => [(k, v)]
  | (k', v') :: rest => if k'.same k then (k', v) :: rest else (k', v') :: put rest k v

/-- The mapping with the entries put one after the other: of entries with one key the
    last wins. -/
def ofEntries (entries : List (Scalar × α)) : Mapping α :=
  entries.foldl (fun m e => m.put e.1 e.2) []

/-- No key of the mapping is the same as one that stands before it. -/
def IsDistinct (m : Mapping α) : Prop := m.Pairwise fun e e' => e.1.same e'.1 = false

instance (m : Mapping α) : Decidable m.IsDistinct :=
  inferInstanceAs (Decidable (List.Pairwise _ m))

/-! ## What is found after a put -/

theorem get?_put_same (m : Mapping α) {k : Scalar} (v : α) (h : k.same k) :
    (m.put k v).get? k = some v := by
  induction m with
  | nil => simp [put, get?, h]
  | cons e rest ih =>
    obtain ⟨k', v'⟩ := e
    by_cases hk : k'.same k <;> simp [put, get?, hk, ih]

theorem getText?_put_same (m : Mapping α) (k : Text) (v : α) :
    (m.put (.text k) v).getText? k = some v :=
  get?_put_same m v (by simp [Scalar.same_text])

/-- A text is the same key as no scalar but itself. -/
theorem same_text_iff {s : Scalar} {t : Text} : s.same (.text t) ↔ s = .text t := by
  cases s <;> simp [Scalar.same, Scalar.integer?]

/-- Another text keeps its value. -/
theorem getText?_put_other (m : Mapping α) {k k' : Text} (v : α) (h : k ≠ k') :
    (m.put (.text k) v).getText? k' = m.getText? k' := by
  induction m with
  | nil => simp [getText?, put, get?, Scalar.same_text, h]
  | cons e rest ih =>
    obtain ⟨s, w⟩ := e
    by_cases hk : s.same (.text k)
    · rw [same_text_iff] at hk
      subst hk
      simp [getText?, put, get?, Scalar.same_text, h]
    · simp only [getText?] at ih
      by_cases hk' : s.same (.text k') <;> simp [getText?, put, get?, hk, hk', ih]

end Mapping

end Tracewright
