/-
  Tracewright.Proofs.Text.Case

  Which texts lower or raise to a given word.  The case mappings of Unicode
  take a few characters outside ASCII into ASCII, and these are the only
  ones that a word can be spelled with beside its own letters.

    * `Spells`     — a text spells a word, letter by letter.
    * `IsMapping`  — what a case mapping does to ASCII, and which characters
                     it takes there.
    * `isMapping_lower`, `isMapping_upper`
                   — the two mappings, from their tables.
    * `lower_eq_iff`, `upper_eq_iff`
                   — the texts that are mapped to a word are its spellings.
-/
import Mathlib.Data.List.Infix
import Tracewright.Proofs.Text.Utf8
import Tracewright.Text.Case

namespace Tracewright.Text

/-! ## Spellings -/

/-- A text spells a word: it has the letters of the word in lower or upper ASCII case, or in
    place of a piece of the word a character that stands for it. -/
inductive Spells (others : List (Text × Char)) : Text → Text → Prop
  | nil : Spells others [] []
  | letter {c d : Char} {word s : Text} (hd : d = c.toLower ∨ d = c.toUpper)
      (hrest : Spells others word s) : Spells others (c :: word) (d :: s)
  | other {piece : Text} {d : Char} {word s : Text} (hd : (piece, d) ∈ others)
      (hrest : Spells others word s) : Spells others (piece ++ word) (d :: s)

variable {others others' : List (Text × Char)} {word s : Text} {c d : Char}

/-- Only the characters whose piece is a part of the word matter. -/
theorem Spells.mono (h : Spells others word s)
    (hsub : ∀ e ∈ others, e.1 <:+: word → e ∈ others') : Spells others' word s := by
  induction h with
  | nil => exact .nil
  | letter hd _ ih =>
    exact .letter hd (ih fun e he hpart => hsub e he (hpart.trans (List.suffix_cons _ _).isInfix))
  | @other piece d word s hd _ ih =>
    have hword : word <:+: piece ++ word := (List.suffix_append piece word).isInfix
    have hpiece : piece <:+: piece ++ word := (List.prefix_append piece word).isInfix
    exact .other (hsub _ hd hpiece) (ih fun e he hpart => hsub e he (hpart.trans hword))

/-- Without other characters, a spelling starts with the first letter of the word. -/
theorem Spells.head (h : Spells [] (c :: word) s) :
    s.head? = some c.toLower ∨ s.head? = some c.toUpper := by
  generalize hw : c :: word = w at h
  cases h with
  | nil => cases hw
  | letter hd _ =>
    cases hw
    exact hd.imp (congrArg some) (congrArg some)
  | other hd _ => cases hd

/-! ## Mappings -/

/-- A property of all ASCII characters is one of the first 128 numbers. -/
theorem forall_ascii {P : Char → Prop} (h : ∀ n < 128, P (Char.ofNat n)) (hc : c.toNat < 128) :
    P c := by
  have hn := h c.toNat hc
  rwa [Char.ofNat_toNat] at hn

/-- A mapping of characters to texts maps ASCII to itself, letters to one of the cases; of the
    other characters it takes `others` into ASCII, and none else. -/
structure IsMapping (f : Char → Text) (fold : Char → Char) (others : List (Text × Char)) :
    Prop where
  fold_eq : fold = Char.toLower ∨ fold = Char.toUpper
  ascii : ∀ c : Char, c.toNat < 128 → f c = [fold c]
  other : ∀ e ∈ others, f e.2 = e.1
  far : ∀ c : Char, 128 ≤ c.toNat → (f c, c) ∈ others ∨ ∃ d ∈ f c, 128 ≤ d.toNat

/-- A word of ASCII characters in one case. -/
def IsFolded (fold : Char → Char) (word : Text) : Prop := ∀ c ∈ word, c.toNat < 128 ∧ fold c = c

-- by the characters of the word, and not by all characters there are
instance (fold : Char → Char) (word : Text) : Decidable (IsFolded fold word) :=
  List.decidableBAll (fun c : Char => c.toNat < 128 ∧ fold c = c) word

/-- Either case of a letter is ASCII, and is mapped as the letter is. -/
theorem fold_case (hc : c.toNat < 128) (hd : d = c.toLower ∨ d = c.toUpper) :
    d.toNat < 128 ∧ d.toLower = c.toLower ∧ d.toUpper = c.toUpper := by
  rcases hd with rfl | rfl
  · exact forall_ascii (P := fun c => c.toLower.toNat < 128 ∧ c.toLower.toLower = c.toLower ∧
      c.toLower.toUpper = c.toUpper) (by decide +kernel) hc
  · exact forall_ascii (P := fun c => c.toUpper.toNat < 128 ∧ c.toUpper.toLower = c.toLower ∧
      c.toUpper.toUpper = c.toUpper) (by decide +kernel) hc

/-- A character is one of the cases of what it is mapped to. -/
theorem eq_case_of_fold {fold : Char → Char} (hfold : fold = Char.toLower ∨ fold = Char.toUpper)
    (hd : d.toNat < 128) : d = (fold d).toLower ∨ d = (fold d).toUpper := by
  rcases hfold with rfl | rfl
  · exact forall_ascii (P := fun d => d = d.toLower.toLower ∨ d = d.toLower.toUpper)
      (by decide +kernel) hd
  · exact forall_ascii (P := fun d => d = d.toUpper.toLower ∨ d = d.toUpper.toUpper)
      (by decide +kernel) hd

section IsMapping

variable {f : Char → Text} {fold : Char → Char} (hf : IsMapping f fold others)

include hf

/-- A spelling of a word is mapped to it. -/
theorem IsMapping.flatMap_of_spells (h : Spells others word s) (hword : IsFolded fold word) :
    s.flatMap f = word := by
  induction h with
  | nil => rfl
  | @letter c d word s hd _ ih =>
    obtain ⟨⟨hc, hfold⟩, hword⟩ := List.forall_mem_cons.1 hword
    obtain ⟨hascii, hlower, hupper⟩ := fold_case hc hd
    have hdc : fold d = fold c := by
      rcases hf.fold_eq with rfl | rfl
      · exact hlower
      · exact hupper
    rw [List.flatMap_cons, hf.ascii d hascii, hdc, hfold, ih hword]
    rfl
  | @other piece d word s hd _ ih =>
    rw [List.flatMap_cons, hf.other _ hd, ih fun c hc => hword c (List.mem_append_right _ hc)]

/-- What is mapped to ASCII is a spelling of it: by letters, and by the characters that are
    taken into ASCII. -/
theorem IsMapping.spells_of_flatMap (h : s.flatMap f = word) (hword : ∀ c ∈ word, c.toNat < 128) :
    Spells others word s := by
  induction s generalizing word with
  | nil =>
    subst h
    exact .nil
  | cons d s ih =>
    subst h
    rw [List.flatMap_cons] at hword ⊢
    have hrest := ih rfl fun c hc => hword c (List.mem_append_right _ hc)
    by_cases hd : d.toNat < 128
    · rw [hf.ascii d hd]
      exact .letter (eq_case_of_fold hf.fold_eq hd) hrest
    · rcases hf.far d (by omega) with hother | ⟨c, hc, hfar⟩
      · exact .other hother hrest
      -- the character would bring something into the word that is not ASCII
      · have hlt := hword c (List.mem_append_left _ hc)
        omega

theorem IsMapping.flatMap_eq_iff (hword : IsFolded fold word) :
    s.flatMap f = word ↔ Spells others word s :=
  ⟨fun h => hf.spells_of_flatMap h fun c hc => (hword c hc).1,
    fun h => hf.flatMap_of_spells h hword⟩

end IsMapping

/-! ## The tables -/

/-- A code point outside ASCII. -/
def isFar (n : Nat) : Bool :=
  decide (128 ≤ n) && (decide (n < 0xd800) || (decide (0xdfff < n) && decide (n < 0x110000)))

theorem le_toNat_ofNat_of_isFar {n : Nat} (h : isFar n = true) : 128 ≤ (Char.ofNat n).toNat := by
  simp only [isFar, Bool.and_eq_true, Bool.or_eq_true, decide_eq_true_eq] at h
  rw [Utf8.toNat_ofNat_of_isValidChar h.2]
  exact h.1

/-- A special form has a character outside ASCII, or is known. -/
def settlesForm (others : List (Text × Char)) (e : Nat × List Nat) : Bool :=
  e.2.any isFar || others.contains (e.2.map Char.ofNat, Char.ofNat e.1)

/-- A run is in ASCII, or all of it is mapped to code points outside, or it is a single
    character that is known. -/
def settlesRun (others : List (Text × Char)) (r : CaseRun) : Bool :=
  let low := (r.first + r.shift).toNat
  let high := (r.last + r.shift).toNat
  decide (r.last < 128)
    || (decide (0 ≤ r.first + r.shift) && isFar low && isFar high
      && (decide (high < 0xd800) || decide (0xdfff < low)))
    || (decide (r.first = r.last) && others.contains ([Char.ofNat low], Char.ofNat r.first))

/-- What a table maps a character to: a form of its own, a place at the distance of its run, or
    itself. -/
theorem mapCase_cases (runs : List CaseRun) (special : List (Nat × List Nat)) (c : Char) :
    (∃ form, (c.toNat, form) ∈ special ∧ mapCase runs special c = form.map Char.ofNat) ∨
      (∃ r ∈ runs, r.holds c.toNat = true ∧
        mapCase runs special c = [Char.ofNat ((c.toNat : Int) + r.shift).toNat]) ∨
      mapCase runs special c = [c] := by
  rw [mapCase]
  cases hspecial : special.lookup c.toNat with
  | some form =>
    obtain ⟨before, after, rfl, -⟩ := List.lookup_eq_some_iff.1 hspecial
    exact .inl ⟨form, List.mem_append_right _ List.mem_cons_self, rfl⟩
  | none =>
    cases hrun : runs.find? (·.holds c.toNat) with
    | some r =>
      have hholds := List.find?_some (p := fun r : CaseRun => r.holds c.toNat) hrun
      exact .inr (.inl ⟨r, List.mem_of_find?_eq_some hrun, hholds, rfl⟩)
    | none => exact .inr (.inr rfl)

/-- Tables all of whose entries are settled map a character outside ASCII to a text that is not
    ASCII either, unless it is known. -/
theorem mapCase_far {runs : List CaseRun} {special : List (Nat × List Nat)}
    (hspecial : special.all (settlesForm others) = true)
    (hruns : runs.all (settlesRun others) = true)
    (hc : 128 ≤ c.toNat) :
    (mapCase runs special c, c) ∈ others ∨ ∃ d ∈ mapCase runs special c, 128 ≤ d.toNat := by
  rcases mapCase_cases runs special c with ⟨form, hmem, heq⟩ | ⟨r, hmem, hholds, heq⟩ | heq
  · have hform := List.all_eq_true.1 hspecial _ hmem
    rw [settlesForm, Bool.or_eq_true, List.any_eq_true] at hform
    rw [heq]
    rcases hform with ⟨n, hn, hfar⟩ | hknown
    · exact .inr ⟨_, List.mem_map_of_mem hn, le_toNat_ofNat_of_isFar hfar⟩
    · rw [List.contains_iff_mem, Char.ofNat_toNat] at hknown
      exact .inl hknown
  · have hrun := List.all_eq_true.1 hruns r hmem
    simp only [CaseRun.holds, Bool.and_eq_true, decide_eq_true_eq] at hholds
    simp only [settlesRun, Bool.or_eq_true, Bool.and_eq_true, decide_eq_true_eq] at hrun
    rw [heq]
    rcases hrun with (hascii | ⟨⟨⟨hpos, hlow⟩, hhigh⟩, hside⟩) | ⟨hsingle, hknown⟩
    · omega
    -- the place lies between those of the ends of the run, and these are on one side of the gap
    · refine .inr ⟨_, List.mem_singleton_self _, le_toNat_ofNat_of_isFar ?_⟩
      simp only [isFar, Bool.and_eq_true, Bool.or_eq_true, decide_eq_true_eq] at hlow hhigh ⊢
      omega
    · have hfirst : r.first = c.toNat := by omega
      rw [List.contains_iff_mem, hfirst, Char.ofNat_toNat] at hknown
      exact .inl hknown
  · exact .inr ⟨c, by rw [heq]; exact List.mem_singleton_self c, hc⟩

/-! ## The two mappings -/

/-- The characters outside ASCII that lower to ASCII: the kelvin sign. -/
def lowerOthers : List (Text × Char) := [(['k'], '\u212a')]

/-- The characters outside ASCII that raise to ASCII: the long s, the dotless i, the sharp s, and
    the ligatures of f and of s with other letters. -/
def upperOthers : List (Text × Char) := [
  (['S'], '\u017f'), (['I'], '\u0131'), (['S', 'S'], '\u00df'), (['F', 'F'], '\ufb00'),
  (['F', 'I'], '\ufb01'), (['F', 'L'], '\ufb02'), (['F', 'F', 'I'], '\ufb03'),
  (['F', 'F', 'L'], '\ufb04'), (['S', 'T'], '\ufb05'), (['S', 'T'], '\ufb06')]

theorem isMapping_lower : IsMapping lowerChar Char.toLower lowerOthers where
  fold_eq := .inl rfl
  ascii _ hc := forall_ascii (P := fun c => lowerChar c = [c.toLower]) (by decide +kernel) hc
  other := by decide +kernel
  far _ hc := mapCase_far (by decide +kernel) (by decide +kernel) hc

theorem isMapping_upper : IsMapping upperChar Char.toUpper upperOthers where
  fold_eq := .inr rfl
  ascii _ hc := forall_ascii (P := fun c => upperChar c = [c.toUpper]) (by decide +kernel) hc
  other := by decide +kernel
  far _ hc := mapCase_far (by decide +kernel) (by decide +kernel) hc

/-- The texts that lower to a word are its spellings. -/
theorem lower_eq_iff (hword : IsFolded Char.toLower word) :
    lower s = word ↔ Spells lowerOthers word s :=
  isMapping_lower.flatMap_eq_iff hword

/-- The texts that raise to a word are its spellings. -/
theorem upper_eq_iff (hword : IsFolded Char.toUpper word) :
    upper s = word ↔ Spells upperOthers word s :=
  isMapping_upper.flatMap_eq_iff hword

end Tracewright.Text
