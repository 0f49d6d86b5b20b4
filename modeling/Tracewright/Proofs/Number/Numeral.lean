/-
  Tracewright.Proofs.Number.Numeral

  The ways an integer may be spelled, as a grammar, and the one way it is
  written.

    * `Spells`            — blanks, a sign, digits of any script with single
                            underscores between them, blanks.
    * `read?_eq_some_iff` — what is read is what is spelled.
    * `IsCanonical`       — ASCII digits without a leading nought.
    * `isCanonical_iff`   — how an integer is written.
-/
import Mathlib.Data.List.DropRight
import Tracewright.Number.Numeral

namespace Tracewright.Numeral

open Text (digitValue? digitZeros)

/-! ## The grammar -/

/-- Digits of any script that have these values, one underscore at most between two of them. -/
inductive SpellsDigits : List Nat → Text → Prop
  | last {d : Nat} {c : Char} (hc : digitValue? c = some d) : SpellsDigits [d] [c]
  | next {d : Nat} {c : Char} {ds : List Nat} {t : Text} (hc : digitValue? c = some d)
      (ht : SpellsDigits ds t) : SpellsDigits (d :: ds) (c :: t)
  | gap {d : Nat} {c : Char} {ds : List Nat} {t : Text} (hc : digitValue? c = some d)
      (ht : SpellsDigits ds t) : SpellsDigits (d :: ds) (c :: '_' :: t)

/-- A sign, which may be left out before a number that is not negative. -/
inductive SpellsSign (magnitude : Nat) : Int → Text → Prop
  | none : SpellsSign magnitude magnitude []
  | plus : SpellsSign magnitude magnitude ['+']
  | minus : SpellsSign magnitude (-magnitude) ['-']

/-- A text spells an integer: blanks, a sign, at most as many digits as are read, and blanks.
    Leading noughts are digits like others. -/
inductive Spells (n : Int) : Text → Prop
  | spaced {left sign digits right : Text} {ds : List Nat}
      (hleft : ∀ c ∈ left, isMargin c = true) (hright : ∀ c ∈ right, isMargin c = true)
      (hsign : SpellsSign (ofDigits ds) n sign) (hdigits : SpellsDigits ds digits)
      (hlength : ds.length ≤ digitLimit) : Spells n (left ++ (sign ++ digits) ++ right)

/-! ## Digits -/

variable {c : Char} {d : Nat} {ds : List Nat} {t : Text} {n : Int}

/-- The digits of each script, one after the other. -/
theorem exists_digitZeros (h : digitValue? c = some d) :
    ∃ nought ∈ digitZeros, ∃ k < 10, c = Char.ofNat (nought + k) := by
  simp only [digitValue?, Option.map_eq_some_iff] at h
  obtain ⟨nought, hnought, -⟩ := h
  have hrange := List.find?_some hnought
  simp only [Bool.and_eq_true, decide_eq_true_eq] at hrange
  refine ⟨nought, List.mem_of_find?_eq_some hnought, c.toNat - nought, by omega, ?_⟩
  rw [Nat.add_sub_cancel' hrange.1, Char.ofNat_toNat]

/-- No digit is a blank. -/
theorem isMargin_of_digitValue? (h : digitValue? c = some d) : isMargin c = false := by
  have htable : ∀ nought ∈ digitZeros, ∀ k < 10, isMargin (Char.ofNat (nought + k)) = false := by
    decide +kernel
  obtain ⟨nought, hnought, k, hk, rfl⟩ := exists_digitZeros h
  exact htable nought hnought k hk

theorem digitValue?_underscore : digitValue? '_' = none := by decide

theorem ne_underscore_of_digitValue? (h : digitValue? c = some d) : c ≠ '_' := by
  rintro rfl
  rw [digitValue?_underscore] at h
  cases h

theorem digitValues?_digit (after : Bool) (h : digitValue? c = some d) (t : Text) :
    digitValues? after (c :: t) = (digitValues? true t).map (d :: ·) := by
  rw [digitValues?, if_neg (ne_underscore_of_digitValue? h), h]

theorem digitValues?_of_spellsDigits (h : SpellsDigits ds t) (after : Bool) :
    digitValues? after t = some ds := by
  induction h generalizing after with
  | last hc => rw [digitValues?_digit after hc]; rfl
  | next hc _ ih => rw [digitValues?_digit after hc, ih true]; rfl
  | gap hc _ ih =>
    have hgap : ∀ u, digitValues? true ('_' :: u) = digitValues? false u := fun u => rfl
    rw [digitValues?_digit after hc, hgap, ih false]
    rfl

/-- What the values were read from, with or without a digit just before: behind a digit there may
    be nothing, or an underscore and digits. -/
theorem spellsDigits_of_digitValues? {after : Bool} (h : digitValues? after t = some ds) :
    SpellsDigits ds t ∨ after = true ∧
      ((ds = [] ∧ t = []) ∨ ∃ u, t = '_' :: u ∧ SpellsDigits ds u) := by
  induction t generalizing after ds with
  | nil =>
    rw [digitValues?] at h
    split_ifs at h with hafter
    cases h
    exact .inr ⟨hafter, .inl ⟨rfl, rfl⟩⟩
  | cons c t ih =>
    cases hc : digitValue? c with
    | some d =>
      rw [digitValues?_digit after hc, Option.map_eq_some_iff] at h
      obtain ⟨ds, hds, rfl⟩ := h
      rcases ih hds with ht | ⟨-, ⟨rfl, rfl⟩ | ⟨u, rfl, hu⟩⟩
      · exact .inl (.next hc ht)
      · exact .inl (.last hc)
      · exact .inl (.gap hc hu)
    | none =>
      rw [digitValues?, hc] at h
      split_ifs at h with hunderscore hafter
      -- an underscore has digits behind it, since none stands just before them
      subst hunderscore
      rcases ih h with ht | ⟨hfalse, -⟩
      · exact .inr ⟨hafter, .inr ⟨t, rfl, ht⟩⟩
      · exact Bool.noConfusion hfalse

theorem digitValues?_eq_some_iff : digitValues? false t = some ds ↔ SpellsDigits ds t := by
  constructor
  · intro h
    exact (spellsDigits_of_digitValues? h).resolve_right fun hafter => Bool.noConfusion hafter.1
  · intro h
    exact digitValues?_of_spellsDigits h false

theorem readUnsigned?_eq_some_iff {m : Nat} :
    readUnsigned? t = some m ↔
      ∃ ds, SpellsDigits ds t ∧ ds.length ≤ digitLimit ∧ m = ofDigits ds := by
  rw [readUnsigned?]
  cases hds : digitValues? false t with
  | none =>
    refine ⟨nofun, fun ⟨ds, ht, _⟩ => ?_⟩
    rw [digitValues?_eq_some_iff.2 ht] at hds
    cases hds
  | some ds =>
    have hspells : ∀ ds', SpellsDigits ds' t → ds' = ds := fun ds' ht =>
      Option.some_inj.1 ((digitValues?_eq_some_iff.2 ht).symm.trans hds)
    constructor
    · intro h
      rw [Option.ite_none_right_eq_some, Option.some_inj] at h
      exact ⟨ds, digitValues?_eq_some_iff.1 hds, h.1, h.2.symm⟩
    · rintro ⟨ds', ht, hlength, rfl⟩
      obtain rfl := hspells ds' ht
      exact if_pos hlength

/-- Digits begin and end with one. -/
theorem SpellsDigits.exists_cons (h : SpellsDigits ds t) :
    ∃ c u d, t = c :: u ∧ digitValue? c = some d := by
  cases h with
  | last hc => exact ⟨_, _, _, rfl, hc⟩
  | next hc _ => exact ⟨_, _, _, rfl, hc⟩
  | gap hc _ => exact ⟨_, _, _, rfl, hc⟩

theorem SpellsDigits.exists_concat (h : SpellsDigits ds t) :
    ∃ u c d, t = u ++ [c] ∧ digitValue? c = some d := by
  induction h with
  | last hc => exact ⟨[], _, _, rfl, hc⟩
  | next _ _ ih =>
    obtain ⟨u, c, d, rfl, hc⟩ := ih
    exact ⟨_ :: u, c, d, rfl, hc⟩
  | gap _ _ ih =>
    obtain ⟨u, c, d, rfl, hc⟩ := ih
    exact ⟨_ :: '_' :: u, c, d, rfl, hc⟩

/-! ## Blanks -/

/-- The blanks that are stripped. -/
theorem stripMargins_eq (t : Text) :
    stripMargins t = (t.dropWhile isMargin).rdropWhile isMargin := rfl

theorem exists_margins (t : Text) :
    ∃ left right, t = left ++ stripMargins t ++ right ∧
      (∀ c ∈ left, isMargin c = true) ∧ ∀ c ∈ right, isMargin c = true := by
  refine ⟨t.takeWhile isMargin, (t.dropWhile isMargin).rtakeWhile isMargin, ?_,
    fun c => List.mem_takeWhile_imp, fun c => List.mem_rtakeWhile_imp⟩
  rw [stripMargins_eq, List.append_assoc, List.rdropWhile_append_rtakeWhile,
    List.takeWhile_append_dropWhile]

theorem dropWhile_isMargin {margins : Text} (hmargins : ∀ c ∈ margins, isMargin c = true)
    (hc : isMargin c = false) (t : Text) :
    (margins ++ c :: t).dropWhile isMargin = c :: t := by
  rw [List.dropWhile_append_of_pos hmargins,
    List.dropWhile_cons_of_neg (by rw [hc]; exact Bool.false_ne_true)]

/-- What stands between blanks, and neither begins nor ends with one, is what is left. -/
theorem stripMargins_append {left right t u : Text} {first last : Char}
    (hleft : ∀ c ∈ left, isMargin c = true) (hright : ∀ c ∈ right, isMargin c = true)
    (hfirst : isMargin first = false) (hlast : isMargin last = false)
    (hends : first :: t = u ++ [last]) :
    stripMargins (left ++ first :: t ++ right) = first :: t := by
  have hrev : (first :: t ++ right).reverse = right.reverse ++ last :: u.reverse := by
    rw [hends, List.reverse_append, List.reverse_append, List.reverse_singleton,
      List.singleton_append]
  rw [stripMargins, List.append_assoc, List.cons_append, dropWhile_isMargin hleft hfirst,
    ← List.cons_append, hrev,
    dropWhile_isMargin (fun c hc => hright c (List.mem_reverse.1 hc)) hlast, ← List.reverse_concat,
    List.reverse_reverse, hends]

/-! ## Reading -/

theorem SpellsSign.cases_sign {magnitude : Nat} {sign : Text} (h : SpellsSign magnitude n sign) :
    sign = [] ∨ ∃ c, sign = [c] ∧ isMargin c = false := by
  cases h with
  | none => exact .inl rfl
  | plus => exact .inr ⟨'+', rfl, by decide⟩
  | minus => exact .inr ⟨'-', rfl, by decide⟩

/-- The blanks around a numeral are those that are stripped. -/
theorem stripMargins_numeral {left sign digits right : Text} {magnitude : Nat}
    (hleft : ∀ c ∈ left, isMargin c = true) (hright : ∀ c ∈ right, isMargin c = true)
    (hsign : SpellsSign magnitude n sign) (hdigits : SpellsDigits ds digits) :
    stripMargins (left ++ (sign ++ digits) ++ right) = sign ++ digits := by
  obtain ⟨c, t, d, hcons, hc⟩ := hdigits.exists_cons
  obtain ⟨u, last, d', hconcat, hlast⟩ := hdigits.exists_concat
  have hc := isMargin_of_digitValue? hc
  have hlast := isMargin_of_digitValue? hlast
  rcases hsign.cases_sign with rfl | ⟨s, rfl, hs⟩
  · rw [List.nil_append, hcons]
    exact stripMargins_append hleft hright hc hlast (hcons.symm.trans hconcat)
  · refine stripMargins_append (u := s :: u) hleft hright hs hlast ?_
    show s :: digits = s :: u ++ [last]
    rw [hconcat, List.cons_append]

/-- No digit is a sign. -/
theorem ne_sign_of_digitValue? (hc : digitValue? c = some d) : c ≠ '-' ∧ c ≠ '+' := by
  have hminus : digitValue? '-' = none := by decide
  have hplus : digitValue? '+' = none := by decide
  constructor
  · rintro rfl
    rw [hminus] at hc
    cases hc
  · rintro rfl
    rw [hplus] at hc
    cases hc

/-- The number behind a sign is read without one. -/
theorem map_readUnsigned? (t : Text) (f : Int → Int) :
    (do let m ← readUnsigned? t; pure (m : Int) : Option Int).map f =
      (readUnsigned? t).map fun m : Nat => f m := by
  cases readUnsigned? t <;> rfl

theorem read?_of_spells (h : Spells n t) : read? t = some n := by
  cases h with
  | @spaced left sign digits right ds hleft hright hsign hdigits hlength
  have hread : ∀ f : Int → Int, (do let m ← readUnsigned? digits; pure (m : Int) : Option Int).map f
      = some (f (ofDigits ds)) := by
    intro f
    rw [map_readUnsigned?, readUnsigned?_eq_some_iff.2 ⟨ds, hdigits, hlength, rfl⟩, Option.map_some]
  rw [read?, stripMargins_numeral hleft hright hsign hdigits]
  cases hsign with
  | none =>
    obtain ⟨c, u, d, rfl, hc⟩ := hdigits.exists_cons
    rw [List.nil_append]
    split
    · next hcons => exact absurd (List.cons.inj hcons).1 (ne_sign_of_digitValue? hc).1
    · next hcons => exact absurd (List.cons.inj hcons).1 (ne_sign_of_digitValue? hc).2
    · exact hread _
  | plus => exact hread _
  | minus => exact hread _

theorem spells_of_read? (h : read? t = some n) : Spells n t := by
  obtain ⟨left, right, hmargins, hleft, hright⟩ := exists_margins t
  -- a sign, in front of what is read as the number that it is the sign of
  have hspells : ∀ sign digits, stripMargins t = sign ++ digits →
      ∀ f : Int → Int, (∀ m : Nat, SpellsSign m (f m) sign) →
      (do let m ← readUnsigned? digits; pure (m : Int) : Option Int).map f = some n →
      Spells n t := by
    intro sign digits hstrip f hsign hread
    rw [map_readUnsigned?] at hread
    obtain ⟨m, hm, rfl⟩ := Option.map_eq_some_iff.1 hread
    obtain ⟨ds, hdigits, hlength, rfl⟩ := readUnsigned?_eq_some_iff.1 hm
    rw [hmargins, hstrip]
    exact .spaced hleft hright (hsign _) hdigits hlength
  rw [read?] at h
  split at h
  · next hstrip => exact hspells ['-'] _ hstrip _ (fun _ => .minus) h
  · next hstrip => exact hspells ['+'] _ hstrip _ (fun _ => .plus) h
  · exact hspells [] _ rfl _ (fun _ => .none) h

/-- What is read is what is spelled. -/
theorem read?_eq_some_iff : read? t = some n ↔ Spells n t :=
  ⟨spells_of_read?, read?_of_spells⟩

/-! ## Writing -/

/-- The one numeral of a number without a sign: ASCII digits, and no leading nought. -/
structure IsCanonical (n : Nat) (t : Text) : Prop where
  ne_nil : t ≠ []
  isDigit : ∀ c ∈ t, c.isDigit = true
  head : t.head? = some '0' → t = ['0']
  value : ofDigits (t.map fun c => c.toNat - 0x30) = n

theorem head?_toDigits (n : Nat) (h : (Nat.toDigits 10 n).head? = some '0') : n = 0 := by
  induction n using Nat.strongRecOn with
  | ind n ih =>
    by_cases hn : n < 10
    · have hdigit : ∀ m < 10, m.digitChar = '0' → m = 0 := by decide
      rw [Nat.toDigits_of_lt_base hn, List.head?_cons, Option.some_inj] at h
      exact hdigit n hn h
    -- the leading digit is that of the number without its last digit
    · rw [Nat.toDigits_of_base_le (by decide) (by omega), List.head?_append_of_ne_nil _
        Nat.toDigits_ne_nil] at h
      have hzero := ih (n / 10) (by omega) h
      omega

theorem isCanonical_toDigits (n : Nat) : IsCanonical n (Nat.toDigits 10 n) where
  ne_nil := Nat.toDigits_ne_nil
  isDigit _ := Nat.isDigit_of_mem_toDigits (by decide) (by decide)
  head h := by
    rw [head?_toDigits n h]
    rfl
  value := by
    have hvalue : Nat.ofDigitChars 10 (Nat.toDigits 10 n) 0 = n :=
      Nat.ofDigitChars_toDigits (by decide) (by decide)
    rw [ofDigits, List.foldl_map]
    exact hvalue

theorem ofDigits_concat (ds : List Nat) (d : Nat) :
    ofDigits (ds ++ [d]) = 10 * ofDigits ds + d := by
  rw [ofDigits, ofDigits, List.foldl_append, List.foldl_cons, List.foldl_nil]

theorem digitChar_of_isDigit (hc : c.isDigit = true) :
    c.toNat - 0x30 < 10 ∧ (c.toNat - 0x30).digitChar = c := by
  have hrange : 48 ≤ c.toNat ∧ c.toNat ≤ 57 := Char.isDigit_iff_toNat.1 hc
  have hdigit : ∀ d < 10, d.digitChar = Char.ofNat (0x30 + d) := by decide
  have hlt : c.toNat - 0x30 < 10 := by omega
  refine ⟨hlt, ?_⟩
  rw [hdigit _ hlt, Nat.add_sub_cancel' hrange.1, Char.ofNat_toNat]

theorem IsCanonical.eq_toDigits {n : Nat} (h : IsCanonical n t) : t = Nat.toDigits 10 n := by
  obtain ⟨hne, hdigit, hhead, rfl⟩ := h
  induction t using List.reverseRecOn with
  | nil => exact absurd rfl hne
  | append_singleton u c ih =>
    have hc : c.isDigit = true := hdigit c (List.mem_append_right u List.mem_cons_self)
    obtain ⟨hlt, hchar⟩ := digitChar_of_isDigit hc
    rw [List.map_append, List.map_singleton, ofDigits_concat]
    by_cases hu : u = []
    · subst hu
      rw [List.map_nil, ofDigits, List.foldl_nil, Nat.mul_zero, Nat.zero_add,
        Nat.toDigits_of_lt_base hlt, hchar, List.nil_append]
    -- the digits before the last one do not begin with a nought either, so they are not nought
    · have hhead : u.head? ≠ some '0' := by
        intro hnought
        have hsingle := hhead (by rw [List.head?_append_of_ne_nil _ hu, hnought])
        have hlength := congrArg List.length hsingle
        rw [List.length_append, List.length_singleton, List.length_singleton] at hlength
        exact hu (List.eq_nil_of_length_eq_zero (by omega))
      have hread := ih hu (fun x hx => hdigit x (List.mem_append_left _ hx)) fun h => absurd h hhead
      have hpos : 0 < ofDigits (u.map fun c => c.toNat - 0x30) := by
        rw [Nat.pos_iff_ne_zero]
        intro hzero
        rw [hzero] at hread
        exact hhead (by rw [hread]; rfl)
      rw [← Nat.toDigits_append_toDigits (by decide) hpos hlt, ← hread,
        Nat.toDigits_of_lt_base hlt, hchar]

/-- The canonical numeral is the one that is written: a number that is not negative has no sign. -/
theorem isCanonical_iff {n : Nat} : IsCanonical n t ↔ t = decimal n := by
  constructor
  · exact IsCanonical.eq_toDigits
  · rintro rfl
    exact isCanonical_toDigits n

end Tracewright.Numeral
