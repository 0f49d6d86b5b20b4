/-
  Tracewright.Proofs.Fragment.Layout

  Filling in all markers of a fragment at once.  A fragment is read once,
  from left to right, as characters and places of markers; what is put in a
  place is never read again.

    * `Layout.ofText`      — the reading of a text.
    * `Layout.write`       — the text with a value in every place.
    * `fill`               — both: every marker is filled in, at once.
    * `Layout.isTight`     — no place of a word can arise but inside a value:
                             the characters around the values forbid it.

  On a tight layout the searches for one word after the other amount to the
  same: `replaceAll_write` replaces inside the values, `hasWord_write` looks
  into the values, and `cut?_write` finds the first value with the word.
-/
import Mathlib.Logic.Function.Basic
import Tracewright.Fragment.Marker
import Tracewright.Proofs.Text.Seam

namespace Tracewright

/-! ## Reading and writing -/

/-- A part of a fragment that cannot be divided. -/
inductive Piece where
  | char (c : Char)
  | place (m : Marker)
  deriving DecidableEq, Repr

/-- A fragment as characters and places. -/
abbrev Layout := List Piece

namespace Marker

/-- The marker whose word the text starts with. -/
def at? (t : Text) : Option Marker := all.find? fun m => m.word.isPrefixOf t

theorem prefix_of_at? {t : Text} {m : Marker} (h : at? t = some m) : m.word <+: t := by
  have hp := List.find?_some h
  exact List.isPrefixOf_iff_prefix.1 hp

theorem word_ne_nil (m : Marker) : m.word ≠ [] := by
  have h : ∀ m ∈ all, m.word ≠ [] := by decide
  exact h m (mem_all m)

/-- No word of a marker is part of the word of another one. -/
theorem hasWord_word (m m' : Marker) : Text.hasWord m.word m'.word = decide (m = m') := by
  have h : ∀ m ∈ all, ∀ m' ∈ all, Text.hasWord m.word m'.word = decide (m = m') := by decide
  exact h m (mem_all m) m' (mem_all m')

end Marker

/-- The piece with a value in its place. -/
def Piece.write (value : Marker → Text) : Piece → Text
  | .char c => [c]
  | .place m => value m

namespace Layout

/-- Reads pieces: `skip` characters still belong to the last place found. -/
def ofTextLoop (skip : Nat) : Text → Layout
  | [] => []
  | c :: rest =>
    match skip with
    | k + 1 => ofTextLoop k rest
    | 0 =>
      match Marker.at? (c :: rest) with
      | some m => .place m :: ofTextLoop (m.word.length - 1) rest
      | none => .char c :: ofTextLoop 0 rest

def ofText (t : Text) : Layout := ofTextLoop 0 t

/-- The text with a value in every place. -/
def write (value : Marker → Text) (ps : Layout) : Text := ps.flatMap (Piece.write value)

/-- The markers that have a place, in order. -/
def places : Layout → List Marker
  | [] => []
  | .char _ :: ps => places ps
  | .place m :: ps => m :: places ps

end Layout

/-- Fills in every marker at once. -/
def fill (value : Marker → Text) (t : Text) : Text := (Layout.ofText t).write value

namespace Layout

variable {t s : Text} {value value' : Marker → Text} {ps qs : Layout} {m : Marker}

/-! ## What a reading is made of -/

@[simp] theorem write_char (c : Char) : write value (.char c :: ps) = c :: write value ps := rfl

@[simp] theorem write_place : write value (.place m :: ps) = value m ++ write value ps := rfl

@[simp] theorem write_append :
    write value (ps ++ qs) = write value ps ++ write value qs := List.flatMap_append

@[simp] theorem places_append (ps qs : Layout) : places (ps ++ qs) = places ps ++ places qs := by
  induction ps with
  | nil => rfl
  | cons p ps ih => cases p <;> simp [places, ih]

/-- Only the values of markers that have a place matter. -/
theorem write_congr (h : ∀ m ∈ places ps, value m = value' m) :
    write value ps = write value' ps := by
  induction ps with
  | nil => rfl
  | cons p ps ih =>
    cases p with
    | char c => rw [write_char, write_char, ih h]
    | place m =>
      rw [write_place, write_place, h m List.mem_cons_self,
        ih fun m' hm' => h m' (List.mem_cons_of_mem m hm')]

/-- The value of a marker that has no place does not matter. -/
theorem write_update_of_not_mem (value : Marker → Text) (r : Text) (h : m ∉ places ps) :
    write (Function.update value m r) ps = write value ps := by
  refine write_congr fun m' hm' => ?_
  have hne : m' ≠ m := fun e => h (e ▸ hm')
  rw [Function.update_of_ne hne]

/-- The characters of a place are passed over. -/
theorem ofTextLoop_skip (k : Nat) (t : Text) : ofTextLoop k t = ofTextLoop 0 (t.drop k) := by
  induction t generalizing k with
  | nil => simp [ofTextLoop]
  | cons c t ih =>
    match k with
    | 0 => rfl
    | k + 1 => simp only [ofTextLoop, List.drop_succ_cons]; exact ih k

/-- A reading loses nothing: with its word in every place it is the text again. -/
theorem write_word_ofText (t : Text) : write Marker.word (ofText t) = t := by
  match t with
  | [] => rfl
  | c :: t =>
    rw [ofText, ofTextLoop]
    split
    · next m hm =>
      have hp : m.word <+: c :: t := Marker.prefix_of_at? hm
      have hpos : 0 < m.word.length := List.length_pos_iff.2 m.word_ne_nil
      -- the loop has passed the first character of the word, and skips the others
      have hdrop : t.drop (m.word.length - 1) = (c :: t).drop m.word.length := by
        rw [← List.drop_succ_cons (a := c), Nat.sub_add_cancel hpos]
      have ih := write_word_ofText (t.drop (m.word.length - 1))
      rw [write_place, ofTextLoop_skip, ← ofText, ih, hdrop, List.prefix_append_drop hp |>.symm]
    · rw [write_char, ← ofText, write_word_ofText t]
termination_by t.length
decreasing_by
  all_goals simp only [List.length_drop, List.length_cons]; omega

/-! ## Tightness -/

/-- A text that is written by the layout may start with the word, whatever the values and
    whatever stands behind. -/
def mayStart : Text → Layout → Bool
  | [], _ => true
  | _ :: _, [] => true
  | _ :: _, .place _ :: _ => true
  | c :: t, .char d :: ps => c == d && mayStart t ps

/-- The proper ends of a word. -/
def ends (t : Text) : List Text := t.tail.tails.filter (!·.isEmpty)

/-- No place of the word can arise but inside a value: none starts with a character of the
    layout, and none that starts in a value ends behind it. -/
def isTight (t : Text) : Layout → Bool
  | [] => true
  | .char c :: ps => !mayStart t (.char c :: ps) && isTight t ps
  | .place _ :: ps => (ends t).all (fun v => !mayStart v ps) && isTight t ps

theorem mayStart_of_starts (h : t <+: write value ps ++ s) : mayStart t ps = true := by
  induction ps generalizing t with
  | nil => cases t <;> rfl
  | cons p ps ih =>
    -- only a character can speak against the word; of a value nothing is known
    match t, p with
    | [], _ => rfl
    | _ :: _, .place _ => rfl
    | c :: t, .char d =>
      rw [write_char, List.cons_append, List.cons_prefix_cons] at h
      rw [mayStart, ih h.2, h.1, beq_self_eq_true, Bool.and_self]

/-- What a tight layout writes behind a value bars the word. -/
theorem bars_of_ends (h : (ends t).all (fun v => !mayStart v ps) = true) :
    Text.Bars t (write value ps ++ s) := by
  rintro u v rfl hu hv hstarts
  -- the part of the word behind the seam is one of its proper ends
  have hmem : v ∈ ends (u ++ v) := by
    obtain ⟨c, u, rfl⟩ := List.exists_cons_of_ne_nil hu
    simp [ends, hv]
  have hstart := List.all_eq_true.1 h v hmem
  rw [mayStart_of_starts hstarts] at hstart
  exact Bool.false_ne_true hstart

/-- On a tight layout no place of the word starts with a character. -/
theorem isPrefixOf_char {c : Char} (h : isTight t (.char c :: ps) = true)
    (value : Marker → Text) (s : Text) :
    t.isPrefixOf (c :: (write value ps ++ s)) = false := by
  rw [isTight, Bool.and_eq_true, Bool.not_eq_true'] at h
  rw [Bool.eq_false_iff]
  intro hp
  have hp : t <+: write value (.char c :: ps) ++ s := List.isPrefixOf_iff_prefix.1 hp
  rw [mayStart_of_starts hp] at h
  exact Bool.noConfusion h.1

/-- On a tight layout no place of the word reaches out of a value. -/
theorem bars_place (h : isTight t (.place m :: ps) = true) (value : Marker → Text) (s : Text) :
    Text.Bars t (write value ps ++ s) := by
  rw [isTight, Bool.and_eq_true] at h
  exact bars_of_ends h.1

theorem isTight_tail {p : Piece} (h : isTight t (p :: ps) = true) : isTight t ps = true := by
  cases p <;> rw [isTight, Bool.and_eq_true] at h <;> exact h.2

/-! ## Searches on tight layouts -/

/-- Replacing a word replaces it in the values. -/
theorem replaceAll_write (ht : t ≠ []) (r : Text) (value : Marker → Text)
    (h : isTight t ps = true) (s : Text) :
    Text.replaceAll t r (write value ps ++ s) =
      write (fun m => Text.replaceAll t r (value m)) ps ++ Text.replaceAll t r s := by
  induction ps with
  | nil => rfl
  | cons p ps ih =>
    have ih := ih (isTight_tail h)
    cases p with
    | char c =>
      have hstart := isPrefixOf_char h value s
      rw [write_char, List.cons_append, Text.replaceAll_cons ht, hstart, ih]
      rfl
    -- the layout behind the value bars the word, so the value is searched on its own
    | place m =>
      rw [write_place, List.append_assoc, Text.replaceAll_append ht (bars_place h value s), ih,
        write_place, List.append_assoc]

/-- A text has a place of a word iff a value has one or the text behind. -/
theorem hasWord_write (ht : t ≠ []) (value : Marker → Text) (h : isTight t ps = true)
    (s : Text) :
    Text.hasWord t (write value ps ++ s) =
      ((places ps).any (fun m => Text.hasWord t (value m)) || Text.hasWord t s) := by
  induction ps with
  | nil => rfl
  | cons p ps ih =>
    have ih := ih (isTight_tail h)
    cases p with
    | char c =>
      have hstart := isPrefixOf_char h value s
      rw [write_char, List.cons_append, Text.hasWord_cons, hstart, Bool.false_or, ih]
      rfl
    | place m =>
      rw [write_place, List.append_assoc, Text.hasWord_append ht (bars_place h value s), ih,
        places, List.any_cons, Bool.or_assoc]

/-- The first place of a word is in the first value that has one. -/
theorem cut?_write (ht : t ≠ []) {b e : Text} (h : isTight t (ps ++ .place m :: qs) = true)
    (hm : Text.cut? t (value m) = some (b, e))
    (hps : ∀ m' ∈ places ps, Text.hasWord t (value m') = false) (s : Text) :
    Text.cut? t (write value (ps ++ .place m :: qs) ++ s) =
      some (write value ps ++ b, e ++ (write value qs ++ s)) := by
  induction ps with
  | nil =>
    rw [List.nil_append, write_place, List.append_assoc, Text.cut?_append_left ht hm]
    rfl
  | cons p ps ih =>
    rw [List.cons_append] at h
    cases p with
    | char c =>
      have ih := ih (isTight_tail h) hps
      have hstart := isPrefixOf_char h value s
      rw [List.cons_append, write_char, List.cons_append, Text.cut?_cons, hstart, ih]
      rfl
    | place m' =>
      have ih := ih (isTight_tail h) fun m₁ h₁ => hps m₁ (List.mem_cons_of_mem m' h₁)
      have hm' := hps m' List.mem_cons_self
      rw [List.cons_append, write_place, List.append_assoc,
        Text.cut?_append (bars_place h value s) hm', ih, Option.map_some, write_place,
        List.append_assoc]

/-! ## Filling in one marker after the other -/

/-- The one place of a marker that has a single one. -/
theorem exists_place_of_count (h : (places ps).count m = 1) :
    ∃ ps₁ ps₂ : Layout, ps = ps₁ ++ .place m :: ps₂ ∧ m ∉ places ps₁ ∧ m ∉ places ps₂ := by
  induction ps with
  | nil => rw [places, List.count_nil] at h; omega
  | cons p ps ih =>
    cases p with
    | char c =>
      obtain ⟨ps₁, ps₂, rfl, h₁, h₂⟩ := ih h
      exact ⟨.char c :: ps₁, ps₂, rfl, h₁, h₂⟩
    | place m' =>
      by_cases hm : m' = m
      · subst hm
        rw [places, List.count_cons_self] at h
        exact ⟨[], ps, rfl, List.not_mem_nil, List.count_eq_zero.1 (by omega)⟩
      · rw [places, List.count_cons_of_ne hm] at h
        obtain ⟨ps₁, ps₂, rfl, h₁, h₂⟩ := ih h
        refine ⟨.place m' :: ps₁, ps₂, rfl, ?_, h₂⟩
        rw [places, List.mem_cons, not_or]
        exact ⟨fun e => hm e.symm, h₁⟩

/-- Putting a text in the first place of a marker that has a single one. -/
theorem replaceFirst?_write (value : Marker → Text) (h : isTight m.word ps = true)
    (hm : value m = m.word) (hcount : (places ps).count m = 1)
    (hother : ∀ m' ∈ places ps, m' ≠ m → Text.hasWord m.word (value m') = false) (r : Text) :
    Text.replaceFirst? m.word r (write value ps) = some (write (Function.update value m r) ps) := by
  -- the place parts the layout; in front of it no value has the word
  obtain ⟨ps₁, ps₂, rfl, h₁, h₂⟩ := exists_place_of_count hcount
  have hcut : Text.cut? m.word (value m) = some ([], []) := by
    rw [hm]
    simpa using Text.cut?_word_append m.word_ne_nil []
  have hps : ∀ m' ∈ places ps₁, Text.hasWord m.word (value m') = false := by
    intro m' hm'
    refine hother m' ?_ fun e => h₁ (e ▸ hm')
    rw [places_append]
    exact List.mem_append_left _ hm'
  have hwrite := cut?_write m.word_ne_nil h hcut hps []
  -- the two parts do not have the marker, and are written as before
  rw [Text.replaceFirst?, ← List.append_nil (write value _), hwrite, write_append, write_place,
    write_update_of_not_mem value r h₁, write_update_of_not_mem value r h₂, Function.update_self]
  simp

end Layout

/-! ## Fragments -/

/-- The places of the markers in a fragment, in order. -/
def places (x : Text) : List Marker := (Layout.ofText x).places

/-- No marker can arise in the fragment but inside a value. -/
def IsTight (x : Text) : Prop := ∀ m : Marker, (Layout.ofText x).isTight m.word = true

section Fill

variable {x : Text} {value value' : Marker → Text} {m : Marker}

theorem fill_word (x : Text) : fill Marker.word x = x := Layout.write_word_ofText x

theorem fill_congr (h : ∀ m ∈ places x, value m = value' m) : fill value x = fill value' x :=
  Layout.write_congr h

theorem replaceAll_fill_append (hx : IsTight x) (m : Marker) (r : Text) (value : Marker → Text)
    (s : Text) :
    Text.replaceAll m.word r (fill value x ++ s) =
      fill (fun m' => Text.replaceAll m.word r (value m')) x ++ Text.replaceAll m.word r s :=
  Layout.replaceAll_write m.word_ne_nil r value (hx m) s

theorem replaceAll_fill (hx : IsTight x) (m : Marker) (r : Text) (value : Marker → Text) :
    Text.replaceAll m.word r (fill value x) =
      fill (fun m' => Text.replaceAll m.word r (value m')) x := by
  have h := replaceAll_fill_append hx m r value []
  rwa [List.append_nil, Text.replaceAll_nil m.word_ne_nil, List.append_nil] at h

theorem hasWord_fill_append (hx : IsTight x) (m : Marker) (value : Marker → Text) (s : Text) :
    Text.hasWord m.word (fill value x ++ s) =
      ((places x).any (fun m' => Text.hasWord m.word (value m')) || Text.hasWord m.word s) :=
  Layout.hasWord_write m.word_ne_nil value (hx m) s

theorem hasWord_fill (hx : IsTight x) (m : Marker) (value : Marker → Text) :
    Text.hasWord m.word (fill value x) =
      (places x).any fun m' => Text.hasWord m.word (value m') := by
  have h := hasWord_fill_append hx m value []
  rwa [List.append_nil, Text.hasWord_nil m.word_ne_nil, Bool.or_false] at h

/-- Replacing the word of a marker that stands for itself fills the marker in; the other
    values stay if they do not have the word. -/
theorem replaceAll_fill_word (hx : IsTight x) (hm : value m = m.word)
    (hother : ∀ m' ∈ places x, m' ≠ m → Text.hasWord m.word (value m') = false) (r : Text) :
    Text.replaceAll m.word r (fill value x) = fill (Function.update value m r) x := by
  rw [replaceAll_fill hx]
  -- the value of the marker is its word, which goes as a whole; the others do not have it
  refine fill_congr fun m' hm' => ?_
  by_cases e : m' = m
  · rw [e, hm, Text.replaceAll_word m.word_ne_nil, Function.update_self]
  · rw [Function.update_of_ne e, Text.replaceAll_of_not_hasWord m.word_ne_nil r (hother m' hm' e)]

/-- Replacing the first place of a marker fills it in if it has a single place. -/
theorem replaceFirst?_fill_word (hx : IsTight x) (hm : value m = m.word)
    (hcount : (places x).count m = 1)
    (hother : ∀ m' ∈ places x, m' ≠ m → Text.hasWord m.word (value m') = false) (r : Text) :
    Text.replaceFirst? m.word r (fill value x) = some (fill (Function.update value m r) x) :=
  Layout.replaceFirst?_write value (hx m) hm hcount hother r

/-- Putting a text in the first place of a word puts it in the only value there is. -/
theorem replaceFirst?_fill_value {m' : Marker} (value : Marker → Text) (hx : IsTight x)
    (hplaces : places x = [m']) {r v : Text}
    (hv : Text.replaceFirst? m.word r (value m') = some v) :
    Text.replaceFirst? m.word r (fill value x) = some (fill (Function.update value m' v) x) := by
  have hcount : (Layout.ofText x).places.count m' = 1 := by
    rw [show (Layout.ofText x).places = [m'] from hplaces, List.count_singleton_self]
  obtain ⟨ps₁, ps₂, hps, h₁, h₂⟩ := Layout.exists_place_of_count hcount
  -- around the only place there are characters and nothing else
  have hnil : ps₁.places = [] ∧ ps₂.places = [] := by
    have h : ps₁.places ++ m' :: ps₂.places = [m'] := by
      rw [← hplaces, places, hps, Layout.places_append]
      rfl
    cases hp : ps₁.places with
    -- a marker in front of the place would be the only one, and then there is none left
    | nil => rw [hp] at h; simpa using h
    | cons q qs => rw [hp] at h; simp at h
  rw [Text.replaceFirst?, Option.map_eq_some_iff] at hv
  obtain ⟨⟨b, e⟩, hcut, rfl⟩ := hv
  have hx := hx m
  rw [hps] at hx
  have hwrite := Layout.cut?_write m.word_ne_nil hx hcut
    (fun m₁ hm₁ => by rw [hnil.1] at hm₁; exact absurd hm₁ List.not_mem_nil) []
  rw [Text.replaceFirst?, fill, fill, hps, ← List.append_nil (Layout.write value _), hwrite,
    Layout.write_append, Layout.write_place, Layout.write_update_of_not_mem value _ h₁,
    Layout.write_update_of_not_mem value _ h₂, Function.update_self]
  simp

/-- A fragment with one place is what stands before the place, its value, and what stands
    behind. -/
theorem exists_fill_update (value : Marker → Text) (hcount : (places x).count m = 1) :
    ∃ before after : Text, ∀ r, fill (Function.update value m r) x = before ++ r ++ after := by
  obtain ⟨ps₁, ps₂, hps, h₁, h₂⟩ := Layout.exists_place_of_count hcount
  refine ⟨ps₁.write value, ps₂.write value, fun r => ?_⟩
  rw [fill, hps, Layout.write_append, Layout.write_place, Layout.write_update_of_not_mem value r h₁,
    Layout.write_update_of_not_mem value r h₂, Function.update_self, List.append_assoc]

end Fill

/-! ## Words of markers -/

/-- The word of a marker does not start with an end of itself, so two places of it do not
    overlap. -/
theorem Marker.bars_word (m : Marker) : Text.Bars m.word m.word := by
  have hends : ∀ m ∈ all, (Layout.ends m.word).all (fun v => !v.isPrefixOf m.word) = true := by
    decide
  rintro u v huv hu hv hstarts
  have hmem : v ∈ Layout.ends m.word := by
    obtain ⟨c, u, rfl⟩ := List.exists_cons_of_ne_nil hu
    simp [Layout.ends, huv, hv]
  have hend := List.all_eq_true.1 (hends m (mem_all m)) v hmem
  rw [List.isPrefixOf_iff_prefix.2 hstarts] at hend
  exact Bool.noConfusion hend

/-- The words that numbers are put in for have no character of a numeral. -/
theorem Marker.not_mem_word_of_numeral {m : Marker} (hm : m ∈ [number, tracedPid, ownPid])
    {c : Char} (hc : c.isDigit = true ∨ c = '-') : c ∉ m.word := by
  have hword : ∀ m ∈ [number, tracedPid, ownPid],
      m.word.all (fun c => !c.isDigit && c != '-') = true := by decide
  intro hmem
  have hnot := List.all_eq_true.1 (hword m hm) c hmem
  rw [Bool.and_eq_true, Bool.not_eq_true', bne_iff_ne] at hnot
  rcases hc with hdigit | hsign
  · rw [hdigit] at hnot
    exact Bool.noConfusion hnot.1
  · exact hnot.2 hsign

end Tracewright
