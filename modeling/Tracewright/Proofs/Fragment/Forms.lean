/-
  Tracewright.Proofs.Fragment.Forms

  The forms of the packaged fragments: which markers have a place in each,
  and that none can arise but inside a value.

    * `HasForm`        — the places of a fragment, and that nothing else can
                         come of it.
    * `Packaged.placesOf`       — the places of every packaged fragment.
    * `Packaged.hasForm_of_mem` — the packaged fragments are of that form.

  The fragments are read with the words of the markers given as lists of
  characters, and only where a character starts a word: the closed readings
  are then evaluated in no time that matters.
-/
import Mathlib.Tactic.Tauto
import Tracewright.Fragment.Store
import Tracewright.Proofs.Fragment.Layout

namespace Tracewright

/-! ## Reading with the words given -/

namespace Layout

/-- The words of all markers, with their markers. -/
def wordTable : List (Marker × Text) := Marker.all.map fun m => (m, m.word)

/-- The character starts the word of a marker. -/
def isInitial (c : Char) : Bool := [35, 77, 80, 82, 83, 84].contains c.toNat

/-- Reads pieces by the words given. -/
def ofTextBy (words : List (Marker × Text)) (skip : Nat) : Text → Layout
  | [] => []
  | c :: rest =>
    match skip with
    | k + 1 => ofTextBy words k rest
    | 0 =>
      if isInitial c then
        match words.find? fun e => e.2.isPrefixOf (c :: rest) with
        | some e => .place e.1 :: ofTextBy words (e.2.length - 1) rest
        | none => .char c :: ofTextBy words 0 rest
      else .char c :: ofTextBy words 0 rest

/-- No place of a word given can arise but inside a value. -/
def isTightBy (words : List (Marker × Text)) : Layout → Bool
  | [] => true
  | .char c :: ps =>
    (!isInitial c || words.all fun e => !mayStart e.2 (.char c :: ps)) && isTightBy words ps
  | .place _ :: ps =>
    (words.all fun e => (ends e.2).all fun v => !mayStart v ps) && isTightBy words ps

theorem isInitial_of_word {m : Marker} {c : Char} {t : Text} (h : m.word = c :: t) :
    isInitial c = true := by
  have hall : ∀ m ∈ Marker.all, m.word.head?.all isInitial = true := by decide
  have hm := hall m (Marker.mem_all m)
  rwa [h] at hm

theorem find?_wordTable (t : Text) :
    wordTable.find? (fun e => e.2.isPrefixOf t) = (Marker.at? t).map fun m => (m, m.word) := by
  rw [wordTable, List.find?_map]
  rfl

theorem at?_eq_none_of_not_isInitial {c : Char} (h : isInitial c = false) (t : Text) :
    Marker.at? (c :: t) = none := by
  rw [Option.eq_none_iff_forall_ne_some]
  intro m hm
  obtain ⟨c', w, hw⟩ := List.exists_cons_of_ne_nil m.word_ne_nil
  have hp := Marker.prefix_of_at? hm
  rw [hw, List.cons_prefix_cons] at hp
  rw [← hp.1, isInitial_of_word hw] at h
  exact Bool.noConfusion h

theorem ofTextBy_wordTable (k : Nat) (t : Text) : ofTextBy wordTable k t = ofTextLoop k t := by
  induction t generalizing k with
  | nil => rfl
  | cons c t ih =>
    match k with
    | k + 1 => exact ih k
    | 0 =>
      rw [ofTextBy, ofTextLoop, find?_wordTable]
      -- a character that starts no word is read without trying any
      by_cases hc : isInitial c = true
      · rw [if_pos hc]
        cases Marker.at? (c :: t) <;> simp [ih]
      · rw [if_neg hc, at?_eq_none_of_not_isInitial (Bool.eq_false_iff.2 hc), ih]

theorem isTight_of_isTightBy {ps : Layout} (h : isTightBy wordTable ps = true) (m : Marker) :
    isTight m.word ps = true := by
  have hm : (m, m.word) ∈ wordTable := List.mem_map_of_mem (Marker.mem_all m)
  induction ps with
  | nil => rfl
  | cons p ps ih =>
    cases p with
    | char c =>
      rw [isTightBy, Bool.and_eq_true] at h
      rw [isTight, ih h.2, Bool.and_true, Bool.not_eq_true', Bool.eq_false_iff]
      -- a word that may start here has this first character, and was tried
      intro hstart
      obtain ⟨c', w, hw⟩ := List.exists_cons_of_ne_nil m.word_ne_nil
      have hc : c' = c := by
        rw [hw, mayStart, Bool.and_eq_true, beq_iff_eq] at hstart
        exact hstart.1
      have hall := h.1
      rw [← hc, isInitial_of_word hw, Bool.not_true, Bool.false_or, List.all_eq_true] at hall
      have hno := hall _ hm
      rw [hc, hstart] at hno
      exact Bool.noConfusion hno
    | place m' =>
      rw [isTightBy, Bool.and_eq_true, List.all_eq_true] at h
      rw [isTight, ih h.2, Bool.and_true]
      exact h.1 _ hm

/-- The reading of a text has the places, no other can arise, even behind a value, and
    there are no carriage returns. -/
def hasForm (words : List (Marker × Text)) (t : Text) (ms : List Marker) : Bool :=
  let ps := ofTextBy words 0 t
  decide (ps.places = ms) && isTightBy words (.place .name :: ps) && t.all (· != '\r')

/-- The words as literals, which are read at once. -/
theorem wordTable_eq : wordTable = [(.number, "SYSCALL_NR".toList),
    (.name, "SYSCALL_NAME_filled_for_replace".toList), (.slot 0, "STR1".toList),
    (.slot 1, "STR2".toList), (.slot 2, "STR3".toList), (.tracedPid, "TRACED_PID".toList),
    (.ownPid, "MY_OWN_PID".toList), (.pidCheck, "PID_CHECK_HOOK".toList),
    (.definitions, "#include \"trace.h\"".toList),
    (.openReads, "READ_AND_SUBMIT_it_will_be_removed_N_MINUS_2_PACKETS".toList),
    (.reads, "READ_AND_SUBMIT_N_MINUS_2_PACKETS".toList)] := rfl

end Layout

/-! ## The packaged fragments -/

/-- What is known of a fragment: the markers that have a place, in order, and that no other
    place can arise in it, nor at its start. -/
structure HasForm (t : Text) (ms : List Marker) : Prop where
  places_eq : places t = ms
  tight : IsTight t
  bars : ∀ (m : Marker) (value : Marker → Text) (s : Text), Text.Bars m.word (fill value t ++ s)
  dropReturns_eq : Store.dropReturns t = t

theorem HasForm.of_hasForm {t : Text} {ms : List Marker}
    (h : Layout.hasForm Layout.wordTable t ms = true) : HasForm t ms := by
  simp only [Layout.hasForm, Layout.ofTextBy_wordTable, Bool.and_eq_true, decide_eq_true_eq,
    List.all_eq_true] at h
  obtain ⟨⟨hplaces, htight⟩, hreturns⟩ := h
  -- the reading was tried behind a value, so the start is covered as well
  have htight := Layout.isTight_of_isTightBy htight
  exact {
    places_eq := hplaces
    tight := fun m => Layout.isTight_tail (htight m)
    bars := fun m => Layout.bars_place (htight m)
    dropReturns_eq := List.filter_eq_self.2 hreturns }

namespace Packaged

/-- The markers of a handler of `n` strings, in the order of their places. -/
def handlerPlaces (n : Nat) : List Marker :=
  [.name, .name, .name, .pidCheck, .number] ++ ((List.finRange captureLimit).take n).map .slot

theorem mem_handlerPlaces {n : Nat} {m : Marker} (h : m ∈ handlerPlaces n) :
    m = .name ∨ m = .pidCheck ∨ m = .number ∨
      ∃ i : Fin captureLimit, i.val < n ∧ m = .slot i := by
  rw [handlerPlaces, List.mem_append] at h
  rcases h with h | h
  · simp only [List.mem_cons, List.not_mem_nil, or_false] at h
    tauto
  · obtain ⟨i, hi, rfl⟩ := List.mem_map.1 h
    obtain ⟨j, hj, rfl⟩ := List.mem_take_iff_getElem.1 hi
    refine .inr (.inr (.inr ⟨_, ?_, rfl⟩))
    rw [List.getElem_finRange]
    exact Nat.lt_of_lt_of_le hj (Nat.min_le_left _ _)

/-- The markers that have a place, by the name of the file. -/
def placesByName : List (Text × List Marker) := [
  ("trace_head.c", [.definitions]),
  ("trace.h", [.openReads]),
  ("trace_tracepoints.c", [.pidCheck]),
  ("template_0_str.c", handlerPlaces 0),
  ("template_1_str_fixed.c", handlerPlaces 1),
  ("template_1_str_full.c", handlerPlaces 1),
  ("template_2_str_fixed.c", handlerPlaces 2),
  ("template_2_str_full.c", handlerPlaces 2),
  ("template_3_str_fixed.c", handlerPlaces 3),
  ("template_3_str_full.c", handlerPlaces 3),
  ("template_fork.c", handlerPlaces 0),
  ("template_exit.c", handlerPlaces 0),
  ("pid_check_ff_disabled_hook.c", [.tracedPid]),
  ("pid_check_ff_full_hook.c", [.tracedPid]),
  ("pid_own_hook.c", [.ownPid])]

/-- The markers that have a place in a packaged file. -/
def placesOf (file : Text) : List Marker := (placesByName.lookup file).getD []

theorem ofLines_nil : ofLines [] = [] := rfl

theorem ofLines_cons (l : List Char) (ls : List String) :
    ofLines (String.ofList l :: ls) = l ++ '\n' :: ofLines ls := by
  simp [ofLines]

/-- Every packaged fragment has the form that is listed. -/
theorem hasForm_of_mem : ∀ e ∈ fragments, HasForm e.2 (placesOf e.1) := by
  simp only [fragments, List.forall_mem_cons, traceHead, traceDefinitions, tracepoints, handler0,
    handler1Fixed, handler1Full, handler2Fixed, handler2Full, handler3Fixed, handler3Full, fork,
    exit, pidCheckPlain, pidCheckFamily, pidCheckOwn, constBlock, fullBlock]
  refine ⟨?_, ?_, ?_, ?_, ?_, ?_, ?_, ?_, ?_, ?_, ?_, ?_, ?_, ?_, ?_, ?_, ?_, by simp⟩
  -- the lines become lists of characters before the kernel reads them
  all_goals
    -- words and lines as literal lists: only then is the check a closed computation
    refine HasForm.of_hasForm ?_
    rw [Layout.wordTable_eq]
    repeat rw [ofLines_cons]
    rw [ofLines_nil]
    repeat rw [String.toList_ofList]
    decide +kernel

end Packaged

end Tracewright
