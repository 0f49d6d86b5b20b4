/-
  Tracewright.Proofs.Program.Assembly

  What assembling a program from the packaged fragments yields: the draft in
  which the test and the reads are still open.

    * `result_select`   — the handler of a system call.
    * `result_head`     — the head.
    * `results_packaged` — all pieces.
    * `result_assemble` — the whole text.
    * `result_assemble_of_overlong` — the one thing that keeps it from being
                          made: a number that cannot be written.

  The steps fill in one marker after the other.  While they do, every marker
  stands for its word or for a text without words (`IsOpen`), so no step can
  meet what another one has put in.
-/
import Mathlib.Tactic.IntervalCases
import Tracewright.Proofs.Program.Outline
import Tracewright.Proofs.Program.Pieces

namespace Tracewright.Outline

open Packaged (contents names handlerPlaces)

/-! ## Values on the way -/

/-- Every marker stands for its word or for a text without words. -/
def IsOpen (value : Marker → Text) : Prop :=
  ∀ m : Marker, value m = m.word ∨ ∀ w : Marker, Text.hasWord w.word (value m) = false

theorem isOpen_word : IsOpen Marker.word := fun _ => .inl rfl

section Open

variable {value : Marker → Text} {m m' : Marker}

theorem IsOpen.update (h : IsOpen value) (m : Marker) {r : Text}
    (hr : ∀ w : Marker, Text.hasWord w.word r = false) : IsOpen (Function.update value m r) := by
  intro m'
  by_cases e : m' = m
  · rw [e, Function.update_self]
    exact .inr hr
  · rw [Function.update_of_ne e]
    exact h m'

theorem IsOpen.hasWord_of_ne (h : IsOpen value) (hne : m' ≠ m) :
    Text.hasWord m.word (value m') = false := by
  rcases h m' with hm' | hm'
  · rw [hm', Marker.hasWord_word, decide_eq_false_iff_not]
    exact fun e => hne e.symm
  · exact hm' m

/-- Replacing the word of a marker that is still open fills it in. -/
theorem IsOpen.replaceAll_fill {x : Text} (h : IsOpen value) (hx : IsTight x)
    (hm : value m = m.word) (r : Text) :
    Text.replaceAll m.word r (fill value x) = fill (Function.update value m r) x :=
  replaceAll_fill_word hx hm (fun _ _ hne => h.hasWord_of_ne hne) r

theorem IsOpen.replaceFirst?_fill {x : Text} (h : IsOpen value) (hx : IsTight x)
    (hm : value m = m.word) (hcount : (places x).count m = 1) (r : Text) :
    Text.replaceFirst? m.word r (fill value x) = some (fill (Function.update value m r) x) :=
  replaceFirst?_fill_word hx hm hcount (fun _ _ hne => h.hasWord_of_ne hne) r

end Open

/-! ## Kinds and files -/

theorem result_case (d : Descriptor) (m : Mode) : (d.case m).result = .ok (kind d m) := by
  rw [Descriptor.case, kind]
  split_ifs
  · rfl
  · rfl
  · rw [Descriptor.countCase]
    split_ifs with h
    · rw [Nat.min_eq_right (by omega)]
      rfl
    · rw [Nat.min_eq_left (by omega)]
      rfl

theorem handler_usual {count : Nat} (h : count ≤ captureLimit) (policy : ReadPolicy) :
    Index.usual.handler (.int count) policy = .ok (Index.usualHandler count policy) := by
  -- twelve handlers, each found under its key
  rw [captureLimit] at h
  interval_cases count <;> cases policy <;> rfl

/-! ## Slots -/

theorem count_slot {n : Nat} (hn : n ≤ captureLimit) {i : Fin captureLimit} (hi : i.val < n) :
    (handlerPlaces n).count (.slot i) = 1 := by
  have hall : ∀ n ∈ List.range (captureLimit + 1), ∀ i : Fin captureLimit, i.val < n →
      (handlerPlaces n).count (.slot i) = 1 := by decide
  exact hall n (List.mem_range.2 (by omega)) i hi

/-- Filling in slots fills in their markers, and changes nothing else. -/
theorem result_fillSlots {x : Text} {n : Nat} (hx : HasForm x (handlerPlaces n))
    (hn : n ≤ captureLimit) (file : Text) {pairs : List (Fin captureLimit × Fin Mask.slotLimit)}
    (hkeys : (pairs.map Prod.fst).Nodup) (hlt : ∀ p ∈ pairs, p.1.val < n)
    {value : Marker → Text} (hopen : IsOpen value)
    (hvalue : ∀ p ∈ pairs, value (.slot p.1) = (Marker.slot p.1).word) :
    ∃ value' : Marker → Text, IsOpen value' ∧
      (Handler.fillSlots ⟨fill value x, file⟩ pairs).result = .ok ⟨fill value' x, file⟩ ∧
      (∀ p ∈ pairs, value' (.slot p.1) = Numeral.decimal p.2.val) ∧
      ∀ m : Marker, (∀ p ∈ pairs, m ≠ .slot p.1) → value' m = value m := by
  induction pairs generalizing value with
  | nil => exact ⟨value, hopen, rfl, fun p hp => absurd hp List.not_mem_nil, fun _ _ => rfl⟩
  | cons p pairs ih =>
    obtain ⟨i, slot⟩ := p
    rw [List.map_cons, List.nodup_cons] at hkeys
    -- the other pairs have other places, so this step leaves theirs open
    have hfree : ∀ p ∈ pairs, Marker.slot p.1 ≠ .slot i := by
      intro p hp he
      rw [Marker.slot.injEq] at he
      exact hkeys.1 (List.mem_map.2 ⟨p, hp, he⟩)
    have hcount : (places x).count (.slot i) = 1 := by
      rw [hx.places_eq]
      exact count_slot hn (hlt _ List.mem_cons_self)
    have hput := hopen.replaceFirst?_fill hx.tight (hvalue _ List.mem_cons_self) hcount
      (Numeral.decimal slot.val)
    -- a slot is a digit, so putting it in is writing its numeral
    have hstep : (Buffer.putChar ⟨fill value x, file⟩ (Marker.slot i).word
        (.int slot.val)).result =
          .ok ⟨fill (Function.update value (.slot i) (Numeral.decimal slot.val)) x, file⟩ := by
      have hlimit : slot.val < 6 := slot.isLt
      have hdigit : (0 : Int) ≤ slot.val ∧ (slot.val : Int) ≤ 9 := by omega
      simp only [Buffer.putChar, if_pos hdigit, Buffer.replaceFirst, hput]
      rfl
    obtain ⟨value', hopen', hrest, hslots, hkeep⟩ := ih hkeys.2
      (fun p hp => hlt p (List.mem_cons_of_mem _ hp))
      (hopen.update (.slot i) fun w => hasWord_decimal w slot.val)
      (fun p hp => by
        rw [Function.update_of_ne (hfree p hp)]
        exact hvalue p (List.mem_cons_of_mem _ hp))
    refine ⟨value', hopen', ?_, ?_, ?_⟩
    · rw [Handler.fillSlots, Run.result_bind_of_ok hstep, hrest]
    · intro p hp
      rcases List.mem_cons.1 hp with rfl | hp
      · rw [hkeep _ fun p hp he => hfree p hp he.symm, Function.update_self]
      · exact hslots p hp
    · intro m hm
      rw [hkeep m fun p hp => hm p (List.mem_cons_of_mem _ hp),
        Function.update_of_ne (hm _ List.mem_cons_self)]

theorem nodup_slotPairs (d : Descriptor) (count : Nat) :
    ((Handler.slotPairs d count).map Prod.fst).Nodup := by
  -- the places are numbered as they come
  rw [List.Nodup, List.pairwise_iff_getElem]
  intro i j hi hj hij
  simp only [Handler.slotPairs, List.getElem_map, List.getElem_zip, List.getElem_finRange]
  intro he
  have hval := congrArg Fin.val he
  simp only [Fin.val_cast] at hval
  omega

theorem mem_slotPairs {d : Descriptor} {count : Nat} {i : Fin captureLimit}
    {slot : Fin Mask.slotLimit} :
    (i, slot) ∈ Handler.slotPairs d count ↔ i.val < count ∧ d.slots[i.val]? = some slot := by
  have hrange (j : Nat) : (List.finRange captureLimit)[j]? = some i ↔ j = i.val := by
    rw [List.getElem?_eq_some_iff]
    constructor
    · rintro ⟨hj, rfl⟩
      rw [List.getElem_finRange]
      rfl
    · rintro rfl
      exact ⟨by rw [List.length_finRange]; exact i.isLt, by rw [List.getElem_finRange]; rfl⟩
  rw [Handler.slotPairs, List.mem_iff_getElem?]
  simp only [List.getElem?_zip_eq_some, hrange, List.getElem?_take]
  constructor
  · rintro ⟨j, rfl, h⟩
    by_cases hi : i.val < count
    · rw [if_pos hi] at h
      exact ⟨hi, h⟩
    · rw [if_neg hi] at h
      exact absurd h (Option.some_ne_none _).symm
  · rintro ⟨hi, h⟩
    exact ⟨i.val, rfl, by rw [if_pos hi]; exact h⟩

/-! ## Handlers -/

section Select

variable (d : Descriptor) (m : Mode)

/-- The fragment of a handler with its slots filled in. -/
theorem result_fragment : ∃ value : Marker → Text, IsOpen value ∧
    (Handler.fragment Store.packaged.source d m (kind d m)).result =
      .ok ⟨fill value (contents (file m.policy (kind d m))), file m.policy (kind d m)⟩ ∧
    (∀ i : Fin captureLimit, i.val < slotCount d m →
      value (.slot i) = values d d.name Marker.pidCheck.word (.slot i)) ∧
    ∀ m' : Marker, (∀ i, m' ≠ .slot i) → value m' = m'.word := by
  have hload := load_of_mem_usualFiles (file_mem_usualFiles d m)
  obtain ⟨hslots, hlimit⟩ := slotCount_le d m
  have hform := hasForm_handler d m
  rw [slotCount] at hslots hlimit hform ⊢
  cases hk : kind d m with
  | fork =>
    rw [hk] at hload
    exact ⟨Marker.word, isOpen_word, by rw [fill_word]; exact hload,
      fun i hi => absurd hi (Nat.not_lt_zero _), fun _ _ => rfl⟩
  | exit =>
    rw [hk] at hload
    exact ⟨Marker.word, isOpen_word, by rw [fill_word]; exact hload,
      fun i hi => absurd hi (Nat.not_lt_zero _), fun _ _ => rfl⟩
  | general count =>
    rw [hk] at hload hslots hlimit hform
    simp only at hslots hlimit hform
    -- only here are there slots to fill in; the other kinds are loaded as they are
    obtain ⟨value, hopen, hfill, hvalue, hkeep⟩ := result_fillSlots hform hlimit
      (file m.policy (.general count)) (nodup_slotPairs d count)
      (fun p hp => (mem_slotPairs.1 hp).1) isOpen_word fun _ _ => rfl
    refine ⟨value, hopen, ?_, ?_, fun m' hm' => hkeep m' fun p _ => hm' p.1⟩
    · have hfile : (Run.ofExcept (Index.usual.handler (.int count) m.policy)).result =
          .ok (file m.policy (.general count)) := handler_usual hlimit m.policy
      rw [fill_word] at hfill
      show (Run.ofExcept (Index.usual.handler (.int count) m.policy) >>= fun file =>
        Store.packaged.source.load file >>= fun b =>
          Handler.fillSlots b (Handler.slotPairs d count)).result = _
      rw [Run.result_bind_of_ok hfile, Run.result_bind_of_ok hload, hfill]
    · intro i hi
      have hlt : i.val < d.slots.length := Nat.lt_of_lt_of_le hi hslots
      rw [values_slot hlt]
      exact hvalue (i, _) (mem_slotPairs.2 ⟨hi, List.getElem?_eq_getElem hlt⟩)

/-- The handler of a system call, with the test still open. -/
theorem result_select (hnumber : Numeral.isWritable d.number = true) :
    (Handler.select Store.packaged.source d m).result =
      .ok ⟨handler m Marker.pidCheck.word d.name d, file m.policy (kind d m)⟩ := by
  obtain ⟨value, hopen, hfragment, hslots, hkeep⟩ := result_fragment d m
  have htight := (hasForm_handler d m).tight
  have hnumberOpen : value .number = Marker.number.word := hkeep _ fun _ => Marker.noConfusion
  have hnameOpen : value .name = Marker.name.word := hkeep _ fun _ => Marker.noConfusion
  -- first the number, then the name; neither numeral nor slot has a word
  have hopen' := hopen.update .number fun w => hasWord_decimal w d.number
  have hname : Function.update value .number (Numeral.decimal d.number) .name =
      Marker.name.word := by
    rw [Function.update_of_ne Marker.noConfusion, hnameOpen]
  show (d.case m >>= fun case => Handler.fragment Store.packaged.source d m case >>= fun b =>
    Handler.complete d case b).result = _
  rw [Run.result_bind_of_ok (result_case d m), Run.result_bind_of_ok hfragment,
    Handler.complete, Run.result_bind_of_ok (Run.result_decimal hnumber)]
  show Except.ok _ = _
  rw [Buffer.replaceAll, Buffer.replaceAll, hopen.replaceAll_fill htight hnumberOpen,
    hopen'.replaceAll_fill htight hname, handler]
  -- both sides agree on every marker that has a place; the test is open on both
  refine congrArg (fun t => Except.ok (Buffer.mk t _)) (fill_congr fun m' hm' => ?_)
  rw [(hasForm_handler d m).places_eq] at hm'
  rcases Packaged.mem_handlerPlaces hm' with rfl | rfl | rfl | ⟨i, hi, rfl⟩
  · rw [Function.update_self]
    rfl
  · rw [Function.update_of_ne Marker.noConfusion, Function.update_of_ne Marker.noConfusion,
      hkeep _ fun _ => Marker.noConfusion]
    rfl
  · rw [Function.update_of_ne Marker.noConfusion, Function.update_self]
    rfl
  · rw [Function.update_of_ne Marker.noConfusion, Function.update_of_ne Marker.noConfusion,
      hslots i hi]

/-- A number that cannot be written leaves a system call without a handler. -/
theorem result_select_of_overlong (hnumber : Numeral.isWritable d.number = false) :
    (Handler.select Store.packaged.source d m).result = .error (.value .overlongNumeral) := by
  obtain ⟨_, -, hfragment, -, -⟩ := result_fragment d m
  show (d.case m >>= fun case => Handler.fragment Store.packaged.source d m case >>= fun b =>
    Handler.complete d case b).result = _
  rw [Run.result_bind_of_ok (result_case d m), Run.result_bind_of_ok hfragment, Handler.complete,
    Run.result_bind_of_error (Run.result_decimal_of_overlong hnumber)]

end Select

/-! ## The whole text -/

/-- The place of the reads beyond two packets, while they are open. -/
def openReads (m : Mode) : Text := if m.usesOverflow then Marker.reads.word else []

theorem result_head (m : Mode) :
    (Assembly.head Store.packaged.source m).result = .ok (headWith (openReads m)) := by
  have hhead := Store.loadVerbatim_packaged (mem_names_of_mem_usualFiles _ head_mem_usualFiles).1
  have hdefs := load_of_mem_usualFiles definitions_mem_usualFiles
  have hdefinitions : (Assembly.definitions Store.packaged.source m).result =
      .ok ⟨fill (only .openReads (openReads m)) (contents Index.usual.definitions),
        Index.usual.definitions⟩ := by
    have hreplace := isOpen_word.replaceAll_fill hasForm_definitions.tight
      (m := .openReads) rfl (openReads m)
    rw [fill_word] at hreplace
    have hopen : (if m.usesOverflow then Marker.reads.word else []) = openReads m := rfl
    rw [Assembly.definitions, Store.index_packaged, Run.result_bind_of_ok hdefs, hopen,
      Run.result_pure, Buffer.replaceAll, hreplace, only]
  -- the definitions go in once: the head has a single place for them
  have hcount : (places (contents Index.usual.head)).count .definitions = 1 := by
    rw [hasForm_head.places_eq]
    rfl
  have hreplace := isOpen_word.replaceFirst?_fill hasForm_head.tight (m := .definitions) rfl hcount
    (fill (only .openReads (openReads m)) (contents Index.usual.definitions))
  rw [fill_word] at hreplace
  rw [Assembly.head, Store.index_packaged, Run.result_bind_of_ok hhead,
    Run.result_bind_of_ok hdefinitions]
  show (Buffer.replaceFirst _ _ _ >>= _).result = _
  rw [Buffer.replaceFirst]
  simp only [hreplace]
  rfl

theorem result_exitHandler : (Assembly.exitHandler Store.packaged.source).result =
    .ok (contents Index.usual.tracepoints) := by
  have hload := load_of_mem_usualFiles tracepoints_mem_usualFiles
  rw [Assembly.exitHandler, Store.index_packaged, Run.result_bind_of_ok hload]
  rfl

theorem results_packaged {c : Catalog} {m : Mode} {s : Selection}
    (hnumbers : ∀ d ∈ c.select s.mask, Numeral.isWritable d.number = true) :
    Assembly.results Store.packaged.source c m s =
      (headWith (openReads m) ::
        (c.select s.mask).map (fun d => handler m Marker.pidCheck.word d.name d) ++
        if s.tracepoints then [contents Index.usual.tracepoints] else []).map .ok := by
  have hhandlers : (c.select s.mask).map (fun d => Assembly.textResult
      (Handler.select Store.packaged.source d m).result) =
        ((c.select s.mask).map fun d => handler m Marker.pidCheck.word d.name d).map .ok := by
    rw [List.map_map, List.map_inj_left]
    intro d hd
    rw [result_select d m (hnumbers d hd)]
    rfl
  have hexit : (if s.tracepoints then [(Assembly.exitHandler Store.packaged.source).result]
      else []) = (if s.tracepoints then [contents Index.usual.tracepoints] else []).map .ok := by
    split_ifs
    · rw [result_exitHandler]
      rfl
    · rfl
  rw [Assembly.results, result_head, hhandlers, hexit, List.map_append, List.map_cons]

/-- Assembling yields the draft in which the test and the reads are open. -/
theorem result_assemble {c : Catalog} {m : Mode} {s : Selection}
    (hs : Selection.ofName? (m.expression.getD Selection.usualName) = some s)
    (hnumbers : ∀ d ∈ c.select s.mask, Numeral.isWritable d.number = true) :
    (Assembly.assemble Store.packaged.source c m).result =
      .ok (draft m s (c.select s.mask) (openReads m) Marker.pidCheck.word Descriptor.name) := by
  have hexit : exit s Marker.pidCheck.word =
      (if s.tracepoints then [contents Index.usual.tracepoints] else []).flatten := by
    rw [exit, only, Function.update_eq_self, fill_word]
    split_ifs
    · exact (List.append_nil _).symm
    · rfl
  rw [Assembly.result_assemble_of_ok hs (results_packaged hnumbers), draft, hexit,
    List.cons_append, List.flatten_cons, List.flatten_append, List.append_assoc]

/-- One selected call with a number that cannot be written leaves no text at all. -/
theorem result_assemble_of_overlong {c : Catalog} {m : Mode} {s : Selection}
    (hs : Selection.ofName? (m.expression.getD Selection.usualName) = some s)
    (hnumber : ∃ d ∈ c.select s.mask, Numeral.isWritable d.number = false) :
    (Assembly.assemble Store.packaged.source c m).result = .error (.value .overlongNumeral) := by
  refine Assembly.result_assemble_of_error hs (fun r hr => ?_) ?_
  · rw [Assembly.results, List.mem_append, List.mem_cons, List.mem_map] at hr
    rcases hr with (hr | ⟨d, -, hr⟩) | hr
    · exact .inl ⟨_, hr.trans (result_head m)⟩
    · rw [← hr]
      cases hd : Numeral.isWritable d.number with
      | true => exact .inl ⟨_, congrArg Assembly.textResult (result_select d m hd)⟩
      | false => exact .inr (congrArg Assembly.textResult (result_select_of_overlong d m hd))
    · split_ifs at hr
      · exact .inl ⟨_, (List.mem_singleton.1 hr).trans result_exitHandler⟩
      · exact absurd hr List.not_mem_nil
  · obtain ⟨d, hd, hlong⟩ := hnumber
    rw [Assembly.results, List.mem_append, List.mem_cons, List.mem_map]
    exact .inl (.inr ⟨d, hd, congrArg Assembly.textResult (result_select_of_overlong d m hlong)⟩)

end Tracewright.Outline
