/-
  Tracewright.Proofs.Program.Attach

  What the last pass makes of a draft, and with it what generating a program
  from the packaged fragments yields.

    * `result_pidCheck`    — the test.
    * `result_expandReads` — the draft with the reads in their place.
    * `left`               — the words that stay in a program: those that the
                             names bring in.
    * `result_generate`    — the program, or why there is none.
-/
import Tracewright.Proofs.Program.Assembly

namespace Tracewright.Outline

open Packaged (contents names)

/-! ## The test -/

/-- The numeral is put in every place of the marker, if it has one. -/
theorem result_fillPid_of_hasWord {marker : Marker} {b : Buffer}
    (h : Text.hasWord marker.word b.text = true) (numeral : Text) :
    (Attach.fillPid marker numeral b).result = .ok (b.replaceAll marker.word numeral) := by
  have hcount : Text.countWord marker.word b.text ≠ 0 := by
    rw [Ne, Text.countWord_eq_zero_iff marker.word_ne_nil, h]
    exact Bool.noConfusion
  have hrequire : (Attach.require marker b).result = .ok () := by
    rw [Attach.require, if_neg hcount]
    rfl
  rw [Attach.fillPid, Run.result_bind_of_ok hrequire, Run.result_pure]

theorem result_fillPid {x : Text} {marker : Marker} (hx : HasForm x [marker]) (name : Text)
    (numeral : Text) :
    (Attach.fillPid marker numeral ⟨x, name⟩).result =
      .ok ⟨fill (only marker numeral) x, name⟩ := by
  have hword : Text.hasWord marker.word x = true := by
    have hfill := hasWord_fill hx.tight marker Marker.word
    rw [fill_word, hx.places_eq] at hfill
    rw [hfill, List.any_cons, Marker.hasWord_word, decide_eq_true rfl, Bool.true_or]
  have hfilled := result_fillPid_of_hasWord (b := ⟨x, name⟩) hword numeral
  have hreplace := isOpen_word.replaceAll_fill hx.tight (m := marker) rfl numeral
  rw [fill_word] at hreplace
  rw [hfilled, Buffer.replaceAll, hreplace, only]

theorem result_tellTraced (pid : Int) :
    (Attach.tellTraced pid).result = (Run.decimal pid).result := by
  rw [Attach.tellTraced, Run.result_bind]
  cases (Run.decimal pid).result <;> rfl

theorem result_tellOwn (own : Int) : (Attach.tellOwn own).result = (Run.decimal own).result := by
  rw [Attach.tellOwn, Run.result_bind]
  cases (Run.decimal own).result <;> rfl

/-- The test with the process in its place, if the number of the process can be written. -/
theorem result_pidCheck (m : Mode) (own : Int) :
    (Attach.pidCheck Store.packaged.source m own).result =
      if Numeral.isWritable (process m own) then .ok ⟨check m own, checkFile m⟩
      else .error (.value .overlongNumeral) := by
  have hload := load_of_mem_usualFiles (checkFile_mem_usualFiles m)
  have hfill := result_fillPid (hasForm_check m) (checkFile m) (Numeral.decimal (process m own))
  rw [← check] at hfill
  obtain ⟨fullFeature, policy, packets, expression, pid⟩ := m
  -- a traced process is told of after its test is loaded, the own one before
  cases pid with
  | some pid =>
    have htell := result_tellTraced pid.number
    have hload :
        (Store.packaged.source.load (Index.usual.pidCheck fullFeature.isTrue)).result = _ := hload
    show (Store.packaged.source.load (Index.usual.pidCheck fullFeature.isTrue) >>= fun b =>
      Attach.tellTraced pid.number >>= fun numeral =>
        Attach.fillPid .tracedPid numeral b).result = _
    rw [Run.result_bind_of_ok hload, process, Option.elim_some]
    by_cases hpid : Numeral.isWritable pid.number = true
    · rw [Run.result_decimal hpid] at htell
      rw [Run.result_bind_of_ok htell, if_pos hpid]
      exact hfill
    · rw [Run.result_decimal_of_overlong (Bool.eq_false_iff.2 hpid)] at htell
      rw [Run.result_bind_of_error htell, if_neg hpid]
  | none =>
    have htell := result_tellOwn own
    have hload : (Store.packaged.source.load Index.usual.pidCheckOwn).result = _ := hload
    show (Attach.tellOwn own >>= fun numeral => Store.packaged.source.load
      Index.usual.pidCheckOwn >>= fun b => Attach.fillPid .ownPid numeral b).result = _
    rw [process, Option.elim_none]
    by_cases hown : Numeral.isWritable own = true
    · rw [Run.result_decimal hown] at htell
      rw [Run.result_bind_of_ok htell, Run.result_bind_of_ok hload, if_pos hown]
      exact hfill
    · rw [Run.result_decimal_of_overlong (Bool.eq_false_iff.2 hown)] at htell
      rw [Run.result_bind_of_error htell, if_neg hown]

/-! ## The reads -/

/-- Copies of a block go in the place of the reads, if they can be made. -/
theorem result_repeatBlock (m : Mode) (s : Selection) (ds : List Descriptor) (test : Text)
    (name : Descriptor → Text) {count : Int} (hcount : 0 ≤ count) (block file : Text) :
    (Buffer.repeatBlock ⟨draft m s ds Marker.reads.word test name, file⟩ Marker.reads.word block
      count).result =
        match copiesFault? count.toNat block with
        | some e => .error e
        | none => .ok ⟨draft m s ds (Text.copies count.toNat block) test name, file⟩ := by
  rw [Buffer.repeatBlock, if_neg (by omega), copiesFault?]
  split_ifs
  · exact Run.result_fail rfl
  · exact Run.result_fail rfl
  -- there is room for the copies, and the place for them is still open
  · have hfill := replaceFirst?_draft m s test (Text.copies count.toNat block) ds name
    rw [Text.replaceFirst?, Option.map_eq_some_iff] at hfill
    obtain ⟨⟨before, after⟩, hcut, hdraft⟩ := hfill
    have hcut : Text.cut? Marker.reads.word
        (Buffer.mk (draft m s ds Marker.reads.word test name) file).text = some (before, after) :=
      hcut
    have hdraft : before ++ Text.copies count.toNat block ++ after =
        draft m s ds (Text.copies count.toNat block) test name := hdraft
    rw [hcut, ← hdraft]
    rfl

/-- Reads beyond two packets are there only under a policy that has a block for them. -/
theorem block?_of_usesOverflow (x : Index) {m : Mode} (h : m.usesOverflow = true) :
    ∃ file, x.block? m.policy = some file := by
  rw [Mode.usesOverflow, Bool.and_eq_true] at h
  cases hpolicy : m.policy with
  | fixed => rw [hpolicy] at h; exact Bool.noConfusion h.1
  | full => exact ⟨_, rfl⟩
  | fullConst => exact ⟨_, rfl⟩

theorem lt_packets_of_usesOverflow {m : Mode} (h : m.usesOverflow = true) : 2 < m.packets := by
  rw [Mode.usesOverflow, Bool.and_eq_true, decide_eq_true_eq] at h
  exact h.2

/-- The reads go in their place, if they can be made. -/
theorem result_expandReads (m : Mode) (s : Selection) (ds : List Descriptor) (test file : Text)
    (name : Descriptor → Text) :
    (Attach.expandReads Store.packaged.source m
        ⟨draft m s ds (openReads m) test name, file⟩).result =
      match if m.usesOverflow then copiesFault? (m.packets - 2) (block m) else none with
      | some e => .error e
      | none => .ok ⟨draft m s ds (reads m) test name, file⟩ := by
  rw [openReads, reads, Attach.expandReads, Store.index_packaged]
  by_cases h : m.usesOverflow = true
  · obtain ⟨blockFile, hblock⟩ := block?_of_usesOverflow Index.usual h
    have hload := load_of_mem_usualFiles (block_mem_usualFiles hblock)
    have hpackets := lt_packets_of_usesOverflow h
    -- there are more than two packets, so the count is not negative
    have hpositive : (0 : Int) ≤ (m.packets : Int) - 2 := by omega
    have hcount : ((m.packets : Int) - 2).toNat = m.packets - 2 := by omega
    have hrepeat := result_repeatBlock m s ds test name hpositive (contents blockFile) file
    rw [hcount] at hrepeat
    rw [if_pos h, if_pos h, if_pos h, h, hblock, block, hblock]
    show (Store.packaged.source.load blockFile >>= _).result = _
    rw [Run.result_bind_of_ok hload]
    exact hrepeat
  · rw [if_neg h, if_neg h, if_neg h, Bool.eq_false_iff.2 h]
    rfl

/-! ## What is left -/

/-- The name of a system call as its handler shows it: the markers of the test that it has
    are filled in with the others. -/
def shownName (m : Mode) (own : Int) (d : Descriptor) : Text :=
  Text.replaceAll Marker.pidCheck.word (check m own) d.name

/-- The words that stay in a program: those in a name, between its markers of the test. -/
def left (ds : List Descriptor) : List Text :=
  Marker.words.filter fun w =>
    ds.any fun d => (Text.split Marker.pidCheck.word d.name).any (Text.hasWord w)

theorem mem_left {ds : List Descriptor} {w : Text} :
    w ∈ left ds ↔ w ∈ Marker.words ∧
      ∃ d ∈ ds, ∃ piece ∈ Text.split Marker.pidCheck.word d.name, w <:+: piece := by
  simp only [left, List.mem_filter, List.any_eq_true, Text.hasWord_iff]

/-- The last scan finds what the names bring in, and nothing else. -/
theorem left_draft (m : Mode) (own : Int) (s : Selection) (ds : List Descriptor) :
    Marker.left (draft m s ds (reads m) (check m own) (shownName m own)) = left ds := by
  refine List.filter_congr fun w hw => ?_
  obtain ⟨w, -, rfl⟩ := List.mem_map.1 hw
  rw [hasWord_draft (hasWord_reads w m) (hasWord_check w m own)]
  refine List.any_congr rfl fun d => ?_
  exact hasWord_replaceAll_check w m own d.name

theorem result_finish (t : Text) :
    (Attach.finish t).result =
      match Marker.left t with
      | [] => .ok t
      | ws => .error (.markersLeft ws) := by
  rw [Attach.finish]
  cases Marker.left t <;> rfl

/-! ## Programs -/

section Generate

variable {c : Catalog} {m : Mode} {s : Selection} (own : Int)

section Apply

variable {source : Source Run} {text test file : Text}

/-- The last pass ends with the failure of putting in the reads. -/
theorem result_apply_of_error {e : Failure}
    (hcheck : (Attach.pidCheck source m own).result = .ok ⟨test, file⟩)
    (hexpand : (Attach.expandReads source m
      ⟨Text.replaceAll Marker.pidCheck.word test text, "<program>"⟩).result = .error e) :
    (Attach.apply source m own text).result = .error e := by
  rw [Attach.apply, Run.result_bind_of_ok hcheck]
  exact Run.result_bind_of_error hexpand _

/-- Once the reads are in, the last pass ends as the last scan does. -/
theorem result_apply_of_ok {text' file' : Text}
    (hcheck : (Attach.pidCheck source m own).result = .ok ⟨test, file⟩)
    (hexpand : (Attach.expandReads source m
      ⟨Text.replaceAll Marker.pidCheck.word test text, "<program>"⟩).result = .ok ⟨text', file'⟩) :
    (Attach.apply source m own text).result = (Attach.finish text').result := by
  rw [Attach.apply, Run.result_bind_of_ok hcheck]
  exact Run.result_bind_of_ok hexpand _

end Apply

/-- The last pass over what has been assembled. -/
theorem result_apply (ds : List Descriptor) :
    (Attach.apply Store.packaged.source m own
      (draft m s ds (openReads m) Marker.pidCheck.word Descriptor.name)).result =
        match hindrance? m own with
        | some e => .error e
        | none =>
          match left ds with
          | [] => .ok (draft m s ds (reads m) (check m own) (shownName m own))
          | ws => .error (.markersLeft ws) := by
  have hopen : Text.hasWord Marker.pidCheck.word (openReads m) = false := by
    rw [openReads]
    split_ifs
    · exact Marker.hasWord_word .pidCheck .reads
    · exact Text.hasWord_nil Marker.pidCheck.word_ne_nil
  have hdraft : Text.replaceAll Marker.pidCheck.word (check m own)
      (draft m s ds (openReads m) Marker.pidCheck.word Descriptor.name) =
        draft m s ds (openReads m) (check m own) (shownName m own) :=
    replaceAll_draft hopen (check m own) ds Descriptor.name
  have hcheck := result_pidCheck m own
  have hexpand := result_expandReads m s ds (check m own) "<program>" (shownName m own)
  rw [← hdraft] at hexpand
  rw [hindrance?]
  -- first the test, then the reads, then the last scan; each may end the run
  by_cases hprocess : Numeral.isWritable (process m own) = true
  · rw [if_pos hprocess] at hcheck
    rw [hprocess, Bool.not_true, if_neg Bool.false_ne_true]
    cases hfault : (if m.usesOverflow then copiesFault? (m.packets - 2) (block m) else none) with
    | some e =>
      rw [hfault] at hexpand
      exact result_apply_of_error own hcheck hexpand
    | none =>
      rw [hfault] at hexpand
      rw [result_apply_of_ok own hcheck hexpand, result_finish, left_draft]
  · rw [if_neg hprocess] at hcheck
    rw [Attach.apply, Run.result_bind_of_error hcheck, Bool.eq_false_iff.2 hprocess,
      Bool.not_false, if_pos rfl]

/-- Generating a program ends with what keeps any program from being finished, with the words
    that the names of the selected calls leave in it, or with the program. -/
theorem result_generate
    (hs : Selection.ofName? (m.expression.getD Selection.usualName) = some s)
    (hnumbers : ∀ d ∈ c.select s.mask, Numeral.isWritable d.number = true) :
    (generate Store.packaged.source c m own).result =
      match hindrance? m own with
      | some e => .error e
      | none =>
        match left (c.select s.mask) with
        | [] => .ok (draft m s (c.select s.mask) (reads m) (check m own) (shownName m own))
        | ws => .error (.markersLeft ws) := by
  rw [generate, Run.result_bind_of_ok (result_assemble hs hnumbers), result_apply]

end Generate

end Tracewright.Outline
