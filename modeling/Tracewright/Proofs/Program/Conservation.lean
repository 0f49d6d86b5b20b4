/-
  Tracewright.Proofs.Program.Conservation

  What the last pass adds to a program and what it takes away, for any
  fragments and any program: the length of what it yields is that of what it
  is given, and what goes in its places; and there is nothing left for a
  second pass.

    * `Buffer.repeatBlock_eq_ok`, `Attach.pidCheck_eq_ok`, `Attach.apply_eq_ok`
                          — what a step has found where it succeeds.
    * `Attach.programFor` — the program with the test in its places.
    * `Attach.apply_conserves`
                          — the length, the words and the second pass.
-/
import Tracewright.Proofs.Fragment.InPlace
import Tracewright.Proofs.Program.Attach

namespace Tracewright

/-! ## Copies of a block -/

namespace Buffer

variable {b b' : Buffer} {word block : Text} {count : Int}

/-- Copies that have been made had room. -/
theorem exists_hasRoom (h : (b.repeatBlock word block count).result = .ok b') :
    ∃ n : Nat, count = n ∧ HasRoom n block := by
  rcases lt_or_ge count 0 with hnegative | hcount
  · rw [repeatBlock, if_pos hnegative] at h
    cases h
  · obtain ⟨n, rfl⟩ := Int.eq_ofNat_of_zero_le hcount
    refine ⟨n, rfl, ?_⟩
    by_contra hroom
    rw [repeatBlock_of_not_hasRoom hroom] at h
    cases h

/-- Copies have gone in the first place of the word. -/
theorem repeatBlock_eq_ok (h : (b.repeatBlock word block count).result = .ok b') :
    ∃ before after, Text.cut? word b.text = some (before, after) ∧
      b' = { b with text := before ++ Text.copies count.toNat block ++ after } := by
  obtain ⟨n, rfl, hroom⟩ := exists_hasRoom h
  rw [repeatBlock_of_hasRoom hroom] at h
  cases hcut : Text.cut? word b.text with
  | none =>
    rw [hcut] at h
    cases h
  | some cut =>
    rw [hcut] at h
    exact ⟨cut.1, cut.2, rfl, (Except.ok.inj h).symm⟩

/-- Copies that can be made are missed their place by a text without the word. -/
theorem result_repeatBlock_of_missing (h : (b.repeatBlock word block count).result = .ok b')
    {c : Buffer} (hword : Text.hasWord word c.text = false) :
    (c.repeatBlock word block count).result = .error (.markerMissing word) := by
  obtain ⟨n, rfl, hroom⟩ := exists_hasRoom h
  have hcut := Text.cut?_eq_none_iff.2 ((Text.hasWord_eq_false_iff _ _).1 hword)
  rw [repeatBlock_of_hasRoom hroom, hcut]
  exact result_missing c word

end Buffer

namespace Attach

open Outline (process checkMarker)

/-- The file of the test. -/
def testFile (x : Index) (m : Mode) : Text :=
  if m.pid.isSome then x.pidCheck m.fullFeature.isTrue else x.pidCheckOwn

/-- The test that a file holds, with the process in its places. -/
def testOf (m : Mode) (own : Int) (file : Buffer) : Text :=
  Text.replaceAll (checkMarker m).word (Numeral.decimal (process m own)) file.text

/-- A program with the test in its places. -/
def programFor (m : Mode) (own : Int) (file : Buffer) (text : Text) : Text :=
  Text.replaceAll Marker.pidCheck.word (testOf m own file) text

variable {source : Source Run} {m : Mode} {own : Int} {text r : Text}

/-! ## The test -/

theorem fillPid_eq_ok {marker : Marker} {numeral : Text} {b b' : Buffer}
    (h : (fillPid marker numeral b).result = .ok b') :
    0 < Text.countWord marker.word b.text ∧ b' = b.replaceAll marker.word numeral := by
  obtain ⟨_, hrequire, hfill⟩ := Run.result_bind_eq_ok h
  refine ⟨?_, (Except.ok.inj hfill).symm⟩
  rw [require] at hrequire
  split_ifs at hrequire with hcount
  · cases hrequire
  · omega

/-- A process that is named has a test with a marker of its own. -/
theorem test_of_some (x : Index) (own : Int) {pid : Pid} (h : m.pid = some pid) :
    testFile x m = x.pidCheck m.fullFeature.isTrue ∧
      checkMarker m = .tracedPid ∧ process m own = pid.number := by
  rw [testFile, checkMarker, process, h]
  exact ⟨rfl, rfl, rfl⟩

/-- Where no process is named, the test is about the one that generates the program. -/
theorem test_of_none (x : Index) (own : Int) (h : m.pid = none) :
    testFile x m = x.pidCheckOwn ∧ checkMarker m = .ownPid ∧ process m own = own := by
  rw [testFile, checkMarker, process, h]
  exact ⟨rfl, rfl, rfl⟩

/-- The test has been loaded, and its marker had a place. -/
theorem pidCheck_eq_ok {check : Buffer} (h : (pidCheck source m own).result = .ok check) :
    ∃ file, (source.load (testFile source.index m)).result = .ok file ∧
      0 < Text.countWord (checkMarker m).word file.text ∧ check.text = testOf m own file := by
  rw [pidCheck] at h
  -- a traced process is told of after its test is loaded, the own one before
  cases hpid : m.pid with
  | some pid =>
    obtain ⟨hname, hmarker, hprocess⟩ := test_of_some source.index own hpid
    rw [hpid] at h
    obtain ⟨file, hload, h⟩ := Run.result_bind_eq_ok h
    obtain ⟨numeral, htell, hfill⟩ := Run.result_bind_eq_ok h
    obtain ⟨hcount, rfl⟩ := fillPid_eq_ok hfill
    have hnumeral := Run.eq_of_result_decimal ((Outline.result_tellTraced _).symm.trans htell)
    rw [hname, hmarker]
    exact ⟨file, hload, hcount, by rw [testOf, hmarker, hprocess, ← hnumeral]; rfl⟩
  | none =>
    obtain ⟨hname, hmarker, hprocess⟩ := test_of_none source.index own hpid
    rw [hpid] at h
    obtain ⟨numeral, htell, h⟩ := Run.result_bind_eq_ok h
    obtain ⟨file, hload, hfill⟩ := Run.result_bind_eq_ok h
    obtain ⟨hcount, rfl⟩ := fillPid_eq_ok hfill
    have hnumeral := Run.eq_of_result_decimal ((Outline.result_tellOwn _).symm.trans htell)
    rw [hname, hmarker]
    exact ⟨file, hload, hcount, by rw [testOf, hmarker, hprocess, ← hnumeral]; rfl⟩

/-! ## The reads -/

theorem expandReads_of_not_usesOverflow (h : m.usesOverflow = false) (program : Buffer) :
    expandReads source m program = pure program := by
  rw [expandReads, h]

/-- Where there are reads beyond two packets, putting them in is loading a block and putting in
    copies of it. -/
theorem expandReads_eq_ok (h : m.usesOverflow = true) {program program' : Buffer}
    (hexpand : (expandReads source m program).result = .ok program') :
    ∃ name block, source.index.block? m.policy = some name ∧
      (source.load name).result = .ok block ∧
      ∀ p : Buffer, (expandReads source m p).result =
        (p.repeatBlock Marker.reads.word block.text ((m.packets : Int) - 2)).result := by
  obtain ⟨name, hname⟩ := Outline.block?_of_usesOverflow source.index h
  have hsteps : ∀ p : Buffer, expandReads source m p = source.load name >>= fun block =>
      p.repeatBlock Marker.reads.word block.text ((m.packets : Int) - 2) := by
    intro p
    rw [expandReads, h, hname]
    rfl
  rw [hsteps] at hexpand
  obtain ⟨block, hload, -⟩ := Run.result_bind_eq_ok hexpand
  refine ⟨name, block, hname, hload, fun p => ?_⟩
  rw [hsteps, Run.result_bind_of_ok hload]

/-! ## The pass -/

theorem finish_eq_ok (h : (finish text).result = .ok r) : r = text ∧ Marker.left text = [] := by
  rw [Outline.result_finish] at h
  cases hleft : Marker.left text with
  | nil =>
    rw [hleft] at h
    exact ⟨(Except.ok.inj h).symm, rfl⟩
  | cons w ws =>
    rw [hleft] at h
    cases h

/-- The steps of a pass that succeeds. -/
theorem apply_eq_ok (h : (apply source m own text).result = .ok r) :
    ∃ check file, (pidCheck source m own).result = .ok check ∧
      (source.load (testFile source.index m)).result = .ok file ∧
      0 < Text.countWord (checkMarker m).word file.text ∧ check.text = testOf m own file ∧
      (∃ name, (expandReads source m ⟨programFor m own file text, "<program>"⟩).result =
        .ok ⟨r, name⟩) ∧
      Marker.left r = [] := by
  obtain ⟨check, hcheck, h⟩ := Run.result_bind_eq_ok h
  obtain ⟨file, hload, hcount, htext⟩ := pidCheck_eq_ok hcheck
  obtain ⟨program, hexpand, hfinish⟩ := Run.result_bind_eq_ok h
  obtain ⟨hprogram, hleft⟩ := finish_eq_ok hfinish
  subst hprogram
  rw [Buffer.replaceAll, htext] at hexpand
  exact ⟨check, file, hcheck, hload, hcount, htext, ⟨program.name, hexpand⟩, hleft⟩

theorem not_infix_of_left (h : Marker.left r = []) : ∀ w ∈ Marker.words, ¬ w <:+: r := by
  intro w hw hpart
  have hmem : w ∈ Marker.left r := Marker.mem_left.2 ⟨hw, (Text.hasWord_iff w r).2 hpart⟩
  rw [h] at hmem
  cases hmem

/-- The program with the test in its places is longer by the tests and shorter by the markers. -/
theorem length_programFor (m : Mode) (own : Int) (file : Buffer) (text : Text) :
    ((programFor m own file text).length : Int) =
      text.length + Text.countWord Marker.pidCheck.word text *
        (((testOf m own file).length : Int) - Marker.pidCheck.word.length) :=
  Text.length_replaceAll Marker.pidCheck.word_ne_nil _ _

theorem length_testOf (m : Mode) (own : Int) (file : Buffer) :
    ((testOf m own file).length : Int) =
      file.text.length + Text.countWord (checkMarker m).word file.text *
        (((Numeral.decimal (process m own)).length : Int) - (checkMarker m).word.length) :=
  Text.length_replaceAll (checkMarker m).word_ne_nil _ _

/-- The marker of the reads had one place, if copies have gone in the first one and no marker is
    left. -/
theorem existsUnique_place {program before after copies : Text} {w : Text}
    (hcut : Text.cut? w program = some (before, after)) (hbars : Text.Bars w w)
    (hleft : ¬ w <:+: before ++ copies ++ after) :
    ∃! b, b ++ w <+: program := by
  have hprogram := Text.append_of_cut? hcut
  have hbefore : ¬ w <:+: before := fun hpart =>
    hleft (hpart.trans ⟨[], copies ++ after, by rw [List.nil_append, List.append_assoc]⟩)
  have hafter : ¬ w <:+: after := fun hpart =>
    hleft (hpart.trans (List.suffix_append _ after).isInfix)
  refine ⟨before, ⟨after, hprogram⟩, ?_⟩
  rintro b ⟨a, hb⟩
  have hplaces : b ++ (w ++ a) = before ++ (w ++ after) := by
    rw [← List.append_assoc, ← List.append_assoc, hb, hprogram]
  exact Text.eq_of_append_word hbars hbefore hafter hplaces

/-- A second pass finds no place for the test, and puts in the reads or not as the first one. -/
theorem apply_again (h : (apply source m own text).result = .ok r) :
    (m.usesOverflow = false → (apply source m own r).result = .ok r) ∧
    (m.usesOverflow = true →
      (apply source m own r).result = .error (.markerMissing Marker.reads.word)) := by
  obtain ⟨check, file, hcheck, -, -, -, ⟨name, hexpand⟩, hleft⟩ := apply_eq_ok h
  have hwords := not_infix_of_left hleft
  have hnone (marker : Marker) : Text.hasWord marker.word r = false :=
    (Text.hasWord_eq_false_iff _ _).2 (hwords _ (List.mem_map_of_mem (Marker.mem_all marker)))
  have hsame : Text.replaceAll Marker.pidCheck.word check.text r = r :=
    Text.replaceAll_of_not_hasWord Marker.pidCheck.word_ne_nil _ (hnone .pidCheck)
  refine ⟨fun huses => ?_, fun huses => ?_⟩
  · have hagain : (expandReads source m ⟨Text.replaceAll Marker.pidCheck.word check.text r,
        "<program>"⟩).result = .ok ⟨r, "<program>"⟩ := by
      rw [expandReads_of_not_usesOverflow huses, hsame]
      rfl
    rw [Outline.result_apply_of_ok own hcheck hagain, Outline.result_finish, hleft]
  · obtain ⟨_, block, -, -, hrepeat⟩ := expandReads_eq_ok huses hexpand
    rw [hrepeat] at hexpand
    have hagain : (expandReads source m ⟨Text.replaceAll Marker.pidCheck.word check.text r,
        "<program>"⟩).result = .error (.markerMissing Marker.reads.word) := by
      rw [hrepeat, hsame]
      exact Buffer.result_repeatBlock_of_missing hexpand (hnone .reads)
    exact Outline.result_apply_of_error own hcheck hagain

/-- For any fragments and any program: if the last pass succeeds, no marker is left, the length
    is that of the program and of what has gone in its places, and a second pass finds nothing
    to do; where there are reads beyond two packets, it misses the one place that they had. -/
theorem apply_conserves (source : Source Run) (m : Mode) (own : Int) {text r : Text}
    (h : (apply source m own text).result = .ok r) :
    (∀ w ∈ Marker.words, ¬ w <:+: r) ∧
    (∃ (file : Buffer) (added : Int),
      (source.load (testFile source.index m)).result = .ok file ∧
      1 ≤ Text.countWord (checkMarker m).word file.text ∧
      ((testOf m own file).length : Int) =
        file.text.length + Text.countWord (checkMarker m).word file.text *
          (((Numeral.decimal (process m own)).length : Int) - (checkMarker m).word.length) ∧
      (r.length : Int) =
        text.length + Text.countWord Marker.pidCheck.word text *
          (((testOf m own file).length : Int) - Marker.pidCheck.word.length) + added ∧
      (m.usesOverflow = false → added = 0) ∧
      (m.usesOverflow = true →
        ∃ name block, source.index.block? m.policy = some name ∧
          (source.load name).result = .ok block ∧
          added = ((m.packets : Int) - 2) * block.text.length - Marker.reads.word.length ∧
          Text.countWord Marker.reads.word (programFor m own file text) = 1 ∧
          ∃! before, before ++ Marker.reads.word <+: programFor m own file text)) ∧
    (m.usesOverflow = false → (apply source m own r).result = .ok r) ∧
    (m.usesOverflow = true →
      (apply source m own r).result = .error (.markerMissing Marker.reads.word)) := by
  obtain ⟨check, file, -, hload, hcount, -, ⟨name, hexpand⟩, hleft⟩ := apply_eq_ok h
  have hwords := not_infix_of_left hleft
  have hprogram := length_programFor m own file text
  refine ⟨hwords, ⟨file, (r.length : Int) - (programFor m own file text).length, hload, hcount,
    length_testOf m own file, by omega, fun huses => ?_, fun huses => ?_⟩, apply_again h⟩
  · rw [expandReads_of_not_usesOverflow huses] at hexpand
    cases hexpand
    omega
  · have hpackets := Outline.lt_packets_of_usesOverflow huses
    obtain ⟨blockName, block, hname, hblock, hrepeat⟩ := expandReads_eq_ok huses hexpand
    rw [hrepeat] at hexpand
    obtain ⟨before, after, hcut, hr⟩ := Buffer.repeatBlock_eq_ok hexpand
    cases hr
    have hreads := hwords Marker.reads.word (List.mem_map_of_mem (Marker.mem_all .reads))
    -- nothing is left of the word behind the place, since all of that is in the result
    have hafter : Text.hasWord Marker.reads.word after = false :=
      (Text.hasWord_eq_false_iff _ _).2 fun hpart =>
        hreads (hpart.trans (List.suffix_append _ after).isInfix)
    refine ⟨blockName, block, hname, hblock, ?_, ?_, existsUnique_place hcut
      (Marker.bars_word .reads) hreads⟩
    · have hlength := congrArg List.length (Text.append_of_cut? hcut)
      have hcopies : (((m.packets : Int) - 2).toNat : Int) = (m.packets : Int) - 2 :=
        Int.toNat_of_nonneg (by omega)
      simp only [List.length_append] at hlength
      rw [← hlength]
      simp only [List.length_append, Text.length_copies, Nat.cast_add, Nat.cast_mul, hcopies]
      ring
    · rw [Text.countWord_of_cut? Marker.reads.word_ne_nil hcut,
        (Text.countWord_eq_zero_iff Marker.reads.word_ne_nil after).2 hafter]

/-- A pass that puts in a test and two blocks: the second one misses the place of the blocks. -/
theorem apply_conserves_blocks :
    let source : Source Run :=
      { index := Index.usual
        loadVerbatim := fun name => pure
          { text := if name = Index.usual.fullBlock then "again;\r\n" else "if (pid != TRACED_PID)",
            name := name } }
    let m : Mode := { policy := .full, packets := 4, pid := some ⟨7, by decide⟩ }
    let text : Text := "PID_CHECK_HOOK once; READ_AND_SUBMIT_N_MINUS_2_PACKETS"
    let r : Text := "if (pid != 7) once; again;\nagain;\n"
    (apply source m 4711 text).result = .ok r ∧ (∀ w ∈ Marker.words, ¬ w <:+: r) ∧
      (apply source m 4711 r).result = .error (.markerMissing Marker.reads.word) := by
  intro source m text r
  have hresult : (apply source m 4711 text).result = .ok r :=
    eq_ok_of_toOption (by decide +kernel)
  obtain ⟨hwords, -, -, hagain⟩ := apply_conserves source m 4711 hresult
  exact ⟨hresult, hwords, hagain rfl⟩

end Attach

end Tracewright
