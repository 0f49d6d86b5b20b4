/-
  Tracewright.Proofs.Program.Names

  What the names of system calls do to a program.  A name is put into a
  program as it stands, and the last pass goes over it again.

    * `result_generate_of_plain_names` — names without markers: the program is
                                         the outline, word for word.
    * `result_generate_of_marked_name` — a marker in a name, outside its
                                         markers of the test: there is no
                                         program, and the marker is told.
-/
import Tracewright.Proofs.Program.Attach

namespace Tracewright.Outline

variable {c : Catalog} {m : Mode} {s : Selection}

/-! ## Plain names -/

/-- A name without markers is shown as it is. -/
theorem shownName_of_plain {m : Mode} {own : Int} {d : Descriptor}
    (h : ∀ w ∈ Marker.words, ¬ w <:+: d.name) : shownName m own d = d.name := by
  have hmem : Marker.pidCheck.word ∈ Marker.words := List.mem_map_of_mem (Marker.mem_all _)
  exact Text.replaceAll_of_not_hasWord Marker.pidCheck.word_ne_nil _
    ((Text.hasWord_eq_false_iff _ _).2 (h _ hmem))

/-- Names without markers leave nothing in a program. -/
theorem left_of_plain {ds : List Descriptor}
    (h : ∀ d ∈ ds, ∀ w ∈ Marker.words, ¬ w <:+: d.name) : left ds = [] := by
  rw [left, List.filter_eq_nil_iff]
  intro w hw hleft
  obtain ⟨w, -, rfl⟩ := List.mem_map.1 hw
  obtain ⟨d, hd, hpieces⟩ := List.any_eq_true.1 hleft
  -- cutting at a word that is not there yields the name itself
  have hshown : Text.hasWord w.word (shownName {} 0 d) = true :=
    (hasWord_replaceAll_check w {} 0 d.name).trans hpieces
  rw [shownName_of_plain (h d hd), Text.hasWord_iff] at hshown
  exact h d hd _ hw hshown

/-- Names without markers: the program is the outline with every marker filled in at once,
    unless the process cannot be written or the reads cannot be made. -/
theorem result_generate_of_plain_names (own : Int)
    (hs : Selection.ofName? (m.expression.getD Selection.usualName) = some s)
    (hnumbers : ∀ d ∈ c.select s.mask, Numeral.isWritable d.number = true)
    (hnames : ∀ d ∈ c.select s.mask, ∀ w ∈ Marker.words, ¬ w <:+: d.name) :
    (generate Store.packaged.source c m own).result =
      match hindrance? m own with
      | some e => .error e
      | none => .ok (program m own s c) := by
  have hhandlers : ((c.select s.mask).map fun d => handler m (check m own) (shownName m own d) d) =
      (c.select s.mask).map fun d => handler m (check m own) d.name d := by
    rw [List.map_inj_left]
    intro d hd
    rw [shownName_of_plain (hnames d hd)]
  have hresult := result_generate own hs hnumbers
  rw [left_of_plain hnames, draft, hhandlers] at hresult
  -- with nothing left and the names as they are, the draft is the program
  refine hresult.trans ?_
  cases hindrance? m own <;> rfl

/-- Two calls, one with more strings than are captured and a negative number. -/
theorem result_generate_of_plain_names_two :
    let c : Catalog := ⟨[⟨2, "open", true, [0], 1⟩, ⟨-7, "quartet", true, [3, 2, 1, 0], 15⟩], by decide⟩
    let m : Mode := { policy := .full, packets := 4, expression := some "KP-all" }
    (generate Store.packaged.source c m 4711).result = .ok (program m 4711 ⟨0, false⟩ c) := by
  intro c m
  have hprocess : Numeral.isWritable (process m 4711) = true :=
    Numeral.isWritable_of_lt (by decide)
  have hfault : copiesFault? (m.packets - 2) (block m) = none :=
    Option.isNone_iff_eq_none.1 (by decide +kernel)
  have hnone : hindrance? m 4711 = none := by
    rw [hindrance?, hprocess, hfault]
    rfl
  have hsmall : ∀ d ∈ c.select 0, d.number.natAbs < Nat.pow 10 9 := by decide
  have h := result_generate_of_plain_names (c := c) (m := m) (s := ⟨0, false⟩) 4711
    (by decide) (fun d hd => Numeral.isWritable_of_lt (hsmall d hd)) (by decide)
  rwa [hnone] at h

/-- The reads may be too many to be made, and then there is no program. -/
theorem generate_too_large :
    let m : Mode := { policy := .full, packets := Nat.pow 2 64 + 2, expression := some "kp-all" }
    Selection.ofName? "kp-all" = some ⟨0, false⟩ ∧
      (generate Store.packaged.source Catalog.empty m 4711).result = .error .tooLarge := by
  intro m
  have hs : Selection.ofName? (m.expression.getD Selection.usualName) = some ⟨0, false⟩ := by
    decide
  have hfault : hindrance? m 4711 = some .tooLarge :=
    hindrance?_of_tooMany (Numeral.isWritable_of_lt (by decide)) (by decide) (by decide)
  refine ⟨by decide, ?_⟩
  rw [result_generate 4711 hs (fun d hd => by cases hd), hfault]

/-! ## Names with markers -/

/-- A marker in the name of a selected call, outside its markers of the test, stays in the
    program, so there is none: the words that stay are told, unless the process cannot be
    written or the reads cannot be made. -/
theorem result_generate_of_marked_name (own : Int)
    (hs : Selection.ofName? (m.expression.getD Selection.usualName) = some s)
    (hnumbers : ∀ d ∈ c.select s.mask, Numeral.isWritable d.number = true)
    {d : Descriptor} (hd : d ∈ c.select s.mask) (w piece : Text) (hw : w ∈ Marker.words)
    (hpiece : piece ∈ Text.split Marker.pidCheck.word d.name) (hword : w <:+: piece) :
    ∃ ws : List Text,
      (generate Store.packaged.source c m own).result =
          (match hindrance? m own with
          | some e => .error e
          | none => .error (.markersLeft ws)) ∧
        w ∈ ws ∧ ∀ w', w' ∈ ws ↔ w' ∈ Marker.words ∧ ∃ d ∈ c.select s.mask,
          ∃ piece ∈ Text.split Marker.pidCheck.word d.name, w' <:+: piece := by
  have hleft : w ∈ left (c.select s.mask) := mem_left.2 ⟨hw, d, hd, piece, hpiece, hword⟩
  refine ⟨left (c.select s.mask), ?_, hleft, fun w' => mem_left⟩
  refine (result_generate own hs hnumbers).trans ?_
  -- the last scan has found at least this one word
  cases hws : left (c.select s.mask) with
  | nil => rw [hws] at hleft; exact absurd hleft List.not_mem_nil
  | cons w' ws => cases hindrance? m own <;> rfl

/-- A name with the marker of a slot. -/
theorem result_generate_of_marked_name_slot :
    let c : Catalog := ⟨[⟨0, "read", true, [], 0⟩, ⟨9, "xSTR2PID_CHECK_HOOK", true, [0], 1⟩],
      by decide⟩
    ∃ ws : List Text, (generate Store.packaged.source c {} 4711).result =
      .error (.markersLeft ws) ∧ (Marker.slot 1).word ∈ ws := by
  intro c
  have hroom : hindrance? {} 4711 = none :=
    hindrance?_of_not_usesOverflow (Numeral.isWritable_of_lt (by decide)) (by decide)
  have hsmall : ∀ d ∈ c.select 0, d.number.natAbs < Nat.pow 10 9 := by decide
  obtain ⟨ws, hresult, hw, -⟩ := result_generate_of_marked_name (c := c) (m := {})
    (s := ⟨0, true⟩) (d := ⟨9, "xSTR2PID_CHECK_HOOK", true, [0], 1⟩) 4711 (by decide)
    (fun d hd => Numeral.isWritable_of_lt (hsmall d hd)) (by decide) (Marker.slot 1).word
    "xSTR2" (by decide) (by decide) (by decide)
  rw [hroom] at hresult
  exact ⟨ws, hresult, hw⟩

/-- A name that is the marker of the test is rewritten, and there is a program. -/
theorem generate_rewrites_test_marker :
    let d : Descriptor := ⟨1, "PID_CHECK_HOOK", true, [], 0⟩
    let c : Catalog := ⟨[d], by decide⟩
    let m : Mode := { expression := some "kp-all", pid := some ⟨7, by decide⟩ }
    Selection.ofName? "kp-all" = some ⟨0, false⟩ ∧ d ∈ c.select 0 ∧
      Marker.pidCheck.word ∈ Marker.words ∧ Marker.pidCheck.word <:+: d.name ∧
      ∃ t : Text, (generate Store.packaged.source c m 4711).result = .ok t := by
  intro d c m
  have hs : Selection.ofName? (m.expression.getD Selection.usualName) = some ⟨0, false⟩ := by
    decide
  have hroom : hindrance? m 4711 = none :=
    hindrance?_of_not_usesOverflow (Numeral.isWritable_of_lt (by decide)) (by decide)
  have hsmall : ∀ d ∈ c.select 0, d.number.natAbs < Nat.pow 10 9 := by decide
  have hleft : left (c.select 0) = [] := by decide
  refine ⟨by decide, by decide, by decide, by decide, ?_⟩
  have hresult := result_generate (c := c) (s := ⟨0, false⟩) 4711 hs
    fun d hd => Numeral.isWritable_of_lt (hsmall d hd)
  rw [hroom, hleft] at hresult
  exact ⟨_, hresult⟩

end Tracewright.Outline
