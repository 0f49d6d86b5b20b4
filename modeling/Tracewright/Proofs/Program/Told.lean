/-
  Tracewright.Proofs.Program.Told

  What is told while a program is generated.  Every step is quiet but four:
  the look-up of the usual name, the choice of a handler, the end of the
  assembly, and the test of the process.

    * `Run.tells_assemble`, `Run.tells_apply`
                         — the two parts of a generation.
    * `toldOf`           — what a program that is made has told.
    * `generate_tells`   — it has told that, and it is made if nothing is in
                           its way.
-/
import Tracewright.Proofs.Program.Handler
import Tracewright.Proofs.Program.Listing
import Tracewright.Proofs.Program.Names

namespace Tracewright

open Run (Tells)

variable {source : Source Run} {m : Mode} {s : Selection} {c : Catalog}

/-! ## Records -/

/-- What is told of a mode without an expression. -/
def Mode.defaulting (m : Mode) : List Log.Record :=
  if m.expression.isNone then
    [⟨Log.Level.info, Log.Source.assembly, "defaulting to 'all'"⟩]
  else []

/-- What is told of handlers that are complete, with the expression as it is given. -/
def Mode.completion (m : Mode) (count : Nat) : Log.Record :=
  ⟨Log.Level.info, Log.Source.assembly, ("Generated handlers for " : Text) ++
    Numeral.decimal count ++ (" syscalls (expression '" : Text) ++ m.expression.getD "all" ++
    ("')" : Text)⟩

/-- What is told of the process that is traced, or else of the one that is not. -/
def Mode.process (m : Mode) (own : Int) : Log.Record :=
  match m.pid with
  | some pid =>
    ⟨Log.Level.info, Log.Source.attach, ("Tracing PID " : Text) ++ Numeral.decimal pid.number⟩
  | none =>
    ⟨Log.Level.info, Log.Source.attach, ("will not trace my own PID " : Text) ++
      Numeral.decimal own ++ (" (0x" : Text) ++ Numeral.hexadecimal own ++ (")" : Text)⟩

/-- What a program for these calls has told when it is made: the warnings stand in the order of
    the calls. -/
def toldOf (m : Mode) (own : Int) (ds : List Descriptor) : List Log.Record :=
  m.defaulting ++ ds.flatMap (fun d => d.clampWarnings m) ++ [m.completion ds.length] ++
    [m.process own]

namespace Run

/-! ## Assembling -/

theorem tells_resolve (m : Mode) : Tells m.defaulting (Selection.resolve m.expression) := by
  rw [Mode.defaulting, Selection.resolve]
  cases m.expression with
  | none => exact (tells_record (by decide) _ _).bind_quiet fun _ _ => quiet_pure _
  | some name =>
    refine Quiet.tells ?_
    simp only [Option.isNone_some, Bool.false_eq_true, if_false, Option.getD_some]
    split
    · exact quiet_pure _
    · exact quiet_complaint _ _ _

theorem quiet_head (h : source.IsQuiet) (m : Mode) : (Assembly.head source m).Quiet := by
  refine (h _).bind fun b _ => Quiet.bind ?_ fun defs _ => ?_
  · exact (h.load _).bind fun _ _ => quiet_pure _
  · exact (b.quiet_replaceFirst _ _).bind fun _ _ => quiet_pure _

theorem tells_case (d : Descriptor) (m : Mode) : Tells (d.clampWarnings m) (d.case m) := by
  intro _ _
  rw [d.case_eq m, told, List.filter_eq_self]
  intro r hr
  rw [Descriptor.clampWarnings] at hr
  split_ifs at hr
  · have hlevel : Log.Level.info ≤ Log.Level.warning := by decide
    rw [List.mem_singleton.1 hr]
    exact decide_eq_true hlevel
  · exact absurd hr List.not_mem_nil

theorem tells_select (h : source.IsQuiet) (d : Descriptor) (m : Mode) :
    Tells (d.clampWarnings m) (Handler.select source d m) :=
  (tells_case d m).bind_quiet fun case _ => (Handler.quiet_fragment h d m case).bind fun b _ =>
    Handler.quiet_complete d case b

theorem tells_handler (h : source.IsQuiet) (d : Descriptor) (m : Mode) :
    Tells (d.clampWarnings m) (Assembly.handler source m d) :=
  ((tells_select h d m).telling _).bind_quiet fun _ _ => quiet_pure _

theorem quiet_exitHandler (h : source.IsQuiet) : (Assembly.exitHandler source).Quiet :=
  (h.load _).bind fun _ _ => quiet_pure _

/-- The pieces tell of the calls, each in its turn; the head and the common exit are quiet. -/
theorem tells_pieces (h : source.IsQuiet) (m : Mode) (s : Selection) (ds : List Descriptor) :
    Tells ((Assembly.selected s.mask ds).flatMap fun d => d.clampWarnings m)
      (inTurn (Assembly.pieces source m s ds)) := by
  have hhandlers : List.Forall₂ Tells
      ((Assembly.selected s.mask ds).map fun d => d.clampWarnings m)
      (Assembly.handlers source m s.mask ds) :=
    List.forall₂_map_left_iff.2 (List.forall₂_map_right_iff.2
      (List.forall₂_same.2 fun d _ => tells_handler h d m))
  have hexit : List.Forall₂ Tells ((Assembly.tracepoints source s).map fun _ => [])
      (Assembly.tracepoints source s) := by
    rw [List.forall₂_map_left_iff, List.forall₂_same]
    intro x hx
    rw [Assembly.tracepoints] at hx
    split_ifs at hx
    · rw [List.mem_singleton.1 hx]
      exact (quiet_exitHandler h).tells
    · exact absurd hx List.not_mem_nil
  have hpieces := tells_inTurn
    (List.Forall₂.cons (quiet_head h m).tells (List.rel_append hhandlers hexit))
  have hnothing : ((Assembly.tracepoints source s).map fun _ => ([] : List Log.Record)).flatten =
      [] := by simp
  rw [List.flatten_cons, List.nil_append, List.flatten_append, hnothing, List.append_nil] at hpieces
  exact hpieces

/-- An assembly tells of the expression, then of the calls, and then that it is complete. -/
theorem tells_assemble (h : source.IsQuiet)
    (hs : Selection.ofName? (m.expression.getD Selection.usualName) = some s) :
    Tells (m.defaulting ++ ((c.select s.mask).flatMap (fun d => d.clampWarnings m) ++
      [m.completion (c.select s.mask).length])) (Assembly.assemble source c m) := by
  refine (tells_resolve m).bind fun s' hs' => ?_
  cases (Selection.result_resolve_of_some hs).symm.trans hs'
  refine (tells_pieces h m s c.toList).bind fun texts _ => ?_
  have hcomplete : Tells [m.completion (c.select s.mask).length]
      (Assembly.tellComplete m (Assembly.selected s.mask c.toList).length) :=
    tells_record (by decide) _ _
  exact hcomplete.bind_quiet fun _ _ => quiet_pure _

/-! ## The last pass -/

theorem quiet_fillPid (marker : Marker) (numeral : Text) (b : Buffer) :
    (Attach.fillPid marker numeral b).Quiet := by
  refine Quiet.bind ?_ fun _ _ => quiet_pure _
  rw [Attach.require]
  split_ifs
  · exact quiet_fail _
  · exact quiet_pure _

theorem tells_tellTraced (pid : Int) : Tells
    [⟨Log.Level.info, Log.Source.attach, ("Tracing PID " : Text) ++ Numeral.decimal pid⟩]
    (Attach.tellTraced pid) := by
  refine (quiet_decimal pid).bind_tells fun numeral hnumeral => ?_
  rw [eq_of_result_decimal hnumeral]
  exact (tells_record (by decide) _ _).bind_quiet fun _ _ => quiet_pure _

theorem tells_tellOwn (own : Int) : Tells
    [⟨Log.Level.info, Log.Source.attach, ("will not trace my own PID " : Text) ++
      Numeral.decimal own ++ (" (0x" : Text) ++ Numeral.hexadecimal own ++ (")" : Text)⟩]
    (Attach.tellOwn own) := by
  refine (quiet_decimal own).bind_tells fun numeral hnumeral => ?_
  rw [eq_of_result_decimal hnumeral]
  exact (tells_record (by decide) _ _).bind_quiet fun _ _ => quiet_pure _

/-- The test is told of once, before or after its fragment is taken. -/
theorem tells_pidCheck (h : source.IsQuiet) (m : Mode) (own : Int) :
    Tells [m.process own] (Attach.pidCheck source m own) := by
  rw [Mode.process, Attach.pidCheck]
  cases m.pid with
  | some pid =>
    exact (h.load _).bind_tells fun b _ => (tells_tellTraced pid.number).bind_quiet fun numeral _ =>
      quiet_fillPid _ numeral b
  | none =>
    exact (tells_tellOwn own).bind_quiet fun numeral _ => (h.load _).bind fun b _ =>
      quiet_fillPid _ numeral b

theorem quiet_repeatBlock (b : Buffer) (word block : Text) (count : Int) :
    (b.repeatBlock word block count).Quiet := by
  rw [Buffer.repeatBlock]
  split_ifs
  · exact quiet_fail _
  · exact quiet_fail _
  · exact quiet_fail _
  · split
    · exact quiet_pure _
    · exact b.quiet_missing word

theorem quiet_expandReads (h : source.IsQuiet) (m : Mode) (program : Buffer) :
    (Attach.expandReads source m program).Quiet := by
  rw [Attach.expandReads]
  split
  · exact (h.load _).bind fun block _ => quiet_repeatBlock _ _ _ _
  · exact quiet_pure program

theorem quiet_finish (text : Text) : (Attach.finish text).Quiet := by
  rw [Attach.finish]
  split
  · exact quiet_pure text
  · exact quiet_complaint _ _ _

/-- The last pass tells of the process only. -/
theorem tells_apply (h : source.IsQuiet) (m : Mode) (own : Int) (text : Text) :
    Tells [m.process own] (Attach.apply source m own text) :=
  (tells_pidCheck h m own).bind_quiet fun _ _ => (quiet_expandReads h m _).bind fun program _ =>
    quiet_finish program.text

/-- What is told of a program that is made, from whatever fragments. -/
theorem tells_generate (h : source.IsQuiet) (own : Int)
    (hs : Selection.ofName? (m.expression.getD Selection.usualName) = some s) :
    Tells (toldOf m own (c.select s.mask)) (generate source c m own) := by
  have hgenerate := (tells_assemble (c := c) h hs).bind fun text _ => tells_apply h m own text
  rw [← List.append_assoc] at hgenerate
  exact hgenerate

end Run

/-! ## Programs that are made -/

open Outline (hindrance?) in
/-- Calls with plain names and numbers that can be written, under an expression that is known.  A
    program that is made has told this and nothing else, the warnings by ascending number.  It is
    made unless the process cannot be written or the reads cannot be made. -/
theorem generate_tells (own : Int)
    (hs : Selection.ofName? (m.expression.getD Selection.usualName) = some s)
    (hnumbers : ∀ d ∈ c.select s.mask, Numeral.isWritable d.number = true)
    (hnames : ∀ d ∈ c.select s.mask, ∀ w ∈ Marker.words, ¬ w <:+: d.name) :
    (∀ t, (generate Store.packaged.source c m own).result = .ok t →
        (generate Store.packaged.source c m own).told = toldOf m own (c.select s.mask)) ∧
      (c.select s.mask).Pairwise (·.number < ·.number) ∧
      ((∃ t, (generate Store.packaged.source c m own).result = .ok t) ↔
        hindrance? m own = none) := by
  refine ⟨Run.tells_generate Store.packaged.isQuiet_source own hs,
    Assembly.select_ascending c s.mask, ?_⟩
  have hresult := Outline.result_generate own hs hnumbers
  rw [Outline.left_of_plain hnames] at hresult
  rw [hresult]
  cases hindrance? m own with
  | some e =>
    refine ⟨fun h => ?_, fun h => nomatch h⟩
    obtain ⟨t, ht⟩ := h
    cases ht
  | none => exact ⟨fun _ => rfl, fun _ => ⟨_, rfl⟩⟩

/-- Three calls, two of them with more strings than are captured, but one of these ends a
    process. -/
theorem generate_tells_three :
    let quartet : Descriptor := ⟨2, "quartet", true, [3, 2, 1, 0], 15⟩
    let c : Catalog := ⟨[quartet, ⟨60, "exit", true, [0, 1, 2, 3], 15⟩, ⟨-7, "open", true, [0], 1⟩],
      by decide⟩
    let m : Mode := { fullFeature := .bool true, expression := some "KP-all" }
    (generate Store.packaged.source c m 4711).told = [
      quartet.clampWarning,
      ⟨Log.Level.info, "ebpfgen.generator.assembler",
        "Generated handlers for 3 syscalls (expression 'KP-all')"⟩,
      ⟨Log.Level.info, "ebpfgen.generator.attach", "will not trace my own PID 4711 (0x1267)"⟩] := by
  intro quartet c m
  have hs : Selection.ofName? (m.expression.getD Selection.usualName) = some ⟨0, false⟩ := by
    decide
  have hsmall : ∀ d ∈ c.select 0, d.number.natAbs < Nat.pow 10 9 := by decide
  have hroom : Outline.hindrance? m 4711 = none :=
    Outline.hindrance?_of_not_usesOverflow (Numeral.isWritable_of_lt (by decide)) (by decide)
  obtain ⟨htold, -, hmade⟩ := generate_tells 4711 hs
    (fun d hd => Numeral.isWritable_of_lt (hsmall d hd)) (by decide)
  obtain ⟨t, ht⟩ := hmade.2 hroom
  rw [htold t ht]
  decide +kernel

end Tracewright
