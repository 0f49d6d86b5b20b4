/-
  Tracewright.Proofs.Program.Listing

  A listing of the system calls that are selected shows the calls that a
  program has handlers for.

    * `writeHandlers_run`  — the stream after the handlers, and their number.
    * `Console.writeSelection_run` — the text of a listing.
    * `listing_agrees`     — a program that has been written and the listing
                             of its selection: the same calls in one order,
                             and one number of them.
-/
import Tracewright.Output.Console
import Tracewright.Proofs.Program.Assembly
import Tracewright.Proofs.Program.Stream

namespace Tracewright

/-! ## Listings -/

namespace Console

/-- The line of a system call, whatever its number. -/
def rowText (d : Descriptor) : Text :=
  ("  " : Text) ++ Text.padLeft 4 (Numeral.decimal d.number) ++ ("  " : Text)
    ++ Text.padRight 16 d.name ++ (" strings=" : Text) ++ slotList d ++ ['\n']

theorem result_row {d : Descriptor} (h : Numeral.isWritable d.number = true) :
    (row d).result = .ok (rowText d) := by
  rw [row, Run.result_bind_of_ok (Run.result_decimal h), rowText]
  rfl

/-- The lines of system calls go to a stream one after the other. -/
theorem writeRows_run {ds : List Descriptor}
    (h : ∀ d ∈ ds, Numeral.isWritable d.number = true) (pieces : List Text) :
    (writeRows ds ⟨pieces, none⟩).1.result = .ok () ∧
      (writeRows ds ⟨pieces, none⟩).2.text =
        Sink.text ⟨pieces, none⟩ ++ (ds.map rowText).flatten := by
  induction ds generalizing pieces with
  | nil => exact ⟨rfl, (List.append_nil _).symm⟩
  | cons d ds ih =>
    -- a number that can be written never ends the listing, and neither does the stream
    have hrow := result_row (h d List.mem_cons_self)
    obtain ⟨hresult, htext⟩ := ih (fun d hd => h d (List.mem_cons_of_mem _ hd))
      (rowText d :: pieces)
    have hline := Action.run_bind_of_ok (x := Sink.write (rowText d))
      (s := ⟨pieces, none⟩) (t := ⟨rowText d :: pieces, none⟩) rfl rfl fun _ => writeRows ds
    have hrest := Action.run_lift_bind_of_ok hrow (fun line => do
      Sink.write line
      writeRows ds) (⟨pieces, none⟩ : Sink)
    rw [writeRows, hrest.1, hrest.2, hline.1, hline.2, htext, Assembly.text_cons ⟨pieces, none⟩,
      List.map_cons, List.flatten_cons, List.append_assoc]
    exact ⟨hresult, rfl⟩

/-- A header names the expression and tells the number, in one colour or in none. -/
theorem header_eq (colours : Bool) (expression : Text) (count : Nat) :
    header colours expression count =
      (if colours then cyan else []) ++ ("Syscalls selected by '" : Text) ++ expression
        ++ ("': " : Text) ++ Numeral.decimal count ++ (if colours then plain else [])
        ++ ['\n'] := by
  cases colours with
  | false => simp [header]
  | true => simp [header, coloured]

/-- A listing is its header and a line for each system call. -/
theorem writeSelection_run {ds : List Descriptor}
    (h : ∀ d ∈ ds, Numeral.isWritable d.number = true) (colours : Bool) (expression : Text) :
    (writeSelection colours ds expression {}).1.result = .ok () ∧
      (writeSelection colours ds expression {}).2.text =
        header colours expression ds.length ++ (ds.map rowText).flatten := by
  obtain ⟨hresult, htext⟩ := writeRows_run h [header colours expression ds.length]
  have hheader := Action.run_bind_of_ok (x := Sink.write (header colours expression ds.length))
    (s := {}) (t := ⟨[header colours expression ds.length], none⟩) rfl rfl fun _ => writeRows ds
  rw [writeSelection, hheader.1, hheader.2, htext]
  exact ⟨hresult, congrArg (· ++ _) (List.append_nil _)⟩

end Console

/-! ## Handlers -/

namespace Assembly

variable {source : Source Run} {c : Catalog} {m : Mode} {s : Selection}

/-- A call whose handler can be made has a number that can be written. -/
theorem isWritable_of_select {d : Descriptor} {b : Buffer}
    (h : (Handler.select source d m).result = .ok b) : Numeral.isWritable d.number = true := by
  -- the kind, the fragment, and then the number: each step has succeeded
  obtain ⟨case, -, h⟩ := Run.result_bind_eq_ok (x := d.case m) h
  obtain ⟨b', -, h⟩ := Run.result_bind_eq_ok (x := Handler.fragment source d m case) h
  have h : (Handler.complete d case b').result = .ok b := h
  rw [Handler.complete] at h
  obtain ⟨number, hnumber, -⟩ := Run.result_bind_eq_ok h
  cases hn : Numeral.isWritable d.number with
  | true => rfl
  | false =>
    rw [Run.result_decimal_of_overlong hn] at hnumber
    cases hnumber

/-- The stream after the handlers of the calls that a mask selects, and their number, if the
    run ends well. -/
theorem writeHandlers_run (source : Source Run) (c : Catalog) (m : Mode) (mask : Mask)
    (sink : Sink) :
    let rs := (c.select mask).map fun d => textResult (Handler.select source d m).result
    (writeHandlers source m mask c.toList sink).1.result =
        (ending sink.room rs).map (fun _ => (c.select mask).length) ∧
      (writeHandlers source m mask c.toList sink).2.text =
        sink.text ++ textOf (takenCount sink.room (madeCount rs)) rs := by
  intro rs
  obtain ⟨hresult, htext⟩ := writeInTurn_run (handlers source m mask c.toList) sink
  rw [map_result_handlers] at hresult htext
  have hlength : 0 + (selected mask c.toList).length = (c.select mask).length := Nat.zero_add _
  rw [writeHandlers, writeHandlersFrom_eq, hlength]
  cases hending : ending sink.room rs with
  | error e =>
    rw [Action.bind_of_error (hresult.trans hending)]
    exact ⟨rfl, htext⟩
  | ok u =>
    rw [Action.bind_of_ok (hresult.trans hending)]
    exact ⟨rfl, htext⟩

/-- The last record of a run that ends well tells how many handlers there are. -/
theorem getLast?_log_writeAll {sink : Sink}
    (hs : Selection.ofName? (m.expression.getD Selection.usualName) = some s)
    (hok : (writeAll source c m sink).1.result = .ok ()) :
    (writeAll source c m sink).1.log.getLast? = some ⟨Log.Level.info, Log.Source.assembly,
      ("Generated handlers for " : Text) ++ Numeral.decimal (c.select s.mask).length
        ++ (" syscalls (expression '" : Text) ++ m.expression.getD Selection.usualName
        ++ ("')" : Text)⟩ := by
  have hpieces := (writeAll_of_some source c sink hs).1.symm.trans hok
  have hresolve := Selection.result_resolve_of_some hs
  have hrun : writeAll source c m sink = _ :=
    (congrFun (writeAll_eq source c m) sink).trans
      (Action.bind_of_ok (x := liftM (Selection.resolve m.expression)) hresolve _)
  rw [hrun, Action.lift_apply, Action.bind_of_ok hpieces, Action.lift_apply]
  -- the records of looking up the name and of the pieces stand in front
  show List.getLast? (_ ++ (_ ++ [_])) = _
  rw [← List.append_assoc, List.getLast?_append, List.getLast?_singleton, Option.some_or]
  rfl

/-- The texts of the pieces, section by section. -/
theorem exists_sections {texts : List Text} (h : results source c m s = texts.map .ok) :
    ∃ (top : Text) (hs : List Text) (bottom : Text),
      (head source m).result = .ok top ∧
        (c.select s.mask).map (fun d => textResult (Handler.select source d m).result) =
          hs.map .ok ∧
        (if s.tracepoints then (exitHandler source).result = .ok bottom else bottom = []) ∧
        texts.flatten = top ++ hs.flatten ++ bottom := by
  rw [results, eq_comm, List.cons_append, List.map_eq_cons_iff] at h
  obtain ⟨top, texts, rfl, htop, h⟩ := h
  obtain ⟨hs, bottoms, rfl, hhs, hbottoms⟩ := List.map_eq_append_iff.1 h
  refine ⟨top, hs, bottoms.flatten, htop.symm, hhs.symm, ?_, ?_⟩
  · split_ifs at hbottoms ⊢ with htracepoints
    · rw [List.map_eq_singleton_iff] at hbottoms
      obtain ⟨bottom, rfl, hbottom⟩ := hbottoms
      rw [List.flatten_singleton]
      exact hbottom.symm
    · rw [List.map_eq_nil_iff] at hbottoms
      rw [hbottoms]
      rfl
  · rw [List.flatten_cons, List.flatten_append, List.append_assoc]

/-- The calls that are selected stand by strictly ascending number. -/
theorem select_ascending (c : Catalog) (mask : Mask) :
    (c.select mask).Pairwise (·.number < ·.number) :=
  c.toList_ascending.filter _

/-- Handlers that have been written are those of the selected calls, in order, and as many as
    are said to be. -/
theorem exists_texts_of_writeHandlers {mask : Mask} {sink : Sink} {count : Nat}
    (h : (writeHandlers source m mask c.toList sink).1.result = .ok count) :
    count = (c.select mask).length ∧ ∃ texts : List Text,
      (c.select mask).map (fun d => textResult (Handler.select source d m).result) =
          texts.map .ok ∧
        (writeHandlers source m mask c.toList sink).2.text = sink.text ++ texts.flatten := by
  obtain ⟨hresult, htext⟩ := writeHandlers_run source c m mask sink
  rw [h] at hresult
  cases hending : ending sink.room
      ((c.select mask).map fun d => textResult (Handler.select source d m).result) with
  | error e => rw [hending] at hresult; cases hresult
  | ok u =>
    rw [hending] at hresult
    obtain ⟨texts, hmade, hall⟩ := exists_texts_of_ending hending
    rw [hall] at htext
    exact ⟨Except.ok.inj hresult, texts, hmade, htext⟩

/-- Handlers that can all be made can all be written to a stream that takes everything. -/
theorem writeHandlers_of_ok {mask : Mask} {texts : List Text}
    (h : (c.select mask).map (fun d => textResult (Handler.select source d m).result) =
      texts.map .ok) :
    (writeHandlers source m mask c.toList {}).1.result = .ok (c.select mask).length := by
  rw [(writeHandlers_run source c m mask {}).1, h]
  exact congrArg _ (ending_map_ok texts)

/-- A program that has been written and the listing of its selection agree: the handlers of
    the program are those of the calls that are selected, by ascending number, and so are the
    lines of the listing; the handlers that are counted, the number that the log tells and the
    number at the top of the listing are the number of these calls.  For handlers alone this
    holds under any mask. -/
theorem listing_agrees (source : Source Run) (c : Catalog) (sink : Sink) (colours : Bool)
    {e : Text}
    (hs : Selection.ofName? e = some s) (he : m.expression.getD Selection.usualName = e)
    (hok : (writeAll source c m sink).1.result = .ok ()) :
    (∃ (top : Text) (hs : List Text) (bottom : Text),
      (head source m).result = .ok top ∧
        (c.select s.mask).map (fun d => textResult (Handler.select source d m).result) =
          hs.map .ok ∧
        (if s.tracepoints then (exitHandler source).result = .ok bottom else bottom = []) ∧
        (writeAll source c m sink).2.text = sink.text ++ (top ++ hs.flatten ++ bottom)) ∧
      (c.select s.mask).Pairwise (·.number < ·.number) ∧
      (writeHandlers source m s.mask c.toList {}).1.result = .ok (c.select s.mask).length ∧
      (writeAll source c m sink).1.log.getLast? = some ⟨Log.Level.info, Log.Source.assembly,
        ("Generated handlers for " : Text) ++ Numeral.decimal (c.select s.mask).length
          ++ (" syscalls (expression '" : Text) ++ e ++ ("')" : Text)⟩ ∧
      (Console.writeSelection colours (c.select s.mask) e {}).1.result = .ok () ∧
      (Console.writeSelection colours (c.select s.mask) e {}).2.text =
        (if colours then Console.cyan else []) ++ ("Syscalls selected by '" : Text) ++ e
          ++ ("': " : Text) ++ Numeral.decimal (c.select s.mask).length
          ++ (if colours then Console.plain else []) ++ ['\n']
          ++ ((c.select s.mask).map Console.rowText).flatten ∧
      ∀ (mask : Mask) (sink : Sink) (count : Nat),
        (writeHandlers source m mask c.toList sink).1.result = .ok count →
          count = (c.select mask).length ∧ ∃ texts : List Text,
            (c.select mask).map (fun d => textResult (Handler.select source d m).result) =
                texts.map .ok ∧
              (writeHandlers source m mask c.toList sink).2.text =
                sink.text ++ texts.flatten := by
  subst he
  rw [← Console.header_eq]
  obtain ⟨hresult, hsink⟩ := writeAll_of_some source c sink hs
  obtain ⟨hending, htext⟩ := writeInTurn_run (pieces source m s c.toList) sink
  rw [map_result_pieces] at hending htext
  obtain ⟨texts, hmade, hall⟩ :=
    exists_texts_of_ending (hending.symm.trans (hresult.symm.trans hok))
  obtain ⟨top, hs', bottom, htop, hhandlers, hbottom, hflatten⟩ := exists_sections hmade
  -- the program shows the number of every handler, so the listing can show it, too
  have hnumbers : ∀ d ∈ c.select s.mask, Numeral.isWritable d.number = true := by
    intro d hd
    have hmem : textResult (Handler.select source d m).result ∈ hs'.map Except.ok :=
      hhandlers ▸ List.mem_map_of_mem hd
    obtain ⟨t, -, ht⟩ := List.mem_map.1 hmem
    cases hselect : (Handler.select source d m).result with
    | error e => rw [hselect] at ht; cases ht
    | ok b => exact isWritable_of_select hselect
  obtain ⟨hlisted, hlisting⟩ := Console.writeSelection_run hnumbers colours
    (m.expression.getD Selection.usualName)
  refine ⟨⟨top, hs', bottom, htop, hhandlers, hbottom, ?_⟩, select_ascending c s.mask,
    writeHandlers_of_ok hhandlers, getLast?_log_writeAll hs hok, hlisted, hlisting,
    fun mask sink count => exists_texts_of_writeHandlers⟩
  rw [hsink, htext, hall, hflatten]

/-- The packaged fragments, three calls added out of order, and one that is not available. -/
theorem listing_agrees_packaged :
    let c : Catalog := ⟨[⟨5, "chdir", true, [0], 1⟩, ⟨4, "stat", false, [0], 1⟩,
      ⟨-3, "read", true, [], 64⟩, ⟨2, "rename", true, [0, 1], 3⟩], by decide⟩
    let m : Mode := { expression := some "KP-File" }
    (Console.writeSelection false (c.select (Mask.string 0)) "KP-File" {}).2.text =
      "Syscalls selected by 'KP-File': 2\n     2  rename           strings=0,1\n     5  chdir            strings=0\n".toList ∧
    (writeAll Store.packaged.source c m {}).1.log.getLast?.map Log.Record.message =
      some "Generated handlers for 2 syscalls (expression 'KP-File')".toList := by
  intro c m
  have hs : Selection.ofName? "KP-File" = some ⟨Mask.string 0, false⟩ := by decide
  have hsmall : ∀ d ∈ c.select (Mask.string 0), d.number.natAbs < Nat.pow 10 9 := by decide
  have hok := writeAll_of_ok Store.packaged.source c (m := m) (s := ⟨Mask.string 0, false⟩) hs
    (Outline.results_packaged fun d hd => Numeral.isWritable_of_lt (hsmall d hd))
  obtain ⟨-, -, -, htold, -, hlisting, -⟩ := listing_agrees Store.packaged.source c
    {} false (m := m) hs rfl hok
  rw [hlisting, htold]
  exact ⟨by decide, by decide⟩

end Assembly

end Tracewright
