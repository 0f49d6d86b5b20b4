/-
  Tracewright.Proofs.Program.Pieces

  A program is its pieces, one after the other, whether it is put together
  or written to a stream.

    * `results`          — how making the pieces ends, piece by piece.
    * `map_result_pieces` — the pieces of an assembly end that way.
    * `result_assemble_of_ok` — the text of a program is that of its pieces.
    * `writeInTurn`      — pieces handed to a stream in turn.
    * `writeHandlersFrom_eq`, `writeAll_eq`
                         — the loop over the calls, and the whole, hand over
                           the pieces in turn.
-/
import Mathlib.Tactic.SplitIfs
import Tracewright.Program.Assembly
import Tracewright.Proofs.Capture.Selection

namespace Tracewright.Assembly

/-! ## How the pieces end -/

def textResult (r : Except Failure Buffer) : Except Failure Text := r.map Buffer.text

/-- Telling of a failure changes nothing about a handler. -/
theorem result_handler (source : Source Run) (m : Mode) (d : Descriptor) :
    (handler source m d).result = textResult (Handler.select source d m).result := by
  have htell : ∀ e, (tellMissing d e).result = .ok () := by
    intro e
    rw [tellMissing]
    split_ifs <;> rfl
  rw [handler, Run.result_bind, Run.result_telling _ _ htell]
  cases (Handler.select source d m).result <;> rfl

/-- How making the pieces of a program ends: the head, a handler for each system call that is
    selected from a catalog, and the common exit if it is asked for. -/
def results (source : Source Run) (c : Catalog) (m : Mode) (s : Selection) :
    List (Except Failure Text) :=
  (head source m).result ::
    (c.select s.mask).map (fun d => textResult (Handler.select source d m).result) ++
    if s.tracepoints then [(exitHandler source).result] else []

theorem map_result_handlers (source : Source Run) (c : Catalog) (m : Mode) (mask : Mask) :
    (handlers source m mask c.toList).map Run.result =
      (c.select mask).map fun d => textResult (Handler.select source d m).result := by
  have hselected : selected mask c.toList = c.select mask := rfl
  rw [handlers, hselected, List.map_map, List.map_inj_left]
  exact fun d _ => result_handler source m d

theorem map_result_pieces (source : Source Run) (c : Catalog) (m : Mode) (s : Selection) :
    (pieces source m s c.toList).map Run.result = results source c m s := by
  have hexit : (tracepoints source s).map Run.result =
      if s.tracepoints then [(exitHandler source).result] else [] := by
    rw [tracepoints]
    split_ifs <;> rfl
  rw [pieces, List.map_append, List.map_cons, map_result_handlers, hexit, results]

/-- Assembling looks up the name, makes the pieces in turn and joins them; what is told at the
    end changes nothing. -/
theorem result_assemble_eq (source : Source Run) (c : Catalog) (m : Mode) :
    (assemble source c m).result = (Selection.resolve m.expression).result >>= fun s =>
      (inTurn (pieces source m s c.toList)).result >>= fun texts => .ok texts.flatten := by
  rw [assemble, Run.result_bind]
  refine congrArg _ (funext fun s => ?_)
  rw [Run.result_bind]
  rfl

theorem result_assemble_of_some {source : Source Run} {c : Catalog} {m : Mode} {s : Selection}
    (hs : Selection.ofName? (m.expression.getD Selection.usualName) = some s) :
    (assemble source c m).result =
      (inTurn (pieces source m s c.toList)).result >>= fun texts => .ok texts.flatten := by
  rw [result_assemble_eq, Selection.result_resolve_of_some hs]
  rfl

/-- The text of a program is that of its pieces, if all of them can be made. -/
theorem result_assemble_of_ok {source : Source Run} {c : Catalog} {m : Mode} {s : Selection}
    (hs : Selection.ofName? (m.expression.getD Selection.usualName) = some s)
    {texts : List Text} (h : results source c m s = texts.map .ok) :
    (assemble source c m).result = .ok texts.flatten := by
  rw [← map_result_pieces] at h
  rw [result_assemble_of_some hs, Run.result_inTurn_of_ok h]
  rfl

/-- There is no text if a piece cannot be made; the failure is that of the piece if no other
    one fails in another way. -/
theorem result_assemble_of_error {source : Source Run} {c : Catalog} {m : Mode} {s : Selection}
    {e : Failure} (hs : Selection.ofName? (m.expression.getD Selection.usualName) = some s)
    (h : ∀ r ∈ results source c m s, (∃ t, r = .ok t) ∨ r = .error e)
    (he : .error e ∈ results source c m s) : (assemble source c m).result = .error e := by
  rw [← map_result_pieces] at h he
  obtain ⟨piece, hpiece, hfails⟩ := List.mem_map.1 he
  have hpieces : (inTurn (pieces source m s c.toList)).result = .error e :=
    Run.result_inTurn_of_error (fun piece hpiece => h _ (List.mem_map_of_mem hpiece))
      ⟨piece, hpiece, hfails⟩
  rw [result_assemble_of_some hs, hpieces]
  rfl

/-! ## Pieces in turn -/

/-- Hands pieces over in turn. -/
def writeInTurn : List (Run Text) → Action Sink Unit
  | [] => pure ()
  | piece :: rest => do
    writePiece piece
    writeInTurn rest

theorem writeInTurn_append (xs ys : List (Run Text)) :
    writeInTurn (xs ++ ys) = (do
      writeInTurn xs
      writeInTurn ys) := by
  induction xs with
  | nil => rw [writeInTurn, pure_bind, List.nil_append]
  | cons x xs ih => rw [List.cons_append, writeInTurn, writeInTurn, ih, bind_assoc]

/-- The loop over the calls writes the handlers of those that are selected, and counts them. -/
theorem writeHandlersFrom_eq (source : Source Run) (m : Mode) (mask : Mask) (count : Nat)
    (ds : List Descriptor) :
    writeHandlersFrom source m mask count ds = (do
      writeInTurn (handlers source m mask ds)
      pure (count + (selected mask ds).length)) := by
  induction ds generalizing count with
  | nil => rfl
  -- the loop skips twice where the selection filters once: one case each
  | cons d ds ih =>
    rw [writeHandlersFrom, handlers]
    by_cases havailable : d.available = true
    · by_cases hfits : d.fits mask = true
      · have hselected : selected mask (d :: ds) = d :: selected mask ds := by
          rw [selected, List.filter_cons_of_pos (by rw [havailable, hfits]; rfl), selected]
        -- the handler is counted now, not when the rest has been written
        have hcount : count + 1 + (selected mask ds).length =
            count + (d :: selected mask ds).length := by
          rw [List.length_cons]
          omega
        rw [hselected, List.map_cons, writeInTurn, bind_assoc, ← hcount, havailable, hfits]
        simp only [Bool.not_true, Bool.false_eq_true, if_false, ih]
        rfl
      · have hselected : selected mask (d :: ds) = selected mask ds := by
          rw [selected, List.filter_cons_of_neg (by simp [hfits]), selected]
        rw [hselected, havailable, Bool.eq_false_iff.2 hfits]
        simp only [Bool.not_true, Bool.false_eq_true, if_false, Bool.not_false, if_true, ih]
        rfl
    · have hselected : selected mask (d :: ds) = selected mask ds := by
        rw [selected, List.filter_cons_of_neg (by simp [havailable]), selected]
      rw [hselected, Bool.eq_false_iff.2 havailable]
      simp only [Bool.not_false, if_true, ih]
      rfl

/-- A program is written piece by piece. -/
theorem writeAll_eq (source : Source Run) (c : Catalog) (m : Mode) :
    writeAll source c m = (do
      let s ← Selection.resolve m.expression
      writeInTurn (pieces source m s c.toList)
      tellComplete m (selected s.mask c.toList).length) := by
  rw [writeAll]
  -- once the name is known both sides write the same pieces
  refine bind_congr fun s => ?_
  have htracepoints : writeTracepoints source s = writeInTurn (tracepoints source s) := by
    rw [writeTracepoints, tracepoints]
    split_ifs
    · rw [writeInTurn, writeInTurn, bind_pure_unit]
    · rfl
  rw [pieces, List.cons_append, writeInTurn, writeInTurn_append, writeHandlers,
    writeHandlersFrom_eq, htracepoints]
  simp only [bind_assoc, pure_bind, Nat.zero_add]

end Tracewright.Assembly
