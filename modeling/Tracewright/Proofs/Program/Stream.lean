/-
  Tracewright.Proofs.Program.Stream

  What a stream holds when a program has been written to it, whichever of
  its pieces cannot be made and however few pieces the stream takes.

    * `madeCount`     — the number of pieces before the first one that fails.
    * `takenCount`    — how many of them a stream takes.
    * `ending`        — the failure that comes first, if there is one.
    * `writeInTurn_run`  — the stream after pieces in turn.
    * `writeAll_run`     — the stream after a program.
-/
import Tracewright.Proofs.Program.Pieces

namespace Tracewright.Assembly

/-! ## What a stream takes -/

/-- The number of pieces before the first one that cannot be made. -/
def madeCount (rs : List (Except Failure Text)) : Nat := rs.findIdx fun r => !r.isOk

/-- The number of the pieces made that a stream with so much room takes. -/
def takenCount (room : Option Nat) (made : Nat) : Nat := room.elim made (min · made)

/-- The text of the first pieces. -/
def textOf (count : Nat) (rs : List (Except Failure Text)) : Text :=
  ((rs.take count).filterMap Except.toOption).flatten

/-- How handing over pieces ends: the stream refuses a piece that has been made, a piece
    cannot be made, or neither. -/
def ending (room : Option Nat) (rs : List (Except Failure Text)) : Except Failure Unit :=
  if room.any (· < madeCount rs) then .error (.streamRefused (.os .refused))
  else match rs[madeCount rs]? with
    | some (.error e) => .error e
    | _ => .ok ()

variable {room : Option Nat} {t : Text} {e : Failure} {rs : List (Except Failure Text)}

@[simp] theorem madeCount_ok : madeCount (.ok t :: rs) = madeCount rs + 1 := by
  rw [madeCount, List.findIdx_cons]
  rfl

@[simp] theorem madeCount_error : madeCount (.error e :: rs) = 0 := by
  rw [madeCount, List.findIdx_cons]
  rfl

theorem ending_error : ending room (.error e :: rs) = .error e := by
  cases room <;> simp [ending]

theorem ending_ok_full :
    ending (some 0) (.ok t :: rs) = .error (.streamRefused (.os .refused)) := by
  simp [ending]

theorem ending_ok_of_room (hroom : room ≠ some 0) :
    ending (room.map (· - 1)) rs = ending room (.ok t :: rs) := by
  match room with
  | none => simp [ending]
  | some 0 => exact absurd rfl hroom
  | some (n + 1) => simp [ending]

theorem takenCount_ok_of_room (hroom : room ≠ some 0) :
    takenCount room (madeCount (.ok t :: rs)) =
      takenCount (room.map (· - 1)) (madeCount rs) + 1 := by
  match room with
  | none => simp [takenCount]
  | some 0 => exact absurd rfl hroom
  | some (n + 1) => simp [takenCount, Nat.add_min_add_right]

theorem textOf_ok (count : Nat) : textOf (count + 1) (.ok t :: rs) = t ++ textOf count rs := rfl

/-! ## One piece -/

section Piece

variable {piece : Run Text} {sink : Sink}

theorem writePiece_of_error (sink : Sink) (h : piece.result = .error e) :
    (writePiece piece sink).1.result = .error e ∧ (writePiece piece sink).2 = sink := by
  have hbind : writePiece piece sink = _ :=
    Action.bind_of_error (x := liftM piece) h (Sink.writeProgram Log.Source.assembly)
  rw [hbind]
  exact ⟨rfl, rfl⟩

theorem writePiece_of_ok (sink : Sink) (h : piece.result = .ok t) :
    (writePiece piece sink).1.result =
        (Sink.writeProgram Log.Source.assembly t sink).1.result ∧
      (writePiece piece sink).2 = (Sink.writeProgram Log.Source.assembly t sink).2 := by
  have hbind : writePiece piece sink = _ :=
    Action.bind_of_ok (x := liftM piece) h (Sink.writeProgram Log.Source.assembly)
  rw [hbind]
  exact ⟨rfl, rfl⟩

/-- A stream without room refuses a piece and stays as it is. -/
theorem writeProgram_of_full (source t : Text) (h : sink.room = some 0) :
    (Sink.writeProgram source t sink).1.result = .error (.streamRefused (.os .refused)) ∧
      (Sink.writeProgram source t sink).2 = sink := by
  obtain ⟨pieces, room⟩ := sink
  subst h
  exact ⟨rfl, rfl⟩

/-- A stream with room takes a piece, and has room for one less. -/
theorem writeProgram_of_room (source t : Text) (h : sink.room ≠ some 0) :
    (Sink.writeProgram source t sink).1.result = .ok () ∧
      (Sink.writeProgram source t sink).2 = ⟨t :: sink.pieces, sink.room.map (· - 1)⟩ := by
  obtain ⟨pieces, room⟩ := sink
  match room with
  | none => exact ⟨rfl, rfl⟩
  | some 0 => exact absurd rfl h
  | some (n + 1) => exact ⟨rfl, rfl⟩

theorem text_cons (sink : Sink) (t : Text) (room : Option Nat) :
    Sink.text ⟨t :: sink.pieces, room⟩ = sink.text ++ t := by
  rw [Sink.text, Sink.text, List.reverse_cons, List.flatten_append]
  exact congrArg (_ ++ ·) (List.append_nil t)

end Piece

/-! ## Pieces in turn, on a stream -/

/-- The stream after pieces in turn: it holds the first pieces, as many as were made and
    taken, and the first failure counts. -/
theorem writeInTurn_run (ps : List (Run Text)) (sink : Sink) :
    (writeInTurn ps sink).1.result = ending sink.room (ps.map Run.result) ∧
      (writeInTurn ps sink).2.text = sink.text ++
        textOf (takenCount sink.room (madeCount (ps.map Run.result))) (ps.map Run.result) := by
  induction ps generalizing sink with
  | nil =>
    have hending : ending sink.room [] = .ok () := by cases sink.room <;> rfl
    exact ⟨hending.symm, by simp [writeInTurn, textOf]⟩
  -- three ways a piece can go: not made, refused, taken; only the last one goes on
  | cons piece ps ih =>
    rw [List.map_cons, writeInTurn]
    cases hpiece : piece.result with
    | error e =>
      -- no piece was made before this one, so nothing is added, whatever the room
      obtain ⟨hresult, hsink⟩ := writePiece_of_error sink hpiece
      rw [Action.bind_of_error hresult, ending_error, madeCount_error, hsink]
      have htaken : takenCount sink.room 0 = 0 := by cases sink.room <;> simp [takenCount]
      rw [htaken]
      exact ⟨rfl, (List.append_nil _).symm⟩
    | ok t =>
      obtain ⟨hresult, hsink⟩ := writePiece_of_ok sink hpiece
      by_cases hroom : sink.room = some 0
      · obtain ⟨hrefused, hsame⟩ := writeProgram_of_full Log.Source.assembly t hroom
        have htaken : takenCount (some 0) (madeCount (.ok t :: ps.map Run.result)) = 0 :=
          Nat.zero_min _
        rw [Action.bind_of_error (hresult.trans hrefused), hsink, hsame, hroom, ending_ok_full,
          htaken]
        exact ⟨rfl, (List.append_nil _).symm⟩
      -- the rest is written to a stream with one piece more and room for one less
      · obtain ⟨htaken, hnext⟩ := writeProgram_of_room Log.Source.assembly t hroom
        obtain ⟨hresult', htext'⟩ := ih ⟨t :: sink.pieces, sink.room.map (· - 1)⟩
        rw [Action.bind_of_ok (hresult.trans htaken), hsink, hnext]
        refine ⟨hresult'.trans (ending_ok_of_room hroom), htext'.trans ?_⟩
        rw [takenCount_ok_of_room hroom, textOf_ok, ← List.append_assoc, text_cons]

/-- Pieces that can all be made are all taken by a stream that takes everything. -/
theorem ending_map_ok (texts : List Text) : ending none (texts.map .ok) = .ok () := by
  induction texts with
  | nil => rfl
  | cons t texts ih => exact (ending_ok_of_room (by simp)).symm.trans ih

/-- A stream on which pieces end well has taken all of them. -/
theorem exists_texts_of_ending (h : ending room rs = .ok ()) :
    ∃ texts : List Text, rs = texts.map .ok ∧
      textOf (takenCount room (madeCount rs)) rs = texts.flatten := by
  induction rs generalizing room with
  | nil => exact ⟨[], rfl, by simp [textOf]⟩
  | cons r rs ih =>
    cases r with
    | error e => rw [ending_error] at h; cases h
    | ok t =>
      -- a stream without room would have refused the piece
      by_cases hroom : room = some 0
      · rw [hroom, ending_ok_full] at h
        cases h
      · rw [← ending_ok_of_room hroom] at h
        obtain ⟨texts, rfl, htext⟩ := ih h
        refine ⟨t :: texts, rfl, ?_⟩
        rw [takenCount_ok_of_room hroom, textOf_ok, htext, List.flatten_cons]

/-! ## Programs -/

section Program

variable (source : Source Run) (c : Catalog) {m : Mode} (sink : Sink)

/-- A name that is unknown ends the run before the stream is touched. -/
theorem writeAll_of_none
    (hs : Selection.ofName? (m.expression.getD Selection.usualName) = none) :
    (writeAll source c m sink).1.result =
        .error (.unknownExpression (m.expression.getD Selection.usualName)) ∧
      (writeAll source c m sink).2 = sink := by
  have hbind : writeAll source c m sink = _ :=
    Action.bind_of_error (x := liftM (Selection.resolve m.expression))
      (Selection.result_resolve_of_none hs) _
  rw [hbind]
  exact ⟨rfl, rfl⟩

/-- Once the name is known, a run ends as its pieces in turn do. -/
theorem writeAll_of_some {s : Selection}
    (hs : Selection.ofName? (m.expression.getD Selection.usualName) = some s) :
    (writeAll source c m sink).1.result =
        (writeInTurn (pieces source m s c.toList) sink).1.result ∧
      (writeAll source c m sink).2 = (writeInTurn (pieces source m s c.toList) sink).2 := by
  have hbind : writeAll source c m sink = _ :=
    (congrFun (writeAll_eq source c m) sink).trans
      (Action.bind_of_ok (x := liftM (Selection.resolve m.expression))
        (Selection.result_resolve_of_some hs) _)
  rw [hbind]
  cases hpieces : (writeInTurn (pieces source m s c.toList) sink).1.result with
  | error e =>
    rw [Action.lift_apply, Action.bind_of_error hpieces]
    exact ⟨rfl, rfl⟩
  | ok u =>
    rw [Action.lift_apply, Action.bind_of_ok hpieces]
    exact ⟨rfl, rfl⟩

/-- A program whose pieces can all be made can be written to a stream that takes everything. -/
theorem writeAll_of_ok {s : Selection}
    (hs : Selection.ofName? (m.expression.getD Selection.usualName) = some s)
    {texts : List Text} (h : results source c m s = texts.map .ok) :
    (writeAll source c m {}).1.result = .ok () := by
  rw [(writeAll_of_some source c {} hs).1, (writeInTurn_run _ _).1, map_result_pieces, h]
  exact ending_map_ok texts

end Program

/-- The stream after a program.  A name that is unknown ends the run before any piece is made.
    Otherwise the stream holds the pieces that were made and taken, and the run ends with the
    first failure, of a piece or of the stream; without one the stream holds the program. -/
theorem writeAll_run (source : Source Run) (c : Catalog) (m : Mode) (room : Option Nat) :
    let run := writeAll source c m { room := room }
    match Selection.ofName? (m.expression.getD Selection.usualName) with
    | none =>
      run.1.result = .error (.unknownExpression (m.expression.getD Selection.usualName)) ∧
        run.2.text = []
    | some s =>
      run.2.text = textOf (takenCount room (madeCount (results source c m s)))
          (results source c m s) ∧
        run.1.result = ending room (results source c m s) ∧
        (run.1.result = .ok () → (assemble source c m).result = .ok run.2.text) := by
  intro run
  cases hs : Selection.ofName? (m.expression.getD Selection.usualName) with
  | none =>
    obtain ⟨hresult, hsink⟩ := writeAll_of_none source c { room := room } hs
    exact ⟨hresult, congrArg Sink.text hsink⟩
  | some s =>
    obtain ⟨hresult, hsink⟩ := writeAll_of_some source c { room := room } hs
    obtain ⟨hending, htext⟩ := writeInTurn_run (pieces source m s c.toList) { room := room }
    rw [map_result_pieces] at hending htext
    have hresult : run.1.result = ending room (results source c m s) := hresult.trans hending
    have htext : run.2.text =
        textOf (takenCount room (madeCount (results source c m s))) (results source c m s) :=
      (congrArg Sink.text hsink).trans htext
    -- a run that ends well has made all pieces and handed them over
    refine ⟨htext, hresult, fun hok => ?_⟩
    obtain ⟨texts, hmade, hall⟩ := exists_texts_of_ending (hresult.symm.trans hok)
    rw [htext, hall]
    exact result_assemble_of_ok hs hmade

end Tracewright.Assembly
