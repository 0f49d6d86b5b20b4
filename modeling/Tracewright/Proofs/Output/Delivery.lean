/-
  Tracewright.Proofs.Output.Delivery

  How a program arrives: as a whole, on a stream that takes everything and in
  the place of a file.

    * `Console.shown`         — a program with the marks that are asked for.
    * `Console.writeProgram_of_open`
                              — what an open stream holds afterwards.
    * `Export.place_eq_none`, `Export.place_eq_some`
                              — a program is found where it has been placed;
                                if it has not been, no file has changed.
    * `Export.write_cases`    — a program is written, or the run fails.
-/
import Tracewright.Output.Console
import Tracewright.Output.Export
import Tracewright.Proofs.Files.Tree
import Tracewright.Proofs.Run

namespace Tracewright

/-! ## Streams -/

namespace Console

/-- A program as it is shown, between the marks if they are asked for. -/
def shown (t : Text) (marks : Bool) : Text := if marks then beginMark ++ t ++ endMark else t

/-- A stream without a limit takes all pieces, and nothing is told in the log. -/
theorem writePieces_of_open {s : Sink} (hs : s.room = none) (source : Text) (ts : List Text) :
    writePieces (Sink.writeProgram source) ts s =
      (pure (), { s with pieces := ts.reverse ++ s.pieces }) := by
  induction ts generalizing s with
  | nil => rfl
  | cons t ts ih =>
    have hwrite : Sink.writeProgram source t s =
        (pure (), { s with pieces := t :: s.pieces }) := by
      rw [Sink.writeProgram, hs]
      show Sink.write t s = _
      rw [Sink.write, hs]
    have hrest : writePieces (Sink.writeProgram source) ts { s with pieces := t :: s.pieces } =
        (pure (), { s with pieces := ts.reverse ++ t :: s.pieces }) := ih hs
    rw [writePieces, Action.bind_of_ok (a := ()) (by rw [hwrite]; rfl), hwrite]
    simp only [hrest]
    simp

theorem flatten_marked (t : Text) : (marked t).flatten = beginMark ++ t ++ endMark := by
  rw [marked]
  split_ifs with hempty
  · rw [List.isEmpty_iff.1 hempty]
    simp
  · simp

/-- A stream without a limit shows a program as a whole. -/
theorem writeProgram_of_open {s : Sink} (hs : s.room = none) (t : Text) (marks : Bool) :
    (writeProgram t marks s).1 = pure () ∧
      (writeProgram t marks s).2.text = s.text ++ shown t marks := by
  rw [writeProgram, writePieces_of_open hs]
  refine ⟨rfl, ?_⟩
  rw [Sink.text, Sink.text, List.reverse_append, List.reverse_reverse, List.flatten_append, shown]
  cases marks with
  | true => simp only [if_true, flatten_marked]
  | false => simp

end Console

/-! ## Files -/

/-- A path inside the directory of no name is that path. -/
theorem Path.join_ofText_nil (p : Path) : (Path.ofText []).join p = p := by
  rw [Path.join]
  split_ifs with hroot
  · rw [List.isEmpty_iff] at hroot
    obtain ⟨root, parts⟩ := p
    cases hroot
    rfl
  · rfl

namespace Export

open Files (AddsDirectories Untouched)

variable {files files' : Files} {path : Path} {text : Text}

/-- A program that has been placed is found there, and no other file has changed. -/
theorem place_eq_none (h : place files path text = (none, files')) :
    ∃ x, files'.locate path = .ok x ∧ files'.get? x = some (.file (Text.Utf8.encode text)) ∧
      ∀ other, other ≠ x → Untouched files files' other := by
  rw [place] at h
  have hmade := Files.addsDirectories_makeDirectories files path.parent
  rcases hmake : files.makeDirectories path.parent with ⟨made, _ | fault⟩
  · rw [hmake] at h hmade
    simp only at h
    cases hreplace : made.replace path (Text.Utf8.encode text) with
    | error fault => rw [hreplace] at h; cases h
    | ok replaced =>
      rw [hreplace] at h
      cases h
      obtain ⟨x, hlocate, hget, -, hothers⟩ := Files.replace_eq_ok hreplace
      refine ⟨x, hlocate, hget, fun other hother => ?_⟩
      exact (hmade.untouched other).trans (.inl (hothers other hother))
  · rw [hmake] at h
    cases h

/-- If a program cannot be placed, directories may have been made for it, and nothing else. -/
theorem place_eq_some {fault : OsFault} (h : place files path text = (some fault, files')) :
    AddsDirectories files files' := by
  rw [place] at h
  have hmade := Files.addsDirectories_makeDirectories files path.parent
  rcases hmake : files.makeDirectories path.parent with ⟨made, _ | fault'⟩
  · rw [hmake] at h hmade
    simp only at h
    cases hreplace : made.replace path (Text.Utf8.encode text) with
    | error fault' => rw [hreplace] at h; cases h; exact hmade
    | ok replaced => rw [hreplace] at h; cases h
  · rw [hmake] at h hmade
    cases h
    exact hmade

theorem refused_fails (path : Text) (fault : OsFault) :
    ∃ e, (refused path fault).result = .error e := by
  cases fault <;> exact ⟨_, rfl⟩

/-- A program is written where its name says, or the run fails. -/
theorem write_cases (name text : Text) (files : Files) :
    (∃ files', write [] name text files = (written (Path.ofText name) text, files') ∧
      place files (Path.ofText name) text = (none, files')) ∨
    ∃ x e files', write [] name text files = (x, files') ∧ x.result = .error e ∧
      AddsDirectories files files' := by
  simp only [write, Path.join_ofText_nil]
  rcases hplace : place files (Path.ofText name) text with ⟨_ | fault, files'⟩
  · exact .inl ⟨files', rfl, rfl⟩
  · obtain ⟨e, he⟩ := refused_fails (Path.ofText name).write fault
    exact .inr ⟨_, e, files', rfl, he, place_eq_some hplace⟩

end Export

end Tracewright
