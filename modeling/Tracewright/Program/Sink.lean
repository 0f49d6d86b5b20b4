/-
  Tracewright.Program.Sink

  A stream that takes text, piece by piece, and may refuse to take more.

    * `Sink.write` — hands a piece over.
    * `Sink.text`  — what the stream has taken.

  Reference: the stream of `assemble_into` and `StdoutExporter`, and
  `OutputWriteError` when it takes no more.
-/
import Tracewright.Run

namespace Tracewright

/-- A stream: the pieces it has taken, the last one first, and how many more it takes,
    if there is a limit. -/
structure Sink where
  pieces : List Text := []
  room : Option Nat := none
  deriving Repr

namespace Sink

def text (s : Sink) : Text := s.pieces.reverse.flatten

/-- Hands a piece over; a stream without room refuses it. -/
def write (t : Text) : Action Sink Unit := fun s =>
  match s.room with
  | none => (pure (), { s with pieces := t :: s.pieces })
  | some (n + 1) => (pure (), { pieces := t :: s.pieces, room := some n })
  | some 0 => (Run.fail (.os .refused), s)

/-- Hands a piece of the program over; a refusal is told in the log. -/
def writeProgram (source t : Text) : Action Sink Unit := fun s =>
  match s.room with
  | some 0 =>
    (do
      Run.record Log.Level.error source
        (("Failed to write generated code: " : Text) ++ (Cause.os .refused).text)
      Run.fail (.streamRefused (.os .refused)), s)
  | _ => write t s

end Sink

end Tracewright
