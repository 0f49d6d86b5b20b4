/-
  Tracewright.Program.Attach

  The last pass over a program: the test that singles out processes goes into
  every handler, and the reads beyond two packets into their place.  No
  marker may be left.

    * `Attach.pidCheck` — the test, with the number of the process.
    * `Attach.apply`    — the pass.
    * `generate`        — a program, from its fragments to the last pass.

  Reference: `ProcessAttachProcessor`, with `load_pid_hook` and `apply`, and
  `generate`.
-/
import Tracewright.Program.Assembly

namespace Tracewright

namespace Attach

/-! ## The test -/

/-- A marker has a place in the fragment. -/
def require (marker : Marker) (b : Buffer) : Run Unit :=
  if Text.countWord marker.word b.text = 0 then Run.fail (.markerMissing marker.word) else pure ()

/-- The test with the number of a process in the places of a marker. -/
def fillPid (marker : Marker) (numeral : Text) (b : Buffer) : Run Buffer := do
  require marker b
  pure (b.replaceAll marker.word numeral)

variable {κ : Type → Type} [Monad κ] [Performer κ]

open Performer (perform)

/-- What is told of the process that is traced, and its numeral. -/
def tellTraced (pid : Int) : Run Text := do
  let numeral ← Run.decimal pid
  Run.record Log.Level.info Log.Source.attach (("Tracing PID " : Text) ++ numeral)
  pure numeral

/-- What is told of the process that is not traced, and its numeral. -/
def tellOwn (own : Int) : Run Text := do
  let numeral ← Run.decimal own
  Run.record Log.Level.info Log.Source.attach
    (("will not trace my own PID " : Text) ++ numeral ++ (" (0x" : Text)
      ++ Numeral.hexadecimal own ++ (")" : Text))
  pure numeral

/-- The test that singles out processes: the traced one, or all but `own`, the process
    that generates the program. -/
def pidCheck (source : Source κ) (m : Mode) (own : Int) : κ Buffer :=
  match m.pid with
  | some pid => do
    let b ← source.load (source.index.pidCheck m.fullFeature.isTrue)
    let numeral ← perform (tellTraced pid.number)
    perform (fillPid .tracedPid numeral b)
  | none => do
    let numeral ← perform (tellOwn own)
    let b ← source.load source.index.pidCheckOwn
    perform (fillPid .ownPid numeral b)

/-! ## The pass -/

/-- Puts the reads beyond two packets in their place, if there are any. -/
def expandReads (source : Source κ) (m : Mode) (program : Buffer) : κ Buffer :=
  match m.usesOverflow, source.index.block? m.policy with
  | true, some file => do
    let block ← source.load file
    perform (program.repeatBlock Marker.reads.word block.text ((m.packets : Int) - 2))
  | _, _ => pure program

/-- A finished program; markers that are left are a failure. -/
def finish (text : Text) : Run Text :=
  match Marker.left text with
  | [] => pure text
  | words => do
    Run.record Log.Level.error Log.Source.attach
      (("Generated code still contains: " : Text) ++ List.intercalate (", " : Text) words)
    Run.fail (.markersLeft words)

/-- The last pass over a program. -/
def apply (source : Source κ) (m : Mode) (own : Int) (text : Text) : κ Text := do
  let check ← pidCheck source m own
  let program : Buffer := { text := text, name := "<program>" }
  let program ← expandReads source m (program.replaceAll Marker.pidCheck.word check.text)
  perform (finish program.text)

end Attach

/-- A finished program for the system calls of a catalog. -/
def generate {κ : Type → Type} [Monad κ] [Performer κ] (source : Source κ) (c : Catalog)
    (m : Mode) (own : Int) : κ Text := do
  let program ← Assembly.assemble source c m
  Attach.apply source m own program

end Tracewright
