/-
  Tracewright.Program.Assembly

  The text of a program: the head with the shared definitions, a handler for
  every selected system call by ascending number, and, when all calls are
  asked for, the handler that they leave through.  Each of these pieces is made
  when its turn comes.

    * `Assembly.head`          — the head.
    * `Assembly.handlers`      — the handlers.
    * `Assembly.pieces`        — the pieces of the text.
    * `Assembly.writeHandlers` — the handlers, to a stream.
    * `Assembly.writeAll`      — the whole text, to a stream.
    * `Assembly.assemble`      — the whole text.

  The name of the selection is looked up before any piece is made.

  Reference: `ProgramAssembler`, with `build_head`, `write_handlers`,
  `assemble_into` and `assemble`.
-/
import Tracewright.Capture.Selection
import Tracewright.Program.Handler
import Tracewright.Program.Sink
import Tracewright.Syscall.Catalog

namespace Tracewright.Assembly

variable {κ : Type → Type} [Monad κ] [Performer κ]

open Performer (perform telling)

/-! ## The head -/

/-- The shared definitions; the place of the reads beyond two packets stays open only if
    there are any. -/
def definitions (source : Source κ) (m : Mode) : κ Buffer := do
  let b ← source.load source.index.definitions
  pure (b.replaceAll Marker.openReads.word (if m.usesOverflow then Marker.reads.word else []))

/-- The head with the shared definitions in their place. -/
def head (source : Source κ) (m : Mode) : κ Text := do
  let b ← source.loadVerbatim source.index.head
  let defs ← definitions source m
  let b ← perform (b.replaceFirst Marker.definitions.word defs.text)
  pure b.text

/-! ## The handlers -/

/-- A handler that could not be made. -/
def tellMissing (d : Descriptor) (e : Failure) : Run Unit :=
  if e.isReported then
    Run.record Log.Level.error Log.Source.assembly
      (("no template found for syscall: '" : Text) ++ d.name ++ ("'" : Text))
  else pure ()

/-- The handler of a system call; a failure is told in the log. -/
def handler (source : Source κ) (m : Mode) (d : Descriptor) : κ Text := do
  let b ← telling (Handler.select source d m) (tellMissing d)
  pure b.text

/-- The calls that are available and have a capability asked for. -/
def selected (mask : Mask) (ds : List Descriptor) : List Descriptor :=
  ds.filter fun d => d.available && d.fits mask

/-- The handlers of the calls that are selected. -/
def handlers (source : Source κ) (m : Mode) (mask : Mask) (ds : List Descriptor) :
    List (κ Text) :=
  (selected mask ds).map (handler source m)

/-! ## The whole text -/

/-- The handler that all calls leave through. -/
def exitHandler (source : Source κ) : κ Text := do
  let b ← source.load source.index.tracepoints
  pure b.text

/-- The handler that all calls leave through, if it is asked for. -/
def tracepoints (source : Source κ) (s : Selection) : List (κ Text) :=
  if s.tracepoints then [exitHandler source] else []

def pieces (source : Source κ) (m : Mode) (s : Selection) (ds : List Descriptor) :
    List (κ Text) :=
  head source m :: handlers source m s.mask ds ++ tracepoints source s

/-- What is told of a text that is complete, with so many handlers. -/
def tellComplete (m : Mode) (count : Nat) : Run Unit :=
  Run.record Log.Level.info Log.Source.assembly
    (("Generated handlers for " : Text) ++ Numeral.decimal count
      ++ (" syscalls (expression '" : Text) ++ m.expression.getD Selection.usualName
      ++ ("')" : Text))

def assemble (source : Source κ) (c : Catalog) (m : Mode) : κ Text := do
  let s ← perform (Selection.resolve m.expression)
  let texts ← inTurn (pieces source m s c.toList)
  perform (tellComplete m (selected s.mask c.toList).length)
  pure texts.flatten

/-! ## Streams -/

/-- Hands a piece over as soon as it is made. -/
def writePiece (piece : Run Text) : Action Sink Unit := do
  let t ← piece
  Sink.writeProgram Log.Source.assembly t

/-- Goes through the calls, passes over those that are not available and those without a
    capability asked for, and writes the handlers of the others; `count` have been written. -/
def writeHandlersFrom (source : Source Run) (m : Mode) (mask : Mask) (count : Nat) :
    List Descriptor → Action Sink Nat
  | [] => pure count
  | d :: rest =>
    if !d.available then writeHandlersFrom source m mask count rest
    else if !d.fits mask then writeHandlersFrom source m mask count rest
    else do
      writePiece (handler source m d)
      writeHandlersFrom source m mask (count + 1) rest

/-- Writes the handlers of the calls that are selected, and counts them. -/
def writeHandlers (source : Source Run) (m : Mode) (mask : Mask) (ds : List Descriptor) :
    Action Sink Nat :=
  writeHandlersFrom source m mask 0 ds

/-- Writes the handler that all calls leave through, if it is asked for. -/
def writeTracepoints (source : Source Run) (s : Selection) : Action Sink Unit :=
  if s.tracepoints then writePiece (exitHandler source) else pure ()

def writeAll (source : Source Run) (c : Catalog) (m : Mode) : Action Sink Unit := do
  let s ← Selection.resolve m.expression
  writePiece (head source m)
  let count ← writeHandlers source m s.mask c.toList
  writeTracepoints source s
  tellComplete m count

end Tracewright.Assembly
