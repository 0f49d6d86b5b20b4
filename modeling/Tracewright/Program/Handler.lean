/-
  Tracewright.Program.Handler

  The handler of one system call: which fragment it is made from, and the
  fragment filled in.

    * `Case`             — the kinds of handlers.
    * `Descriptor.case`  — the kind that a system call needs.
    * `Handler.select`   — the handler of a system call.

  Reference: `SpecialCase`, `GeneralCase`, `classify` and
  `TemplateSelector.select`.
-/
import Tracewright.Capture.Mode
import Tracewright.Fragment.Source
import Tracewright.Syscall.Descriptor

namespace Tracewright

/-! ## Kinds of handlers -/

/-- What decides on the fragment of a handler. -/
inductive Case where
  /-- The call starts a process. -/
  | fork
  /-- The call ends a process. -/
  | exit
  /-- Any call, by the number of the strings that are captured. -/
  | general (count : Nat)
  deriving DecidableEq, Repr

def forkNames : List Text := ["fork", "vfork", "clone"]

def exitNames : List Text := ["exit", "exit_group"]

/-- The kind as the log shows it. -/
def Case.render : Case → Text
  | .fork => "SpecialCase.FORK"
  | .exit => "SpecialCase.EXIT"
  | .general n => ("GeneralCase(arg_count=" : Text) ++ Numeral.decimal n ++ (")" : Text)

/-- The kind of a call by the number of its strings; more than can be captured are a
    warning. -/
def Descriptor.countCase (d : Descriptor) : Run Case :=
  if captureLimit < d.strings then do
    let limit := Numeral.decimal captureLimit
    Run.record Log.Level.warning Log.Source.handler
      (("syscall '" : Text) ++ d.name ++ ("' has more than " : Text) ++ limit
        ++ (" string arguments, only first " : Text) ++ limit
        ++ (" of them will be printed" : Text))
    pure (.general captureLimit)
  else pure (.general d.strings)

/-- The kind of a call: with the full features on, the calls that start or end processes
    are of kinds of their own. -/
def Descriptor.case (d : Descriptor) (m : Mode) : Run Case :=
  if m.fullFeature.isTrue && forkNames.contains d.name then pure .fork
  else if m.fullFeature.isTrue && exitNames.contains d.name then pure .exit
  else d.countCase

/-! ## Filling in -/

namespace Handler

/-- The markers of the first `count` strings with the slots that go there. -/
def slotPairs (d : Descriptor) (count : Nat) :
    List (Fin captureLimit × Fin Mask.slotLimit) :=
  (List.finRange captureLimit).zip (d.slots.take count)

/-- Puts slots in the places of their markers. -/
def fillSlots (b : Buffer) : List (Fin captureLimit × Fin Mask.slotLimit) → Run Buffer
  | [] => pure b
  | (i, slot) :: rest => do
    let b ← b.putChar (Marker.slot i).word (.int slot.val)
    fillSlots b rest

variable {κ : Type → Type} [Monad κ] [Performer κ]

open Performer (perform)

/-- The fragment of a kind, with the slots filled in. -/
def fragment (source : Source κ) (d : Descriptor) (m : Mode) : Case → κ Buffer
  | .fork => source.load source.index.fork
  | .exit => source.load source.index.exit
  | .general count => do
    let file ← perform (Run.ofExcept (source.index.handler (.int count) m.policy))
    let b ← source.load file
    perform (fillSlots b (slotPairs d count))

/-- The fragment with the number and the name of the call filled in. -/
def complete (d : Descriptor) (case : Case) (b : Buffer) : Run Buffer := do
  let number ← Run.decimal d.number
  let b := (b.replaceAll Marker.number.word number).replaceAll Marker.name.word d.name
  Run.record Log.Level.debug Log.Source.handler
    (("Selected " : Text) ++ b.name ++ (" for syscall '" : Text) ++ d.name ++ ("' (" : Text)
      ++ case.render ++ (")" : Text))
  pure b

def select (source : Source κ) (d : Descriptor) (m : Mode) : κ Buffer := do
  let case ← perform (d.case m)
  let b ← fragment source d m case
  perform (complete d case b)

end Handler

end Tracewright
