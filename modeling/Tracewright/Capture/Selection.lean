/-
  Tracewright.Capture.Selection

  The named sets of system calls.

    * `Selection`          — which system calls, and whether their common exit.
    * `Selection.resolve`  — the set of a name, in letters of either case.

  Reference: `Selection`, `EXPRESSIONS` and `resolve_expression`; the name of a
  selection is an expression there.
-/
import Tracewright.Run
import Tracewright.Syscall.Mask

namespace Tracewright

/-- What a name asks for: the capabilities of the system calls, none of them asking for
    all calls, and the handler that all calls leave through. -/
structure Selection where
  mask : Mask := 0
  tracepoints : Bool := false
  deriving DecidableEq, Repr

namespace Selection

/-- The name that is taken when none is given. -/
def usualName : Text := "all"

def named : List (Text × Selection) := [
  ("all", ⟨0, true⟩),
  ("kp-all", ⟨0, false⟩),
  ("kp-file", ⟨Mask.string 0, false⟩),
  ("kp-desc", ⟨Mask.descriptor 0, false⟩),
  ("kp-fileio", ⟨Mask.union (Mask.string 0) (Mask.union (Mask.string 1) (Mask.descriptor 0)),
    false⟩)]

def ofName? (name : Text) : Option Selection := named.lookup (Text.lower name)

/-- The set of a name; without a name all system calls. -/
def resolve (expression : Option Text) : Run Selection := do
  if expression.isNone then
    Run.record Log.Level.info Log.Source.assembly
      (("defaulting to '" : Text) ++ usualName ++ ("'" : Text))
  let name := expression.getD usualName
  match ofName? name with
  | some s => pure s
  | none => do
    Run.record Log.Level.error Log.Source.assembly
      (("unknown option: '" : Text) ++ name ++ ("'" : Text))
    Run.fail (.unknownExpression name)

end Selection

end Tracewright
