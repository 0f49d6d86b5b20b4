/-
  Tracewright.Host.Process

  The processes of the machine on which programs are generated.

    * `Host.isRunning` — a process exists, whoever it belongs to.
    * `Host.nameOf?`   — the name of a process that may be looked at.

  Reference: `validate_pid` and `get_process_name`.
-/
import Tracewright.Failure
import Tracewright.Text.Blank

namespace Tracewright

/-- The processes of a machine: the number of each, and its name unless it belongs to
    somebody else.  `own` is the process that generates programs. -/
structure Host where
  own : Int
  processes : List (Int × Option Text) := []
  deriving Repr

namespace Host

/-- The greatest number that a process can have. -/
def greatestPid : Int := 2147483647

def isRunning (h : Host) (pid : Int) : Except Failure Bool :=
  if greatestPid < pid then .error .tooLarge else .ok (h.processes.lookup pid).isSome

/-- The name of a process, without blanks at its ends. -/
def nameOf? (h : Host) (pid : Int) : Option Text :=
  match h.processes.lookup pid with
  | some (some name) => some (Text.strip name)
  | _ => none

end Host

end Tracewright
