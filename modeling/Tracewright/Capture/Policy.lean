/-
  Tracewright.Capture.Policy

  How the string arguments of a system call are read: up to a fixed length,
  or in as many packets as it takes, with or without an end test per packet.

  Reference: `StringReadPolicy`.
-/
import Tracewright.Text.Basic

namespace Tracewright

/-- How string arguments are read. -/
inductive ReadPolicy where
  | fixed
  | full
  | fullConst
  deriving DecidableEq, Repr

namespace ReadPolicy

/-- Every policy, in the order in which they are listed. -/
def all : List ReadPolicy := [.fixed, .full, .fullConst]

def word : ReadPolicy → Text
  | .fixed => "fixed"
  | .full => "full"
  | .fullConst => "full-const"

/-- A string may take more than one packet. -/
def isVariableLength : ReadPolicy → Bool
  | .fixed => false
  | _ => true

def ofWord? (t : Text) : Option ReadPolicy := all.find? (·.word == t)

theorem mem_all (p : ReadPolicy) : p ∈ all := by cases p <;> simp [all]

theorem ofWord?_word (p : ReadPolicy) : ofWord? p.word = some p := by cases p <;> decide

end ReadPolicy

end Tracewright
