/-
  Tracewright.Fragment.Marker

  The places in a fragment where something else is to stand.  A marker is a
  word, recognised wherever its characters stand in this order and case.

    * `Marker`       — what is to be put in.
    * `Marker.word`  — how the place is marked.
    * `Marker.left`  — the markers whose word is still in a text.

  Reference: `Token` and `find_unresolved`; a marker is a token there, and a
  fragment a template.
-/
import Tracewright.Text.Search

namespace Tracewright

/-- The greatest number of string arguments that a handler captures. -/
abbrev captureLimit : Nat := 3

/-- What is to be put in a place of a fragment. -/
inductive Marker where
  | number
  | name
  /-- The slot of one of the first string arguments. -/
  | slot (i : Fin captureLimit)
  | tracedPid
  /-- The process that is left out. -/
  | ownPid
  /-- The test that singles out processes. -/
  | pidCheck
  | definitions
  /-- The reads beyond two packets, while it is open whether there are any. -/
  | openReads
  /-- The reads beyond two packets. -/
  | reads
  deriving DecidableEq, Repr

namespace Marker

def word : Marker → Text
  | .number => "SYSCALL_NR"
  | .name => "SYSCALL_NAME_filled_for_replace"
  | .slot 0 => "STR1"
  | .slot 1 => "STR2"
  | .slot 2 => "STR3"
  | .tracedPid => "TRACED_PID"
  | .ownPid => "MY_OWN_PID"
  | .pidCheck => "PID_CHECK_HOOK"
  | .definitions => "#include \"trace.h\""
  | .openReads => "READ_AND_SUBMIT_it_will_be_removed_N_MINUS_2_PACKETS"
  | .reads => "READ_AND_SUBMIT_N_MINUS_2_PACKETS"

/-- Every marker, in the order in which they are listed. -/
def all : List Marker :=
  [.number, .name, .slot 0, .slot 1, .slot 2, .tracedPid, .ownPid, .pidCheck, .definitions,
    .openReads, .reads]

def words : List Text := all.map word

/-- The words that still stand in a text, in the order of the list. -/
def left (t : Text) : List Text := words.filter fun w => Text.hasWord w t

theorem mem_all (m : Marker) : m ∈ all := by
  cases m with
  | slot i => revert i; decide
  | _ => decide

theorem mem_left {w t : Text} : w ∈ left t ↔ w ∈ words ∧ Text.hasWord w t = true := by
  simp [left]

end Marker

end Tracewright
