/-
  Tracewright.Output.Size

  The size of a text as people read it: a number with one decimal and a unit
  that is 1024 times the one before.

  Reference: `format_bytes`.
-/
import Tracewright.Failure
import Tracewright.Number.Fixed

namespace Tracewright.Size

def units : List Text := ["B", "KB", "MB", "GB"]

def greatestUnit : Text := "TB"

def inUnit (x : Double) (unit : Text) : Text := x.oneDecimal ++ ' ' :: unit

/-- The number in the first of the units that leaves it below 1024. -/
def renderIn (x : Double) : List Text → Text
  | [] => inUnit x greatestUnit
  | unit :: rest =>
    if x.lessThanNat 1024 then inUnit x unit else renderIn (x.divNat 1024) rest

/-- A size. -/
def render (x : Double) : Text := renderIn x units

/-- The size of a text.  Every text that there is room for is in the range of the floating
    point numbers. -/
def renderLength (t : Text) : Text :=
  render ((Double.ofInt? t.length).getD (.infinite false))

/-- A size in whole bytes; it has to be in the range of the floating point numbers. -/
def renderInt (n : Int) : Except Failure Text :=
  match Double.ofInt? n with
  | some x => .ok (render x)
  | none => .error .tooLarge

end Tracewright.Size
