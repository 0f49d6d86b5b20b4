/-
  Tracewright.Number.Fixed

  A double with one decimal place: its exact value rounded once, a tie to
  the even tenth.

  Reference: `format` with `.1f`.
-/
import Tracewright.Number.Double

namespace Tracewright.Double

/-- A number of tenths, with the point before the last digit. -/
def writeTenths (n : Nat) : Text :=
  Nat.toDigits 10 (n / 10) ++ '.' :: Nat.toDigits 10 (n % 10)

/-- The text of a double with one decimal place. -/
def oneDecimal : Double → Text
  | .nan => "nan"
  | .infinite s => if s then "-inf" else "inf"
  | .finite s m e =>
    let (num, den) := quotient m e
    let body := writeTenths (roundHalfEven (10 * num) den)
    if s then '-' :: body else body

example : (read? "0.25").map oneDecimal = some "0.2".toList := by decide +kernel
example : (read? "-0.04").map oneDecimal = some "-0.0".toList := by decide +kernel
example : (read? "1023.95").map oneDecimal = some "1024.0".toList := by decide +kernel

end Tracewright.Double
