/-
  Tracewright.Number.Shortest

  A double as text: the fewest decimal digits that read back as the same
  double, the nearest to it among those, laid out by a `Layout`.

    * `shortest`        — the digits and the power of ten they are counted in.
    * `Layout`          — where positional notation ends and how an exponent
                          is written.
    * `Layout.write`    — the text of a double.

  Reference: `repr` of a `float`.
-/
import Tracewright.Number.Double

namespace Tracewright.Double

/-! ## The digits -/

/-- The numbers that round to a double, scaled so that all are whole: the double itself,
    both ends of the interval, the unit, and whether the ends belong to it. -/
structure Interval where
  value : Nat
  low : Nat
  high : Nat
  unit : Nat
  closed : Bool

/-- The interval of `m · 2 ^ e`: halfway to its neighbours.  The one below is nearer at a
    power of two, and the ends round to the number exactly if `m` is even. -/
def interval (m : Nat) (e : Int) : Interval :=
  let below := if m = Nat.pow 2 52 ∧ leastExponent < e then 1 else 2
  let (scale, unit) := if 2 ≤ e then (Nat.pow 2 (e - 2).toNat, 1) else (1, Nat.pow 2 (2 - e).toNat)
  { value := 4 * m * scale
    low := (4 * m - below) * scale
    high := (4 * m + 2) * scale
    unit := unit
    closed := m % 2 == 0 }

/-- The interval with every number multiplied by `10 ^ (-k)`, where that is whole. -/
def Interval.onGrid (i : Interval) (k : Int) : Interval :=
  if 0 ≤ k then { i with unit := i.unit * Nat.pow 10 k.toNat }
  else
    let s := Nat.pow 10 (-k).toNat
    { i with value := i.value * s, low := i.low * s, high := i.high * s }

def Interval.holds (i : Interval) (d : Nat) : Bool :=
  let x := d * i.unit
  if i.closed then i.low ≤ x && x ≤ i.high else i.low < x && x < i.high

/-- The multiple of the unit in the interval that is nearest to its number, if there is
    one: the neighbour below or the one above. -/
def Interval.nearest? (i : Interval) : Option Nat :=
  let d := i.value / i.unit
  let r := i.value % i.unit
  match i.holds d, i.holds (d + 1) with
  | true, true =>
    some (if 2 * r < i.unit then d
      else if i.unit < 2 * r then d + 1
      else if d % 2 = 0 then d else d + 1)
  | true, false => some d
  | false, true => some (d + 1)
  | false, false => none

/-- The fewest digits that read back as `m · 2 ^ e`, and their power of ten: the first
    grid of powers of ten, from the coarse to the fine, with a point in the interval. -/
def shortest (m : Nat) (e : Int) : Nat × Int :=
  let i := interval m e
  let top : Int := (e + m.log2 + 1) * 30103 / 100000 + 1
  match (List.range 25).findSome? fun (j : Nat) =>
      ((i.onGrid (top - j)).nearest?).map fun d => (d, top - (j : Int)) with
  | some found => found
  | none => (m, e)

/-! ## The layout -/

/-- The decisions of a format for floating point numbers. -/
structure Layout where
  /-- The least decimal exponent that is written positionally. -/
  positionalFrom : Int
  /-- The first decimal exponent that is no longer written positionally. -/
  positionalTo : Int
  /-- What follows the digits of a whole number. -/
  wholeSuffix : Text
  /-- The least number of digits of an exponent. -/
  exponentDigits : Nat
  infinity : Text
  notANumber : Text

/-- The digits with the point after the first `point` of them, filled up with noughts on
    either side. -/
def Layout.positional (l : Layout) (digits : Text) (point : Int) : Text :=
  if point ≤ 0 then "0." ++ List.replicate (-point).toNat '0' ++ digits
  else if digits.length ≤ point.toNat then
    digits ++ List.replicate (point.toNat - digits.length) '0' ++ l.wholeSuffix
  else digits.take point.toNat ++ '.' :: digits.drop point.toNat

/-- One digit, the point and the rest, and the exponent with its sign. -/
def Layout.scientific (l : Layout) (digits : Text) (e : Int) : Text :=
  let mantissa := match digits with
    | d :: d' :: rest => d :: '.' :: d' :: rest
    | ds => ds
  let sign := if e < 0 then '-' else '+'
  let es := Nat.toDigits 10 e.natAbs
  mantissa ++ 'e' :: sign :: List.replicate (l.exponentDigits - es.length) '0' ++ es

def Layout.write (l : Layout) : Double → Text
  | .nan => l.notANumber
  | .infinite s => if s then '-' :: l.infinity else l.infinity
  | .finite s m e =>
    let body :=
      if m = 0 then '0' :: l.wholeSuffix
      else
        let (d, k) := shortest m e
        let digits := Nat.toDigits 10 d
        let point := k + digits.length
        if l.positionalFrom < point ∧ point ≤ l.positionalTo then l.positional digits point
        else l.scientific digits (point - 1)
    if s then '-' :: body else body

/-- Exponents from -4 to 15 are written positionally, a whole number keeps its `.0`, and
    an exponent has a sign and at least two digits. -/
def layout : Layout where
  positionalFrom := -4
  positionalTo := 16
  wholeSuffix := ".0"
  exponentDigits := 2
  infinity := "inf"
  notANumber := "nan"

/-- The text of a double in this library's messages. -/
def render (x : Double) : Text := layout.write x

example : (read? "1e16").map render = some "1e+16".toList := by decide +kernel
example : (read? "0.0001").map render = some "0.0001".toList := by decide +kernel
example : (read? "-1e-5").map render = some "-1e-05".toList := by decide +kernel
example : (read? "5e-324").map render = some "5e-324".toList := by decide +kernel
example : (read? "123456789.125").map render = some "123456789.125".toList := by decide +kernel

end Tracewright.Double
