/-
  Tracewright.Number.Numeral

  Integers as text.

    * `decimal`, `hexadecimal` — the one canonical way an integer is written.
    * `isWritable`             — the integers that are written at all: those
                                 of at most 4300 digits.
    * `read?`                  — the many ways an integer may be spelled:
      blanks around it, a sign, leading noughts, single underscores between
      the digits, digits of any script; at most 4300 digits.

  Reference: `int` of a text and `str` of an integer, with the limit on digits.
-/
import Tracewright.Text.Blank
import Tracewright.Text.Digit

namespace Tracewright.Numeral

/-- The greatest number of digits that is read or written. -/
def digitLimit : Nat := 4300

/-! ## Writing -/

/-- A minus sign before a negative number. -/
def signed (n : Int) (digits : Text) : Text := if n < 0 then '-' :: digits else digits

/-- The decimal numeral of an integer: no leading nought, no plus sign. -/
def decimal (n : Int) : Text := signed n (Nat.toDigits 10 n.natAbs)

/-- The hexadecimal numeral of an integer, in capitals. -/
def hexadecimal (n : Int) : Text := signed n ((Nat.toDigits 16 n.natAbs).map Char.toUpper)

/-- The integer has a decimal numeral within the limit of digits. -/
def isWritable (n : Int) : Bool := n.natAbs < Nat.pow 10 digitLimit

theorem isWritable_of_lt {n : Int} (h : n.natAbs < Nat.pow 10 9) : isWritable n = true := by
  -- for any limit, since the power of this one would be computed
  have hpow : ∀ limit, 9 ≤ limit → n.natAbs < Nat.pow 10 limit := fun limit hlimit =>
    Nat.lt_of_lt_of_le h (Nat.pow_le_pow_right (by decide) hlimit)
  exact decide_eq_true (hpow digitLimit (by decide))

/-! ## Reading -/

/-- A blank that may stand around a numeral: any white space but the four information
    separators. -/
def isMargin (c : Char) : Bool := Text.isBlank c && !(0x1c ≤ c.toNat && c.toNat ≤ 0x1f)

/-- The text without the margins at its ends. -/
def stripMargins (t : Text) : Text :=
  ((t.dropWhile isMargin).reverse.dropWhile isMargin).reverse

/-- The values of digits with at most one underscore between two of them; `none` for any
    other text.  `afterDigit` says that a digit stands just before. -/
def digitValues? (afterDigit : Bool) : Text → Option (List Nat)
  | [] => if afterDigit then some [] else none
  | c :: rest =>
    if c = '_' then if afterDigit then digitValues? false rest else none
    else match Text.digitValue? c with
      | some d => (digitValues? true rest).map (d :: ·)
      | none => none

/-- The number that decimal digits stand for. -/
def ofDigits (ds : List Nat) : Nat := ds.foldl (fun n d => 10 * n + d) 0

def readUnsigned? (t : Text) : Option Nat :=
  match digitValues? false t with
  | some ds => if ds.length ≤ digitLimit then some (ofDigits ds) else none
  | none => none

def read? (t : Text) : Option Int :=
  match stripMargins t with
  | '-' :: digits => (readUnsigned? digits).map fun n => -(n : Int)
  | '+' :: digits => (readUnsigned? digits).map fun n => (n : Int)
  | digits => (readUnsigned? digits).map fun n => (n : Int)

example : read? " +1_0\u0663\n" = some 103 := by decide +kernel
example : read? "1__0" = none := by decide +kernel
example : decimal (-120) = "-120".toList := by decide +kernel
example : hexadecimal 4711 = "1267".toList := by decide +kernel

end Tracewright.Numeral
