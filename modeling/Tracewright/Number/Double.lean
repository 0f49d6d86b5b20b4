/-
  Tracewright.Number.Double

  Binary floating point numbers of 64 bits, by value: a sign, a whole
  number of at most 53 bits and a power of two, so that every operation is
  exact arithmetic followed by one rounding.

    * `ofQuotient`  — the double nearest to a quotient, a tie to the even one.
    * `ofInt?`      — the double nearest to an integer, unless it is too large.
    * `truncate?`   — the integer towards zero.
    * `add`, `mul`  — sum and product.
    * `read?`       — the double of a decimal numeral.

  Reference: the built-in `float`.
-/
import Tracewright.Number.Numeral

namespace Tracewright

/-- A 64-bit binary floating point number; `finite s m e` is `m · 2 ^ e`, negated if `s`. -/
inductive Double where
  | finite (negative : Bool) (m : Nat) (e : Int)
  | infinite (negative : Bool)
  | nan
  deriving DecidableEq, Repr

namespace Double

/-! ## Rounding -/

/-- The whole number nearest to `num / den`, a tie to the even one. -/
def roundHalfEven (num den : Nat) : Nat :=
  let q := num / den
  let r := num % den
  if 2 * r < den then q
  else if den < 2 * r then q + 1
  else if q % 2 = 0 then q else q + 1

/-- `num / den` divided by `2 ^ e`, as a quotient of whole numbers. -/
def scaleDown (num den : Nat) (e : Int) : Nat × Nat :=
  if 0 ≤ e then (num, den * Nat.pow 2 e.toNat) else (num * Nat.pow 2 (-e).toNat, den)

def leastExponent : Int := -1074

def greatestExponent : Int := 971

def zero (negative : Bool) : Double := .finite negative 0 leastExponent

/-- The double nearest to `num / den`: the exponent is the least that leaves at most 53
    bits, the rest is rounded off, and what is too large is infinite. -/
def ofQuotient (negative : Bool) (num den : Nat) : Double :=
  if num = 0 then zero negative
  else
    let guess : Int := max ((num.log2 : Int) - den.log2 - 53) leastExponent
    let (n, d) := scaleDown num den guess
    let e := if Nat.pow 2 53 ≤ n / d then guess + 1 else guess
    let (n, d) := scaleDown num den e
    let m := roundHalfEven n d
    let (m, e) := if m = Nat.pow 2 53 then (Nat.pow 2 52, e + 1) else (m, e)
    if greatestExponent < e then .infinite negative else .finite negative m e

/-- The double nearest to an integer; `none` if that is infinite. -/
def ofInt? (n : Int) : Option Double :=
  match ofQuotient (n < 0) n.natAbs 1 with
  | .finite s m e => some (.finite s m e)
  | _ => none

/-! ## Value -/

/-- `m · 2 ^ e` as a quotient. -/
def quotient (m : Nat) (e : Int) : Nat × Nat :=
  if 0 ≤ e then (m * Nat.pow 2 e.toNat, 1) else (m, Nat.pow 2 (-e).toNat)

/-- The integer next to the number on the side of zero; `none` if it has none. -/
def truncate? : Double → Option Int
  | .finite s m e =>
    let (num, den) := quotient m e
    some (if s then -(num / den : Nat) else (num / den : Nat))
  | _ => none

/-- The integer that the number is; `none` if it is none. -/
def toInt? (x : Double) : Option Int :=
  match x with
  | .finite s m e =>
    let (num, den) := quotient m e
    if num % den = 0 then some (if s then -(num / den : Nat) else (num / den : Nat)) else none
  | _ => none

/-- The number is nought, of either sign. -/
def isZero : Double → Bool
  | .finite _ m _ => m == 0
  | _ => false

def lessThanNat (x : Double) (n : Nat) : Bool :=
  match x with
  | .finite s m e =>
    let (num, den) := quotient m e
    if s then num != 0 || 0 < n else num < n * den
  | .infinite s => s
  | .nan => false

/-- Equal as numbers: the two noughts are equal, and not-a-number equals nothing. -/
def same : Double → Double → Bool
  | .finite s m e, .finite s' m' e' =>
    let (n, d) := quotient m e
    let (n', d') := quotient m' e'
    n * d' == n' * d && (s == s' || n == 0)
  | .infinite s, .infinite s' => s == s'
  | _, _ => false

def divNat (x : Double) (k : Nat) : Double :=
  match x with
  | .finite s m e =>
    let (num, den) := quotient m e
    ofQuotient s num (den * k)
  | x => x

def negate : Double → Double
  | .finite s m e => .finite (!s) m e
  | .infinite s => .infinite (!s)
  | .nan => .nan

/-! ## Arithmetic -/

/-- The sum, rounded once; two numbers that cancel leave the nought that is not negative. -/
def add (x y : Double) : Double :=
  match x, y with
  | .finite s m e, .finite s' m' e' =>
    let (n, d) := quotient m e
    let (n', d') := quotient m' e'
    let a : Int := (if s then -(n : Int) else n) * d'
    let b : Int := (if s' then -(n' : Int) else n') * d
    ofQuotient (a + b < 0 || (s && s')) (a + b).natAbs (d * d')
  | .infinite s, .infinite s' => if s = s' then .infinite s else .nan
  | .infinite s, .finite _ _ _ | .finite _ _ _, .infinite s => .infinite s
  | _, _ => .nan

/-- The product, rounded once; nought times infinity is no number. -/
def mul (x y : Double) : Double :=
  match x, y with
  | .finite s m e, .finite s' m' e' =>
    let (n, d) := quotient m e
    let (n', d') := quotient m' e'
    ofQuotient (s != s') (n * n') (d * d')
  | .infinite s, .infinite s' => .infinite (s != s')
  | .infinite s, .finite s' m _ | .finite s' m _, .infinite s =>
    if m = 0 then .nan else .infinite (s != s')
  | _, _ => .nan

/-! ## Reading -/

/-- The double nearest to `digits · 10 ^ e`, where `digits` has `count` digits, the first of
    them not nought. -/
def ofDecimal (negative : Bool) (digits count : Nat) (e : Int) : Double :=
  if digits = 0 then zero negative
  else if 400 < e + count then .infinite negative
  else if e + count < -400 then zero negative
  else if 0 ≤ e then ofQuotient negative (digits * Nat.pow 10 e.toNat) 1
  else ofQuotient negative digits (Nat.pow 10 (-e).toNat)

/-- The number of decimal digits, of any length; at least one. -/
def digits? (t : Text) : Option Nat :=
  if !t.isEmpty && t.all Char.isDigit then
    some (Numeral.ofDigits (t.map fun c => c.toNat - 0x30))
  else none

/-- The exponent after an `e`: digits with or without a sign; nothing is nought. -/
def exponent? : Text → Option Int
  | [] => some 0
  | c :: rest =>
    if c = 'e' || c = 'E' then
      match rest with
      | '-' :: ds => (digits? ds).map fun n => -(n : Int)
      | '+' :: ds => (digits? ds).map fun n => (n : Int)
      | ds => (digits? ds).map fun n => (n : Int)
    else none

/-- The double of an unsigned decimal numeral with a point or an exponent or both. -/
def readUnsigned? (negative : Bool) (t : Text) : Option Double := do
  let whole := t.takeWhile Char.isDigit
  let rest := t.dropWhile Char.isDigit
  let (fraction, rest) := match rest with
    | '.' :: rest => (rest.takeWhile Char.isDigit, rest.dropWhile Char.isDigit)
    | _ => ([], rest)
  let e ← exponent? rest
  let digits := whole ++ fraction
  if digits.isEmpty then none
  else
    let n := Numeral.ofDigits (digits.map fun c => c.toNat - 0x30)
    let count := (digits.dropWhile (· == '0')).length
    some (ofDecimal negative n count (e - fraction.length))

/-- The double that a text spells: a decimal numeral, `inf` or `nan`, with a sign. -/
def read? (t : Text) : Option Double :=
  let (negative, body) : Bool × Text := match t with
    | '-' :: body => (true, body)
    | '+' :: body => (false, body)
    | body => (false, body)
  if body = "inf" then some (.infinite negative)
  else if body = "nan" then some .nan
  else readUnsigned? negative body

example : read? "0.1" = some (.finite false 7205759403792794 (-56)) := by decide +kernel
example : read? "5e-324" = some (.finite false 1 (-1074)) := by decide +kernel
example : read? "1.7976931348623159e+308" = some (.infinite false) := by decide +kernel
example : (ofInt? 6000).bind (fun x => (read? "3.28").map x.add) = read? "6003.28" := by
  decide +kernel

end Double

end Tracewright
