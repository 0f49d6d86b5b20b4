/-
  Tracewright.Yaml.Scalar

  What a plain word of a YAML document stands for.

    * `resolve`     — nothing, truth values, numbers and dates have spellings
                      of their own, everything else is a text.
    * `resolveKey`  — the same for the key of a mapping.

  Integers are decimal, binary (`0b`), hexadecimal (`0x`), octal (a leading
  nought) or sexagesimal (`1:30`); a floating point number needs a point, and
  its exponent needs a sign.  Underscores between digits say nothing.

  Reference: the implicit resolvers of `SafeLoader`, and the constructors of
  `SafeConstructor` for what they find.
-/
import Tracewright.Yaml.Moment

namespace Tracewright.Yaml

/-! ## Fixed words -/

def nullWords : List Text := ["~", "null", "Null", "NULL"]

def trueWords : List Text :=
  ["yes", "Yes", "YES", "true", "True", "TRUE", "on", "On", "ON"]

def falseWords : List Text :=
  ["no", "No", "NO", "false", "False", "FALSE", "off", "Off", "OFF"]

/-! ## Numbers -/

/-- The sign in front of a number, and the number. -/
def splitSign : Text → Bool × Text
  | '-' :: t => (true, t)
  | '+' :: t => (false, t)
  | t => (false, t)

/-- A digit below `base`, in the ASCII digits and letters. -/
def digitBelow? (base : Nat) (c : Char) : Option Nat :=
  let n := c.toNat
  let d :=
    if c.isDigit then n - 0x30
    else if 0x61 ≤ n && n ≤ 0x66 then n - 0x61 + 10
    else if 0x41 ≤ n && n ≤ 0x46 then n - 0x41 + 10
    else base
  if d < base then some d else none

/-- Digits below `base` and underscores, at least one of them. -/
def isDigits (base : Nat) (t : Text) : Bool :=
  !t.isEmpty && t.all fun c => c == '_' || (digitBelow? base c).isSome

def digits (base : Nat) (t : Text) : List Nat := t.filterMap (digitBelow? base)

def ofDigits (base : Nat) (ds : List Nat) : Nat := ds.foldl (fun n d => base * n + d) 0

/-- The number in a base that is a power of two. -/
def readBased (base : Nat) (t : Text) : Except ValueFault Nat :=
  let ds := digits base t
  if ds.isEmpty then .error (.noDigits base) else .ok (ofDigits base ds)

/-- The number in base ten, of no more digits than are read. -/
def readDecimal (t : Text) : Except ValueFault Nat :=
  let ds := digits 10 t
  if Numeral.digitLimit < ds.length then .error (.overlongReading ds.length)
  else .ok (ofDigits 10 ds)

/-- Digits and underscores after a first digit; the first one is not nought. -/
def isDecimal : Text → Bool
  | c :: t => c != '0' && c.isDigit && (t.isEmpty || isDigits 10 t)
  | [] => false

/-- A place after the first of a sexagesimal number: at most 59, of one or two digits. -/
def isSixtieth : Text → Bool
  | [c] => c.isDigit
  | [c, d] => '0' ≤ c && c ≤ '5' && d.isDigit
  | _ => false

/-- The number of sexagesimal places. -/
def readSixtieths (places : List Text) : Except ValueFault Nat :=
  places.foldlM (fun n place => do let d ← readDecimal place; pure (60 * n + d)) 0

/-- The value of an unsigned integer, if the text is one. -/
def unsignedInt? (t : Text) : Option (Except ValueFault Nat) :=
  match t with
  | ['0'] => some (.ok 0)
  | '0' :: 'b' :: ds => if isDigits 2 ds then some (readBased 2 ds) else none
  | '0' :: 'x' :: ds => if isDigits 16 ds then some (readBased 16 ds) else none
  | '0' :: ds => if isDigits 8 ds then some (readBased 8 t) else none
  | _ =>
    if isDecimal t then some (readDecimal t)
    else match Text.split [':'] t with
      | first :: place :: places =>
        if isDecimal first && (place :: places).all isSixtieth then
          some (readSixtieths (first :: place :: places))
        else none
      | _ => none

/-- Digits and underscores after a first digit. -/
def isWhole : Text → Bool
  | c :: t => c.isDigit && (t.isEmpty || isDigits 10 t)
  | [] => false

/-- Nothing, or an exponent with its sign. -/
def isExponent : Text → Bool
  | [] => true
  | e :: s :: ds => (e == 'e' || e == 'E') && (s == '-' || s == '+') && !ds.isEmpty
      && ds.all Char.isDigit
  | _ => false

/-- The part after the point: digits and underscores, and perhaps an exponent. -/
def isFraction (t : Text) : Bool :=
  isExponent (t.dropWhile fun c => c == '_' || c.isDigit)

/-- The parts of a number with a point: a digit stands before it, or after it if there is
    no sign. -/
def isPointed (signed : Bool) (whole fraction : Text) : Bool :=
  if whole.isEmpty then !signed && (fraction.head?.any Char.isDigit) && isFraction fraction
  else isWhole whole && isFraction fraction

/-- `value` and the sexagesimal places from the lowest one on, which counts `unit`: a product
    and a sum for each, all of them rounded.  The unit has to be in the range of the numbers
    even where the place is nought. -/
def addSixtieths (value : Double) (unit : Nat) : List Double → Except Fault Double
  | [] => .ok value
  | place :: higher =>
    match Double.ofInt? unit with
    | some u => addSixtieths (value.add (place.mul u)) (60 * unit) higher
    | none => .error .tooLarge

/-- The number of sexagesimal places, the last of them with a fraction. -/
def readSixtiethsDouble (places : List Text) : Except Fault Double :=
  addSixtieths (.zero false) 1
    (places.reverse.map fun t => (Double.readUnsigned? false t).getD .nan)

/-- The value of an unsigned number with a point, if the text is one; `signed` says that a
    sign stood before it. -/
def unsignedDouble? (signed : Bool) (t : Text) : Option (Except Fault Double) :=
  if t = ".inf" ∨ t = ".Inf" ∨ t = ".INF" then some (.ok (.infinite false))
  else if !signed && (t = ".nan" ∨ t = ".NaN" ∨ t = ".NAN") then some (.ok .nan)
  else
    let whole := t.takeWhile (· != '.')
    match t.dropWhile (· != '.') with
    | '.' :: fraction =>
      let plain := t.filter (· != '_')
      if isPointed signed whole fraction then (Double.readUnsigned? false plain).map .ok
      else match Text.split [':'] whole with
        | first :: place :: places =>
          if isWhole first && (place :: places).all isSixtieth
              && fraction.all (fun c => c == '_' || c.isDigit) then
            some (readSixtiethsDouble (Text.split [':'] plain))
          else none
        | _ => none
    | _ => none

/-! ## Words -/

/-- What a number stands for, if the text is one. -/
def number? (t : Text) : Option (Except Fault Scalar) :=
  let (negative, body) := splitSign t
  match unsignedDouble? (body.length < t.length) body with
  | some (.ok x) => some (.ok (.float (if negative then x.negate else x)))
  | some (.error fault) => some (.error fault)
  | none =>
    match unsignedInt? body with
    | some (.ok n) => some (.ok (.int (if negative then -(n : Int) else n)))
    | some (.error fault) => some (.error (.unreadable fault))
    | none => none

/-- What a plain word stands for: `=` and `<<` have a meaning that no value has. -/
def resolve (t : Text) : Except Fault Scalar :=
  if nullWords.contains t then .ok .null
  else if trueWords.contains t then .ok (.bool true)
  else if falseWords.contains t then .ok (.bool false)
  else if t = "=" ∨ t = "<<" then .error .malformed
  else match number? t, Moment.ofWord? t with
    | some n, _ => n
    | none, some moment => moment.map .moment
    | none, none => .ok (.text t)

/-- What a plain word stands for as a key: an equals sign is a text there. -/
def resolveKey (t : Text) : Except Fault Scalar :=
  if t = "=" then .ok (.text t) else resolve t

example : resolve "1:30" matches .ok (.int 90) := by decide +kernel
example : resolve "-0x1_F" matches .ok (.int (-31)) := by decide +kernel
example : resolve "1e3" matches .ok (.text _) := by decide +kernel
example : resolve "0b_" matches .error (.unreadable (.noDigits 2)) := by decide +kernel

end Tracewright.Yaml
