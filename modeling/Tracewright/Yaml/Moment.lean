/-
  Tracewright.Yaml.Moment

  Dates in a YAML document, with or without a time of day.

    * `Moment.read?`   — the numbers that a plain word spells.
    * `Moment.ofWord?` — the date they are, if there is one.

  Reference: `SafeConstructor.construct_yaml_timestamp`.
-/
import Tracewright.Yaml.Fault

namespace Tracewright.Moment

/-! ## Spelling -/

/-- The digits that start a text, at least `least` and at most `most`, as a number, and the text
    after them. -/
def digits? (least most : Nat) (t : Text) : Option (Nat × Text) :=
  let ds := (t.takeWhile Char.isDigit).take most
  if ds.length < least then none
  else some (Numeral.ofDigits (ds.map fun c => c.toNat - 0x30), t.drop ds.length)

def after? (c : Char) : Text → Option Text
  | c' :: t => if c' = c then some t else none
  | [] => none

def isBlank (c : Char) : Bool := c == ' ' || c == '\t'

/-- Six digits after a point, noughts where none are written; further ones do not count. -/
def microseconds (ds : Text) : Nat :=
  let six := ds.take 6
  Numeral.ofDigits (six.map fun c => c.toNat - 0x30) * Nat.pow 10 (6 - six.length)

/-- The fraction of a second, if one is written. -/
def fraction (t : Text) : Nat × Text :=
  match t with
  | '.' :: t => (microseconds (t.takeWhile Char.isDigit), t.dropWhile Char.isDigit)
  | t => (0, t)

/-- The zone that a text spells: none, `Z`, or hours and minutes with a sign. -/
def zone? (t : Text) : Option (Option Int) :=
  match t.dropWhile isBlank with
  | [] => if t.isEmpty then some none else none
  | ['Z'] => some (some 0)
  | sign :: rest => do
    let (hours, rest) ← if sign = '+' ∨ sign = '-' then digits? 1 2 rest else none
    let minutes ← match rest with
      | [] => some 0
      | ':' :: rest => do
        let (minutes, rest) ← digits? 2 2 rest
        if rest.isEmpty then some minutes else none
      | _ => none
    let distance : Int := 60 * hours + minutes
    some (some (if sign = '-' then -distance else distance))

/-- The time of day, and the zone, that a text spells. -/
def clock? (t : Text) : Option (Clock × Option Int) := do
  let (hour, t) ← digits? 1 2 t
  let (minute, t) ← digits? 2 2 (← after? ':' t)
  let (second, t) ← digits? 2 2 (← after? ':' t)
  let (microsecond, t) := fraction t
  let zone ← zone? t
  some (⟨hour, minute, second, microsecond⟩, zone)

/-- The text of the time of day, after the letter or the blanks before it. -/
def clockText? : Text → Option Text
  | 'T' :: t | 't' :: t => some t
  | c :: t => if isBlank c then some (t.dropWhile isBlank) else none
  | [] => none

/-- The numbers that a plain word spells.  Without a time of day a date has ten characters. -/
def read? (t : Text) : Option Moment := do
  let (year, rest) ← digits? 4 4 t
  let (month, rest) ← digits? 1 2 (← after? '-' rest)
  let (day, rest) ← digits? 1 2 (← after? '-' rest)
  if rest.isEmpty then
    if t.length = 10 then some { year, month, day } else none
  else
    let (clock, zone) ← clock? (← clockText? rest)
    some { year, month, day, clock := some clock, zone }

/-- The date that a plain word spells, if it spells one: it has to be there. -/
def ofWord? (t : Text) : Option (Except Yaml.Fault Moment) :=
  (read? t).map fun m =>
    match m.fault? with
    | some words => .error (.unreadable (.words words))
    | none => .ok m

example : (read? "2001-1-2 3:04:05.5-1:30").map write
    = some "2001-01-02 03:04:05.500000-01:30".toList := by decide +kernel
example : (read? "2024-02-30").bind fault? = some "day is out of range for month".toList := by
  decide +kernel

end Tracewright.Moment
