/-
  Tracewright.Value.Moment

  Dates, with or without a time of day.

    * `Moment`         — the numbers of a date.
    * `Moment.fault?`  — why there is no such date.
    * `Moment.write`, `Moment.render`
                       — a date as the text it stands for, and as messages
                         show it.
    * `Moment.kind`, `Moment.instant`
                       — what dates are compared by.

  Reference: the built-in `datetime.date` and `datetime.datetime`, with `str`
  and `repr`.
-/
import Tracewright.Number.Numeral
import Tracewright.Text.Basic

namespace Tracewright

/-- A time of day. -/
structure Clock where
  hour : Nat
  minute : Nat
  second : Nat
  microsecond : Nat
  deriving DecidableEq, Repr

/-- The numbers of a date; a zone is so many minutes ahead. -/
structure Moment where
  year : Nat
  month : Nat
  day : Nat
  clock : Option Clock := none
  zone : Option Int := none
  deriving DecidableEq, Repr

/-- What a date is compared with: dates, times of day without a zone, and those with one. -/
inductive MomentKind where
  | date
  | wall
  | zoned
  deriving DecidableEq, Repr

namespace Moment

/-! ## Dates that there are -/

def isLeap (year : Nat) : Bool := year % 4 = 0 && (year % 100 != 0 || year % 400 = 0)

def monthLengths (year : Nat) : List Nat :=
  [31, if isLeap year then 29 else 28, 31, 30, 31, 30, 31, 31, 30, 31, 30, 31]

/-- The number of the day, counted from the first day of the year 1. -/
def dayNumber (m : Moment) : Nat :=
  let before := m.year - 1
  365 * before + before / 4 - before / 100 + before / 400
    + ((monthLengths m.year).take (m.month - 1)).foldl (· + ·) 0 + m.day

/-- What is wrong with the numbers, if there is no such date. -/
def fault? (m : Moment) : Option Text :=
  if m.year = 0 then some "year 0 is out of range"
  else if m.month = 0 ∨ 12 < m.month then some "month must be in 1..12"
  else if m.day = 0 ∨ (monthLengths m.year).getD (m.month - 1) 0 < m.day then
    some "day is out of range for month"
  else match m.clock with
    | none => none
    | some c =>
      if 23 < c.hour then some "hour must be in 0..23"
      else if 59 < c.minute then some "minute must be in 0..59"
      else if 59 < c.second then some "second must be in 0..59"
      else if m.zone.any fun z => 24 * 60 ≤ z.natAbs then
        some "offset must be a timedelta strictly between one day before and one day after"
      else none

/-! ## Words -/

def padded (width n : Nat) : Text :=
  let ds := Nat.toDigits 10 n
  List.replicate (width - ds.length) '0' ++ ds

def writeZone (z : Int) : Text :=
  (if z < 0 then '-' else '+') :: padded 2 (z.natAbs / 60) ++ ':' :: padded 2 (z.natAbs % 60)

def write (m : Moment) : Text :=
  padded 4 m.year ++ '-' :: padded 2 m.month ++ '-' :: padded 2 m.day
    ++ match m.clock with
      | none => []
      | some c => ' ' :: padded 2 c.hour ++ ':' :: padded 2 c.minute ++ ':' :: padded 2 c.second
          ++ (if c.microsecond = 0 then [] else '.' :: padded 6 c.microsecond)
          ++ (m.zone.map writeZone).getD []

/-- A zone as messages show it: a day back, if it is behind, and the seconds from there. -/
def renderZone (z : Int) : Text :=
  if z = 0 then "datetime.timezone.utc"
  else ("datetime.timezone(datetime.timedelta(" : Text)
    ++ (if z < 0 then ("days=-1, " : Text) else [])
    ++ ("seconds=" : Text) ++ Numeral.decimal (60 * (if z < 0 then z + 24 * 60 else z))
    ++ ("))" : Text)

/-- A date as messages show it; seconds and their fraction are left out if they are nought. -/
def render (m : Moment) : Text :=
  let numbers (ns : List Nat) : Text :=
    List.intercalate (", " : Text) (ns.map fun n : Nat => Numeral.decimal n)
  let date := [m.year, m.month, m.day]
  match m.clock with
  | none => ("datetime.date(" : Text) ++ numbers date ++ [')']
  | some c =>
    let time := [c.hour, c.minute]
      ++ (if c.second = 0 ∧ c.microsecond = 0 then [] else [c.second])
      ++ (if c.microsecond = 0 then [] else [c.microsecond])
    ("datetime.datetime(" : Text) ++ numbers (date ++ time)
      ++ (m.zone.map fun z => (", tzinfo=" : Text) ++ renderZone z).getD [] ++ [')']

/-! ## Comparison -/

def kind (m : Moment) : MomentKind :=
  match m.clock, m.zone with
  | none, _ => .date
  | some _, none => .wall
  | some _, some _ => .zoned

/-- Days for a date, microseconds for a time of day, at the zone without a distance. -/
def instant (m : Moment) : Int :=
  match m.clock with
  | none => m.dayNumber
  | some c =>
    let minutes : Int := (24 * m.dayNumber + c.hour) * 60 + c.minute - m.zone.getD 0
    (minutes * 60 + c.second) * 1000000 + c.microsecond

end Moment

end Tracewright
