/-
  Tracewright.Text.Quoted

  A text between quotation marks, as the messages of this library show it.
  The mark is the apostrophe, or the double quote when the text holds an
  apostrophe and no double quote.  The mark, the backslash, line ends and
  tabs are escaped, and so is every character without a picture of its own,
  by two, four or eight hexadecimal digits.

  Reference: `repr` of a `str`.
-/
import Tracewright.Text.Printable

namespace Tracewright.Text

/-- `n` in hexadecimal, filled up to `width` digits. -/
def hexPadded (width n : Nat) : Text :=
  let digits := Nat.toDigits 16 n
  List.replicate (width - digits.length) '0' ++ digits

def quoteMark (t : Text) : Char :=
  if t.contains '\'' && !t.contains '"' then '"' else '\''

/-- A character as it stands between two marks `mark`. -/
def escapeChar (mark c : Char) : Text :=
  if c = mark || c = '\\' then ['\\', c]
  else if c = '\n' then ['\\', 'n']
  else if c = '\r' then ['\\', 'r']
  else if c = '\t' then ['\\', 't']
  else if isPrintable c then [c]
  else if c.toNat < 0x100 then '\\' :: 'x' :: hexPadded 2 c.toNat
  else if c.toNat < 0x10000 then '\\' :: 'u' :: hexPadded 4 c.toNat
  else '\\' :: 'U' :: hexPadded 8 c.toNat

def quoted (t : Text) : Text :=
  let mark := quoteMark t
  mark :: t.flatMap (escapeChar mark) ++ [mark]

example : quoted "it's" = "\"it's\"".toList := by decide +kernel
example : quoted "a\\'\"\t\u00a0\u200b" = "'a\\\\\\'\"\\t\\xa0\\u200b'".toList := by decide +kernel

end Tracewright.Text
