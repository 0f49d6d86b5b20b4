/-
  Tracewright.Text.Case

  Lower and upper case over all of Unicode, by which the words of the
  library's vocabularies are recognised in any case.  One character may
  become several, and some characters outside ASCII have an ASCII form: the
  kelvin sign lowers to `k`, the long s raises to `S`.

  A capital sigma lowers to `σ` wherever it stands; no vocabulary here holds
  a word in which its place would matter.

  Reference: `str.lower` and `str.upper`.
-/
import Tracewright.Text.Basic
import Tracewright.Text.CaseTable

namespace Tracewright.Text

/-- The mapped form of one character: its special form if it has one, else the form at
    the distance of its run, else itself. -/
def mapCase (runs : List CaseRun) (special : List (Nat × List Nat)) (c : Char) : Text :=
  match special.lookup c.toNat with
  | some form => form.map Char.ofNat
  | none =>
    match runs.find? (·.holds c.toNat) with
    | some run => [Char.ofNat ((c.toNat : Int) + run.shift).toNat]
    | none => [c]

def lowerChar (c : Char) : Text := mapCase lowerRuns lowerSpecial c

def upperChar (c : Char) : Text := mapCase upperRuns upperSpecial c

def lower (t : Text) : Text := t.flatMap lowerChar

def upper (t : Text) : Text := t.flatMap upperChar

example : lower "KP-\u212aFile" = "kp-kfile".toList := by decide +kernel
example : upper "\u017ftr_1 \ufb06r" = "STR_1 STR".toList := by decide +kernel

end Tracewright.Text
