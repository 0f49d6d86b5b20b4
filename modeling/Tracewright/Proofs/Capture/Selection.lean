/-
  Tracewright.Proofs.Capture.Selection

  How looking up the name of a selection ends.

    * `result_resolve` — with the selection, or with the name that is unknown.
-/
import Tracewright.Capture.Selection
import Tracewright.Proofs.Run

namespace Tracewright.Selection

/-- The name that is taken when none is given is known. -/
theorem ofName?_usualName : ofName? usualName = some ⟨0, true⟩ := by decide

/-- Whether the usual name is taken or not, the name is looked up, and nothing else. -/
theorem result_resolve (expression : Option Text) :
    (resolve expression).result =
      match ofName? (expression.getD usualName) with
      | some s => .ok s
      | none => .error (.unknownExpression (expression.getD usualName)) := by
  cases expression with
  | none =>
    rw [Option.getD_none, ofName?_usualName]
    rfl
  | some name =>
    rw [resolve, Option.getD_some]
    simp only [Option.isNone_some, Bool.false_eq_true, if_false]
    cases ofName? name <;> rfl

theorem result_resolve_of_some {expression : Option Text} {s : Selection}
    (h : ofName? (expression.getD usualName) = some s) : (resolve expression).result = .ok s := by
  rw [result_resolve, h]

theorem result_resolve_of_none {expression : Option Text}
    (h : ofName? (expression.getD usualName) = none) :
    (resolve expression).result =
      .error (.unknownExpression (expression.getD usualName)) := by
  rw [result_resolve, h]

end Tracewright.Selection
