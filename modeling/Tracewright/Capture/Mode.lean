/-
  Tracewright.Capture.Mode

  The settings of one run of the generator, and their check.

    * `ReadPolicy.parse`  — a policy by its word, in letters of either case.
    * `Mode`              — settings that passed the check.
    * `Mode.ofDraft`      — the check.

  Reference: `StringReadPolicy.parse` and `CaptureMode.__post_init__`.
-/
import Tracewright.Run
import Tracewright.Text.Case

namespace Tracewright

/-- The policy that a value names. -/
def ReadPolicy.parse (v : Value) : Except ConfigFault ReadPolicy :=
  match ReadPolicy.ofWord? (Text.lower v.write) with
  | some p => .ok p
  | none => .error (.unknownPolicy v)

/-- The number of a process. -/
structure Pid where
  number : Nat
  positive : 0 < number
  deriving DecidableEq, Repr

/-- The settings of one run. -/
structure Mode where
  /-- Anything that is true turns on the special handling of forks and exits. -/
  fullFeature : Value := .bool false
  policy : ReadPolicy := .fixed
  /-- The number of packets for one string. -/
  packets : Nat := 0
  /-- The name of a set of system calls; nothing stands for all of them. -/
  expression : Option Text := none
  /-- The process that is traced; without one all but the generator are. -/
  pid : Option Pid := none
  deriving Repr

namespace Mode

/-- Settings before the check. -/
structure Draft where
  fullFeature : Value := .bool false
  policy : Sum ReadPolicy Value := .inl .fixed
  packets : Value := .int 0
  expression : Value := .null
  pid : Value := .null

def checkPolicy : Sum ReadPolicy Value → Except ConfigFault ReadPolicy
  | .inl p => .ok p
  | .inr v => .error (.notPolicy v)

/-- The packets are counted by an integer that is not negative. -/
def checkPackets : Value → Except ConfigFault Nat
  | .int n => if n < 0 then .error (.packetsNegative n) else .ok n.toNat
  | v => .error (.packetsNotInteger v)

/-- The expression is a text, if there is one. -/
def checkExpression : Value → Except ConfigFault (Option Text)
  | .null => .ok none
  | .text t => .ok (some t)
  | v => .error (.expressionNotText v)

/-- The process has a positive number, if there is one. -/
def checkPid : Value → Except ConfigFault (Option Pid)
  | .null => .ok none
  | .int n => if h : 0 < n then .ok (some ⟨n.toNat, by omega⟩) else .error (.pidNotPositive n)
  | v => .error (.pidNotInteger v)

/-- The settings, if they pass the check; the first fault is told. -/
def ofDraft (d : Draft) : Except ConfigFault Mode := do
  let policy ← checkPolicy d.policy
  let packets ← checkPackets d.packets
  let expression ← checkExpression d.expression
  let pid ← checkPid d.pid
  pure ⟨d.fullFeature, policy, packets, expression, pid⟩

/-- Strings need more packets than the two that every handler reads. -/
def usesOverflow (m : Mode) : Bool := m.policy.isVariableLength && 2 < m.packets

end Mode

end Tracewright
