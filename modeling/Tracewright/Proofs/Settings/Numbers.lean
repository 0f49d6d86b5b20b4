/-
  Tracewright.Proofs.Settings.Numbers

  The two numbers in settings, however they are spelled: the check makes of
  them what it makes of the integers.

    * `Value.Spells`      — a value spells an integer.
    * `pid_of_spells`     — the process setting.
    * `mode_of_spelled_pid`, `result_mode_of_spelled_packets`
                          — what the check of settings makes of either number.
    * `Alike.mode_eq`     — it is the same for all spellings.
-/
import Tracewright.Proofs.Number.Numeral
import Tracewright.Proofs.Settings.Mode

namespace Tracewright

/-- A value spells an integer: it is the integer, or a text that spells it. -/
def Value.Spells (n : Int) (v : Value) : Prop :=
  v = .int n ∨ ∃ t, v = .text t ∧ Numeral.Spells n t

theorem Value.Spells.toInt_eq {n : Int} {v : Value} (h : v.Spells n) : v.toInt = .ok n := by
  rcases h with rfl | ⟨t, rfl, ht⟩
  · rfl
  · rw [Value.toInt, Numeral.read?_of_spells ht]

theorem Value.Spells.ne_null {n : Int} {v : Value} (h : v.Spells n) : v ≠ .null := by
  rcases h with rfl | ⟨t, rfl, -⟩ <;> exact nofun

namespace Settings

variable {s s' : Settings} {v v' : Value} {n : Int} {policy : ReadPolicy} {expression : Option Text}

/-! ## The process -/

/-- The records of the check: a number that is negative is told of. -/
def pidLog (n : Int) : List Log.Record :=
  if n < 0 then
    [⟨Log.Level.warning, Log.Source.settings, ("Ignoring negative pid " : Text)
      ++ Numeral.decimal n ++ (", excluding own pid instead" : Text)⟩]
  else []

theorem integer_of_spells (fault : Value → ConfigFault) (hv : v.Spells n) :
    integer fault v = pure n := by
  rw [integer, hv.toInt_eq]

theorem tellNegative_eq (hn : n < 0 → Numeral.isWritable n = true) :
    tellNegative n = ⟨pidLog n, .ok ()⟩ := by
  rw [tellNegative, pidLog]
  split_ifs with hnegative
  · have hdecimal : Run.decimal n = pure (Numeral.decimal n) := if_pos (hn hnegative)
    rw [hdecimal, pure_bind, Run.record]
  · rfl

theorem pid_of_spells (hn : n < 0 → Numeral.isWritable n = true) (hv : v.Spells n) :
    pid v = ⟨pidLog n, .ok (if n ≤ 0 then .null else .int n)⟩ := by
  rw [pid_of_ne_null hv.ne_null, integer_of_spells _ hv, pure_bind, tellNegative_eq hn, Run.bind_ok,
    Run.pure_eq, List.append_nil]

/-- The process that a number stands for. -/
theorem exists_checkPid_of_number (n : Int) :
    ∃ number, Mode.checkPid (if n ≤ 0 then .null else .int n) = .ok number ∧
      number.map (fun pid => (pid.number : Int)) = if 0 < n then some n else none := by
  by_cases hn : 0 < n
  · refine ⟨some ⟨n.toNat, by omega⟩, ?_, ?_⟩
    · rw [if_neg (by omega), Mode.checkPid, dif_pos hn]
    · rw [if_pos hn, Option.map_some, Option.some_inj]
      exact Int.toNat_of_nonneg (by omega)
  · refine ⟨none, ?_, ?_⟩
    · rw [if_pos (by omega)]
      rfl
    · rw [if_neg hn]
      rfl

/-! ## The check -/

/-- The settings beside the two numbers are in order. -/
structure HasValidWords (s : Settings) : Prop where
  policy : ∃ policy, ReadPolicy.parse s.policyOf = .ok policy
  expression : ∃ expression, Mode.checkExpression s.expressionOf = .ok expression

def HasValidPackets (s : Settings) : Prop := ∃ k : Nat, s.packetsOf.toInt = .ok (k : Int)

/-- There is no process, or a number that can be told of. -/
def HasValidPid (s : Settings) : Prop :=
  s.pidOf = .null ∨ ∃ n, s.pidOf.toInt = .ok n ∧ (n < 0 → Numeral.isWritable n = true)

/-- The numbers are read before anything else is checked, and only the process has records. -/
theorem mode_eq_of_numbers {packets : Int} {w : Value} {log : List Log.Record}
    (hpackets : s.packetsOf.toInt = .ok packets) (hpid : pid s.pidOf = ⟨log, .ok w⟩)
    (hpolicy : ReadPolicy.parse s.policyOf = .ok policy) :
    s.mode = ⟨log, (Run.ofCheck (Mode.ofDraft (s.draft packets w policy))).result⟩ := by
  have hinteger : integer .packetsUnreadable s.packetsOf = pure packets := by
    rw [integer, hpackets]
  have hlog : (Run.ofCheck (Mode.ofDraft (s.draft packets w policy))).log = [] := by
    cases Mode.ofDraft (s.draft packets w policy) <;> rfl
  rw [mode_eq, hinteger, pure_bind, hpid, hpolicy]
  show (⟨log ++ ([] ++ _), _⟩ : Run Mode) = _
  rw [hlog, List.append_nil, List.append_nil]
  rfl

theorem ofDraft_of_valid {packets : Nat} {w : Value} {number : Option Pid}
    (hexpression : Mode.checkExpression s.expressionOf = .ok expression)
    (hnumber : Mode.checkPid w = .ok number) :
    Mode.ofDraft (s.draft packets w policy) =
      .ok ⟨.bool s.fullFeatureOf.isTrue, policy, packets, expression, number⟩ := by
  rw [ofDraft_draft, hexpression, hnumber, Mode.checkPackets, if_neg (by omega)]
  rfl

theorem ofDraft_of_negative {packets : Int} {w : Value} (h : packets < 0) :
    Mode.ofDraft (s.draft packets w policy) = .error (.packetsNegative packets) := by
  rw [ofDraft_draft, Mode.checkPackets, if_pos h]
  rfl

/-- A process setting that is in order does not keep the rest from being checked. -/
theorem exists_pid_of_valid (h : s.HasValidPid) :
    ∃ log w number, pid s.pidOf = ⟨log, .ok w⟩ ∧ Mode.checkPid w = .ok number := by
  have htells : TellsPid s.pidOf := by
    rcases h with hnull | ⟨n, hn, hwritable⟩
    · rw [hnull]
      exact ⟨.inr ⟨nofun, rfl⟩, nofun⟩
    · refine ⟨.inl ⟨n, hn⟩, fun k hk => ?_⟩
      rw [hn, Except.ok.injEq] at hk
      rwa [← hk]
  obtain ⟨w, hw⟩ := (exists_pid_iff htells).2 (h.imp_right fun ⟨n, hn, _⟩ => ⟨n, hn⟩)
  obtain ⟨number, hnumber⟩ := exists_checkPid (isChecked_of_pid hw)
  refine ⟨(pid s.pidOf).log, w, number, ?_, hnumber⟩
  rw [← hw]

/-- A number as process setting: it stands for a process if it is positive, and is told of if it
    is negative. -/
theorem mode_of_spelled_pid (hn : n < 0 → Numeral.isWritable n = true) (hv : s.pidOf.Spells n)
    (hpackets : s.HasValidPackets) (hwords : s.HasValidWords) :
    ∃ m, s.mode = ⟨pidLog n, .ok m⟩ ∧
      m.pid.map (fun pid => (pid.number : Int)) = if 0 < n then some n else none := by
  obtain ⟨packets, hpackets⟩ := hpackets
  obtain ⟨⟨policy, hpolicy⟩, expression, hexpression⟩ := hwords
  obtain ⟨number, hcheck, hnumber⟩ := exists_checkPid_of_number n
  refine ⟨⟨.bool s.fullFeatureOf.isTrue, policy, packets, expression, number⟩, ?_, hnumber⟩
  rw [mode_eq_of_numbers hpackets (pid_of_spells hn hv) hpolicy,
    ofDraft_of_valid hexpression hcheck]
  rfl

/-- A number of packets is taken if it is not negative. -/
theorem result_mode_of_spelled_packets (hn : n < 0 → Numeral.isWritable n = true)
    (hv : s.packetsOf.Spells n) (hpid : s.HasValidPid) (hwords : s.HasValidWords) :
    (0 ≤ n → ∃ m, s.mode.result = .ok m ∧ (m.packets : Int) = n) ∧
    (n < 0 → s.mode.result = .error (.config (.packetsNegative n))) := by
  obtain ⟨⟨policy, hpolicy⟩, expression, hexpression⟩ := hwords
  obtain ⟨log, w, number, hpid, hnumber⟩ := exists_pid_of_valid hpid
  rw [mode_eq_of_numbers hv.toInt_eq hpid hpolicy]
  constructor
  · intro hpositive
    obtain ⟨packets, rfl⟩ := Int.eq_ofNat_of_zero_le hpositive
    refine ⟨⟨.bool s.fullFeatureOf.isTrue, policy, packets, expression, number⟩, ?_, rfl⟩
    rw [ofDraft_of_valid hexpression hnumber]
    rfl
  · intro hnegative
    have hwritable : (Failure.config (.packetsNegative n)).isWritable = true :=
      (Scalar.isNone_obstacle?_int n).trans (hn hnegative)
    rw [ofDraft_of_negative hnegative]
    exact Run.result_fail hwritable

/-! ## Spellings -/

/-- The same value, or two spellings of one integer. -/
def SpellAlike (v v' : Value) : Prop := v = v' ∨ ∃ n, v.Spells n ∧ v'.Spells n

theorem SpellAlike.integer_eq (h : SpellAlike v v') (fault : Value → ConfigFault) :
    integer fault v = integer fault v' := by
  rcases h with rfl | ⟨n, hv, hv'⟩
  · rfl
  · rw [integer_of_spells _ hv, integer_of_spells _ hv']

theorem SpellAlike.pid_eq (h : SpellAlike v v') : pid v = pid v' := by
  rcases h with rfl | ⟨n, hv, hv'⟩
  · rfl
  · rw [pid_of_ne_null hv.ne_null, pid_of_ne_null hv'.ne_null, integer_of_spells _ hv,
      integer_of_spells _ hv']

/-- Settings that differ at most in how their numbers are spelled. -/
structure Alike (s s' : Settings) : Prop where
  packets : SpellAlike s.packetsOf s'.packetsOf
  pid : SpellAlike s.pidOf s'.pidOf
  policy : s.policyOf = s'.policyOf
  expression : s.expressionOf = s'.expressionOf
  fullFeature : s.fullFeatureOf = s'.fullFeatureOf

/-- The check yields the same, with the same records, for all spellings. -/
theorem Alike.mode_eq (h : Alike s s') : s.mode = s'.mode := by
  have hdraft : ∀ packets w policy, s.draft packets w policy = s'.draft packets w policy := by
    intro packets w policy
    rw [draft, draft, h.expression, h.fullFeature]
  rw [Settings.mode_eq, Settings.mode_eq, h.packets.integer_eq, h.pid.pid_eq, h.policy]
  simp only [hdraft]

end Settings

end Tracewright
