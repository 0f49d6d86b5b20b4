/-
  Tracewright.Proofs.Settings.Mode

  What is wrong with settings is said as a fault in the settings, with few
  exceptions.  Here they are all named: for a file of settings, and for the
  check of settings as a whole.

    * `failsWith_load_iff`  — when a file of settings fails with such a fault.
    * `failsWith_mode_iff`  — when the check does.
    * `describes_of_mode`   — what a mode has to do with its settings.
-/
import Tracewright.Proofs.Settings.Layers

namespace Tracewright

/-- The failure is a fault in settings or in a listing, and reported as one. -/
def Failure.IsConfig (e : Failure) : Prop := ∃ fault, e = .config fault

namespace Run

variable {α : Type}

/-- A fault is reported as one if its message can be written. -/
theorem failsWith_fail_config_iff {fault : ConfigFault} :
    (fail (.config fault) : Run α).FailsWith Failure.IsConfig ↔ fault.isWritable = true := by
  have hobstacle : (Failure.config fault).obstacle? = fault.obstacle? := rfl
  rw [FailsWith, fail, Failure.told, hobstacle, ConfigFault.isWritable]
  cases fault.obstacle? with
  | none => exact ⟨fun _ => rfl, fun _ e he => ⟨fault, by cases he; rfl⟩⟩
  | some obstacle =>
    constructor
    · intro h
      obtain ⟨fault', hfault⟩ := h _ rfl
      cases obstacle <;> cases hfault
    · intro h
      cases h

/-- A failure of another kind stays one, whether or not its message can be written. -/
theorem not_failsWith_fail {e : Failure} (he : ¬ e.IsConfig) :
    ¬ (fail e : Run α).FailsWith Failure.IsConfig := by
  intro h
  have hconfig : e.told.IsConfig := h _ rfl
  rw [Failure.told] at hconfig
  cases hobstacle : e.obstacle? with
  | none =>
    rw [hobstacle] at hconfig
    exact he hconfig
  | some obstacle =>
    rw [hobstacle] at hconfig
    obtain ⟨fault, hfault⟩ := hconfig
    cases obstacle <;> cases hfault

theorem failsWith_ofCheck_iff {x : Except ConfigFault α} :
    (ofCheck x).FailsWith Failure.IsConfig ↔
      ∀ fault, x = .error fault → fault.isWritable = true := by
  cases x with
  | ok a =>
    refine ⟨fun _ fault h => ?_, fun _ => failsWith_pure a⟩
    cases h
  | error fault =>
    rw [ofCheck, failsWith_fail_config_iff]
    refine ⟨fun h fault' he => ?_, fun h => h fault rfl⟩
    cases he
    exact h

theorem result_ofCheck_eq_ok_iff {x : Except ConfigFault α} {a : α} :
    (ofCheck x).result = .ok a ↔ x = .ok a := by
  cases x with
  | ok b =>
    constructor
    · intro h
      cases h
      rfl
    · intro h
      cases h
      rfl
  | error fault =>
    constructor
    · intro h
      cases h
    · intro h
      cases h

theorem failsWith_decimal_iff {n : Int} :
    (decimal n).FailsWith Failure.IsConfig ↔ Numeral.isWritable n = true := by
  rw [decimal]
  split_ifs with h
  · exact ⟨fun _ => h, fun _ => failsWith_pure _⟩
  · have hvalue : ¬ Failure.IsConfig (.value .overlongNumeral) := by
      rintro ⟨_, h⟩
      cases h
    exact ⟨fun hfail => absurd hfail (not_failsWith_fail hvalue), fun hn => absurd hn h⟩

theorem failsWith_record {P : Failure → Prop} (level : Log.Level) (source message : Text) :
    (record level source message).FailsWith P := by
  intro e h
  cases h

end Run

namespace Settings

open Run (FailsWith failsWith_pure failsWith_bind failsWith_fail_config_iff failsWith_ofCheck_iff
  failsWith_decimal_iff failsWith_record result_ofCheck_eq_ok_iff not_failsWith_fail)

variable {s : Settings} {m : Mode} {v : Value}

/-! ## Files -/

/-- A document without a value is a fault in the settings if the system refuses it or the text is
    none; what the reader runs into besides is not reported. -/
def IsReportedFault : Yaml.Fault → Prop
  | .os fault => fault ≠ .unnameable
  | .malformed => True
  | .notUtf8 | .unreadable _ | .tooLarge | .wrongKind | .noSuchKey | .tooDeep | .other _ => False

theorem failsWith_document_iff {platform : Platform} {files : Files} {file : Text} :
    (document platform files file).FailsWith Failure.IsConfig ↔
      ∀ fault, platform.load files (Path.ofText file) = .error fault → IsReportedFault fault := by
  rw [document]
  cases hload : platform.load files (Path.ofText file) with
  | ok d =>
    refine ⟨fun _ fault h => ?_, fun _ => failsWith_pure d⟩
    cases h
  | error fault =>
    simp only [Except.error.injEq, forall_eq']
    -- one case for each fault that a document can have, and one for a name that no file has
    cases fault with
    | os fault =>
      by_cases hname : fault = .unnameable
      · subst hname
        exact ⟨fun h => absurd h (not_failsWith_fail nofun), fun h => absurd rfl h⟩
      · have hunreadable :
            (unreadable file (.os fault) : Run Document).FailsWith Failure.IsConfig :=
          (failsWith_record _ _ _).bind fun _ => failsWith_fail_config_iff.2 rfl
        refine ⟨fun _ => hname, fun _ => ?_⟩
        cases fault <;> first | exact hunreadable | exact absurd rfl hname
    | malformed =>
      exact ⟨fun _ => trivial, fun _ =>
        (failsWith_record _ _ _).bind fun _ => failsWith_fail_config_iff.2 rfl⟩
    | notUtf8 | unreadable _ | tooLarge | wrongKind | noSuchKey | tooDeep | other _ =>
      exact ⟨fun h => absurd h (not_failsWith_fail nofun), False.elim⟩

/-- What a document that has a value can be at fault with is said as a fault. -/
theorem failsWith_overlay (depths : Depths) (file : Text) (d : Document) :
    (overlay file d (usual depths)).1.FailsWith Failure.IsConfig := by
  rw [overlay]
  split_ifs with hroot hentries
  · exact failsWith_pure ()
  · obtain ⟨s, hrun, -⟩ := exists_hasLaid depths hentries
    rw [Action.bind_of_pure hrun]
    exact failsWith_record _ _ _
  · exact failsWith_fail_config_iff.2 rfl

/-- A file of settings fails with a fault in the settings, unless its path is too long or its
    document cannot be taken. -/
theorem failsWith_load_iff {platform : Platform} {files : Files} {file : Text} {depths : Depths} :
    (load platform files file (usual depths)).1.FailsWith Failure.IsConfig ↔
      ∃ there, files.probe (Path.ofText file) = .ok there ∧
        (there.isSome → ∀ fault, platform.load files (Path.ofText file) = .error fault →
          IsReportedFault fault) := by
  rw [load]
  cases hprobe : files.probe (Path.ofText file) with
  | error fault =>
    refine ⟨fun h => absurd h (not_failsWith_fail nofun), fun ⟨there, hthere, _⟩ => ?_⟩
    cases hthere
  | ok there =>
    cases there with
    | none =>
      refine ⟨fun _ => ⟨none, rfl, fun hsome => ?_⟩, fun _ => failsWith_record _ _ _⟩
      cases hsome
    | some n =>
      have hrun : ((liftM (document platform files file) >>= overlay file :
            Action Settings Unit) (usual depths)).1 =
          document platform files file >>= fun d => (overlay file d (usual depths)).1 :=
        Action.run_lift_bind _ _ _
      simp only [hrun]
      rw [failsWith_bind, failsWith_document_iff]
      constructor
      · intro h
        exact ⟨some n, rfl, fun _ => h.1⟩
      · rintro ⟨there, hthere, h⟩
        cases hthere
        exact ⟨h rfl, fun d _ => failsWith_overlay depths file d⟩

/-! ## Numbers -/

/-- A value is read as an integer, or it can be said that it is none. -/
def TellsInteger (v : Value) : Prop :=
  (∃ n, v.toInt = .ok n) ∨ (v.toInt ≠ .error .infinite ∧ v.isWritable = true)

theorem failsWith_integer_iff {fault : Value → ConfigFault}
    (hfault : (fault v).isWritable = v.isWritable) :
    (integer fault v).FailsWith Failure.IsConfig ↔ TellsInteger v := by
  rw [integer, TellsInteger]
  cases hint : v.toInt with
  | ok n => exact ⟨fun _ => .inl ⟨n, rfl⟩, fun _ => failsWith_pure n⟩
  | error why =>
    have hnone : ¬ ∃ n, (Except.error why : Except IntFault Int) = .ok n := fun ⟨_, h⟩ => nomatch h
    rw [or_iff_right hnone]
    cases why with
    | infinite => exact ⟨fun h => absurd h (not_failsWith_fail nofun), fun h => absurd rfl h.1⟩
    | wrongKind =>
      rw [failsWith_fail_config_iff, hfault]
      exact ⟨fun h => ⟨nofun, h⟩, And.right⟩
    | noNumeral =>
      rw [failsWith_fail_config_iff, hfault]
      exact ⟨fun h => ⟨nofun, h⟩, And.right⟩

theorem result_integer_eq_ok_iff {fault : Value → ConfigFault} {n : Int} :
    (integer fault v).result = .ok n ↔ v.toInt = .ok n := by
  rw [integer]
  cases hint : v.toInt with
  | ok k => exact ⟨fun h => by cases h; rfl, fun h => by cases h; rfl⟩
  | error why =>
    constructor
    · intro h
      cases why <;> cases h
    · intro h
      cases h

/-! ## Processes -/

/-- What can be said of a process setting. -/
def TellsPid (v : Value) : Prop :=
  TellsInteger v ∧ ∀ n, v.toInt = .ok n → n < 0 → Numeral.isWritable n = true

/-- What is told of a negative number. -/
def tellNegative (n : Int) : Run Unit :=
  if n < 0 then do
    let numeral ← Run.decimal n
    Run.record Log.Level.warning Log.Source.settings (("Ignoring negative pid " : Text)
      ++ numeral ++ (", excluding own pid instead" : Text))
  else pure ()

theorem failsWith_tellNegative_iff {n : Int} :
    (tellNegative n).FailsWith Failure.IsConfig ↔ (n < 0 → Numeral.isWritable n = true) := by
  rw [tellNegative]
  split_ifs with hn
  · rw [failsWith_bind, failsWith_decimal_iff]
    exact ⟨fun h _ => h.1, fun h => ⟨h hn, fun _ _ => failsWith_record _ _ _⟩⟩
  · exact ⟨fun _ h => absurd h hn, fun _ => failsWith_pure _⟩

theorem pid_of_ne_null (hv : v ≠ .null) :
    pid v = integer .pidUnreadable v >>= fun n =>
      tellNegative n >>= fun _ => pure (if n ≤ 0 then .null else .int n) := by
  rw [pid.eq_2 _ hv]
  refine bind_congr fun n => ?_
  rw [tellNegative]
  split_ifs
  · rw [bind_assoc]
  · rfl
  · rw [bind_assoc]
  · rfl

theorem failsWith_pid_iff : (pid v).FailsWith Failure.IsConfig ↔ TellsPid v := by
  by_cases hv : v = .null
  · subst hv
    refine ⟨fun _ => ⟨.inr ⟨nofun, rfl⟩, fun n h => ?_⟩, fun _ => failsWith_pure _⟩
    cases h
  · rw [pid_of_ne_null hv, failsWith_bind, failsWith_integer_iff rfl, TellsPid]
    refine and_congr_right fun _ => forall_congr' fun n => ?_
    rw [result_integer_eq_ok_iff, failsWith_bind, failsWith_tellNegative_iff]
    exact imp_congr_right fun _ => and_iff_left fun _ _ => failsWith_pure _

/-- The process setting that is checked: none, or a positive number. -/
theorem result_pid_eq_ok {w : Value} (h : (pid v).result = .ok w) :
    (v = .null ∧ w = .null) ∨ ∃ n, v.toInt = .ok n ∧ w = if n ≤ 0 then .null else .int n := by
  by_cases hv : v = .null
  · subst hv
    cases h
    exact .inl ⟨rfl, rfl⟩
  · rw [pid_of_ne_null hv] at h
    obtain ⟨n, hn, h⟩ := Run.result_bind_eq_ok h
    obtain ⟨-, -, h⟩ := Run.result_bind_eq_ok h
    cases h
    exact .inr ⟨n, result_integer_eq_ok_iff.1 hn, rfl⟩

theorem exists_pid_iff (h : TellsPid v) :
    (∃ w, (pid v).result = .ok w) ↔ v = .null ∨ ∃ n, v.toInt = .ok n := by
  constructor
  · rintro ⟨w, hw⟩
    rcases result_pid_eq_ok hw with ⟨hv, -⟩ | ⟨n, hn, -⟩
    · exact .inl hv
    · exact .inr ⟨n, hn⟩
  · rintro (rfl | ⟨n, hn⟩)
    · exact ⟨.null, rfl⟩
    · have hv : v ≠ .null := by
        rintro rfl
        cases hn
      have htold : (tellNegative n).result = .ok () := by
        rw [tellNegative]
        split_ifs with hnegative
        · exact Run.result_bind_of_ok (Run.result_decimal (h.2 n hn hnegative)) _
        · rfl
      refine ⟨if n ≤ 0 then .null else .int n, ?_⟩
      rw [pid_of_ne_null hv, Run.result_bind_of_ok (result_integer_eq_ok_iff.2 hn),
        Run.result_bind_of_ok htold]
      rfl

/-! ## The check -/

/-- The values that the check of settings looks at. -/
def packetsOf (s : Settings) : Value := s.get "generator.string_packets" (.int 0)

def pidOf (s : Settings) : Value := s.get "generator.pid" .null

def policyOf (s : Settings) : Value := s.get "generator.string_read" (.text "fixed")

def expressionOf (s : Settings) : Value := s.get "generator.expression" .null

def fullFeatureOf (s : Settings) : Value := s.get "generator.full_feature" (.bool false)

/-- What is checked last: the policy is known, and numbers are. -/
def draft (s : Settings) (packets : Int) (pid : Value) (policy : ReadPolicy) : Mode.Draft where
  fullFeature := .bool s.fullFeatureOf.isTrue
  policy := .inl policy
  packets := .int packets
  expression := s.expressionOf
  pid := pid

theorem mode_eq (s : Settings) :
    s.mode = integer .packetsUnreadable s.packetsOf >>= fun packets => pid s.pidOf >>= fun pid =>
      Run.ofCheck (ReadPolicy.parse s.policyOf) >>= fun policy =>
        Run.ofCheck (Mode.ofDraft (s.draft packets pid policy)) := rfl

/-- An expression that is no text is at fault, and shown. -/
theorem checkExpression_eq_error {fault : ConfigFault}
    (h : Mode.checkExpression v = .error fault) : fault = .expressionNotText v := by
  unfold Mode.checkExpression at h
  split at h <;> cases h
  rfl

theorem isWritable_of_checkExpression_iff :
    (∀ fault, Mode.checkExpression v = .error fault → fault.isWritable = true) ↔
      v.isWritable = true := by
  have hshown : (ConfigFault.expressionNotText v).isWritable = v.isWritable := rfl
  constructor
  · intro h
    cases hcheck : Mode.checkExpression v with
    | error fault =>
      rw [← hshown, ← checkExpression_eq_error hcheck]
      exact h fault hcheck
    | ok expression =>
      -- no expression, and texts, can always be written
      unfold Mode.checkExpression at hcheck
      split at hcheck
      · rfl
      · rfl
      · cases hcheck
  · intro h fault hfault
    rw [checkExpression_eq_error hfault, hshown, h]

/-- What is known of a process does not come to fault in the last check. -/
def IsChecked (pid : Value) : Prop := pid = .null ∨ ∃ n, 0 < n ∧ pid = .int n

theorem isChecked_of_pid {w : Value} (h : (pid v).result = .ok w) : IsChecked w := by
  rcases result_pid_eq_ok h with ⟨-, rfl⟩ | ⟨n, -, rfl⟩
  · exact .inl rfl
  · split_ifs with hn
    · exact .inl rfl
    · exact .inr ⟨n, by omega, rfl⟩

theorem exists_checkPid {pid : Value} (h : IsChecked pid) :
    ∃ number, Mode.checkPid pid = .ok number := by
  rcases h with rfl | ⟨n, hn, rfl⟩
  · exact ⟨none, rfl⟩
  · refine ⟨some ⟨n.toNat, by omega⟩, ?_⟩
    rw [Mode.checkPid, dif_pos hn]

/-- The last check: the packets, the expression and the process, in this order. -/
theorem ofDraft_draft (s : Settings) (packets : Int) (pid : Value) (policy : ReadPolicy) :
    Mode.ofDraft (s.draft packets pid policy) =
      Mode.checkPackets (.int packets) >>= fun count =>
        Mode.checkExpression s.expressionOf >>= fun expression =>
          Mode.checkPid pid >>= fun number =>
            .ok ⟨.bool s.fullFeatureOf.isTrue, policy, count, expression, number⟩ := rfl

theorem failsWith_ofDraft_iff {packets : Int} {pid : Value} {policy : ReadPolicy}
    (hpid : IsChecked pid) :
    (Run.ofCheck (Mode.ofDraft (s.draft packets pid policy))).FailsWith Failure.IsConfig ↔
      (packets < 0 → Numeral.isWritable packets = true) ∧
        (0 ≤ packets → s.expressionOf.isWritable = true) := by
  rw [failsWith_ofCheck_iff]
  obtain ⟨number, hnumber⟩ := exists_checkPid hpid
  -- the packets are checked before the expression, and the pid is known to pass
  have hdraft : Mode.ofDraft (s.draft packets pid policy) =
      if packets < 0 then .error (.packetsNegative packets)
      else Mode.checkExpression s.expressionOf >>= fun expression =>
        .ok ⟨.bool s.fullFeatureOf.isTrue, policy, packets.toNat, expression, number⟩ := by
    rw [ofDraft_draft, hnumber, Mode.checkPackets]
    split_ifs <;> rfl
  rw [hdraft]
  have hshown : (ConfigFault.packetsNegative packets).isWritable = Numeral.isWritable packets :=
    Scalar.isNone_obstacle?_int packets
  by_cases hnegative : packets < 0
  · rw [if_pos hnegative]
    simp only [Except.error.injEq, forall_eq', hshown]
    exact ⟨fun h => ⟨fun _ => h, fun hpos => absurd hnegative (by omega)⟩, fun h => h.1 hnegative⟩
  · rw [if_neg hnegative, ← isWritable_of_checkExpression_iff]
    cases hcheck : Mode.checkExpression s.expressionOf with
    | error fault' =>
      have herror : (Except.error fault' >>= fun expression : Option Text => Except.ok (
          Mode.mk (.bool s.fullFeatureOf.isTrue) policy packets.toNat expression number)) =
        Except.error fault' := rfl
      rw [herror]
      simp only [Except.error.injEq, forall_eq']
      exact ⟨fun h => ⟨fun hn => absurd hn hnegative, fun _ => h⟩, fun h => h.2 (by omega)⟩
    | ok expression =>
      refine ⟨fun _ => ⟨fun hn => absurd hn hnegative, fun _ => nofun⟩, fun _ fault h => ?_⟩
      cases h

/-- Settings of which everything that is wrong can be said: no number that is looked at is
    infinite, and what is at fault can be shown.  A value is looked at if those before it are
    in order. -/
def IsTellable (s : Settings) : Prop :=
  TellsInteger s.packetsOf ∧ ∀ packets, s.packetsOf.toInt = .ok packets →
    TellsPid s.pidOf ∧ ((s.pidOf = .null ∨ ∃ n, s.pidOf.toInt = .ok n) →
      ((∃ policy, ReadPolicy.parse s.policyOf = .ok policy) ∨ s.policyOf.isWritable = true) ∧
      ((∃ policy, ReadPolicy.parse s.policyOf = .ok policy) →
        (packets < 0 → Numeral.isWritable packets = true) ∧
          (0 ≤ packets → s.expressionOf.isWritable = true)))

theorem failsWith_parse_iff :
    (Run.ofCheck (ReadPolicy.parse v)).FailsWith Failure.IsConfig ↔
      (∃ policy, ReadPolicy.parse v = .ok policy) ∨ v.isWritable = true := by
  have hshown : (ConfigFault.unknownPolicy v).isWritable = v.isWritable := rfl
  rw [failsWith_ofCheck_iff, ReadPolicy.parse]
  cases ReadPolicy.ofWord? (Text.lower v.write) with
  | some policy => exact ⟨fun _ => .inl ⟨policy, rfl⟩, fun _ => nofun⟩
  | none =>
    simp only [Except.error.injEq, forall_eq', hshown]
    exact ⟨.inr, fun h => h.resolve_left fun ⟨_, h⟩ => nomatch h⟩

/-- The check fails with a fault in the settings, as long as everything can be said. -/
theorem failsWith_mode_iff : s.mode.FailsWith Failure.IsConfig ↔ s.IsTellable := by
  rw [mode_eq, failsWith_bind, failsWith_integer_iff rfl, IsTellable]
  refine and_congr_right fun _ => forall_congr' fun packets => ?_
  rw [result_integer_eq_ok_iff, failsWith_bind, failsWith_pid_iff]
  refine imp_congr_right fun _ => and_congr_right fun htells => ?_
  rw [← exists_pid_iff htells, forall_exists_index]
  refine forall_congr' fun w => imp_congr_right fun hw => ?_
  rw [failsWith_bind, failsWith_parse_iff, forall_exists_index]
  refine and_congr_right fun _ => forall_congr' fun policy => ?_
  -- the last check is the same whatever the process is
  rw [failsWith_ofDraft_iff (isChecked_of_pid hw), result_ofCheck_eq_ok_iff]

/-! ## Modes -/

/-- Settings describe a mode: each of its parts is what a value of theirs stands for. -/
structure Describes (s : Settings) (m : Mode) : Prop where
  packets : s.packetsOf.toInt = .ok (m.packets : Int)
  /-- A number that is not positive stands for no process. -/
  pid : (s.pidOf = .null ∧ m.pid = none) ∨ ∃ n, s.pidOf.toInt = .ok n ∧
    m.pid.map (fun pid => (pid.number : Int)) = if 0 < n then some n else none
  policy : ReadPolicy.parse s.policyOf = .ok m.policy
  expression : Mode.checkExpression s.expressionOf = .ok m.expression
  fullFeature : m.fullFeature = .bool s.fullFeatureOf.isTrue

/-- The numbers of a draft that passes the last check. -/
theorem ofDraft_eq_ok {packets : Int} {pid : Value} {policy : ReadPolicy}
    (h : Mode.ofDraft (s.draft packets pid policy) = .ok m) :
    packets = m.packets ∧ Mode.checkPid pid = .ok m.pid ∧ policy = m.policy ∧
      Mode.checkExpression s.expressionOf = .ok m.expression ∧
        m.fullFeature = .bool s.fullFeatureOf.isTrue := by
  rw [ofDraft_draft, Mode.checkPackets] at h
  by_cases hnegative : packets < 0
  · rw [if_pos hnegative] at h
    cases h
  rw [if_neg hnegative] at h
  cases hexpression : Mode.checkExpression s.expressionOf with
  | error fault => rw [hexpression] at h; cases h
  | ok expression =>
    cases hpid : Mode.checkPid pid with
    | error fault => rw [hexpression, hpid] at h; cases h
    | ok number =>
      rw [hexpression, hpid] at h
      cases h
      have hpackets : packets = (packets.toNat : Int) := by omega
      exact ⟨hpackets, rfl, rfl, rfl, rfl⟩

/-- The mode that settings are checked for is the one that they describe. -/
theorem describes_of_mode (h : s.mode.result = .ok m) : s.Describes m := by
  rw [mode_eq] at h
  obtain ⟨packets, hpackets, h⟩ := Run.result_bind_eq_ok h
  obtain ⟨w, hw, h⟩ := Run.result_bind_eq_ok h
  obtain ⟨policy, hpolicy, h⟩ := Run.result_bind_eq_ok h
  obtain ⟨rfl, hpid, rfl, hexpression, hfullFeature⟩ := ofDraft_eq_ok (result_ofCheck_eq_ok_iff.1 h)
  refine ⟨result_integer_eq_ok_iff.1 hpackets, ?_, result_ofCheck_eq_ok_iff.1 hpolicy, hexpression,
    hfullFeature⟩
  rcases result_pid_eq_ok hw with ⟨hnull, rfl⟩ | ⟨n, hn, rfl⟩
  · exact .inl ⟨hnull, (Except.ok.inj hpid).symm⟩
  · refine .inr ⟨n, hn, ?_⟩
    by_cases hpositive : 0 < n
    · rw [if_neg (by omega), Mode.checkPid, dif_pos hpositive, Except.ok.injEq] at hpid
      rw [if_pos hpositive, ← hpid, Option.map_some, Option.some.injEq]
      exact Int.toNat_of_nonneg (by omega)
    · rw [if_pos (by omega), Mode.checkPid, Except.ok.injEq] at hpid
      rw [if_neg hpositive, ← hpid, Option.map_none]

end Settings

end Tracewright
