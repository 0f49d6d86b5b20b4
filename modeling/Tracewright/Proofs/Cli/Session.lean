/-
  Tracewright.Proofs.Cli.Session

  What steps of a session leave alone.  Records go to the console and to the
  log file; a quiet step changes nothing else.

    * `exec`            — a step as a function of the session.
    * `Session.Keeps`   — only records have come in between two sessions.
    * `NeverHelps`      — steps that do not end in help.
    * `Quiet`           — steps that let in records only.
    * `watch`           — quiet steps that end as runs do, in sessions of a
                          kind.
-/
import Tracewright.Cli.Generate
import Tracewright.Proofs.Files.Tree
import Tracewright.Proofs.Program.Simulation

namespace Tracewright

/-- Records change the log file only. -/
theorem Log.Setup.sameBut_writeFile (s : Log.Setup) (rs : List Log.Record) (files : Files) :
    Files.SameBut s.file files (s.writeFile rs files) := by
  rw [writeFile]
  cases s.file with
  | none => exact .refl _ _
  | some at_ => exact Files.sameBut_append _ _ _

namespace Cli

variable {α β : Type}

/-! ## Steps as functions -/

/-- How a step ends, and the session that it leaves. -/
def exec (x : Command α) (s : Session) : Except Exit α × Session := x.run s

theorem exec_bind (x : Command α) (f : α → Command β) (s : Session) :
    exec (x >>= f) s =
      match exec x s with
      | (.ok a, s') => exec (f a) s'
      | (.error e, s') => (.error e, s') := by
  show (x.run >>= ExceptT.bindCont f) s = _
  show (match x.run s with | (r, s') => ExceptT.bindCont f r s') = _
  rw [exec]
  rcases x.run s with ⟨r, s'⟩
  cases r <;> rfl

theorem exec_bind_of_ok {x : Command α} {s s' : Session} {a : α} (h : exec x s = (.ok a, s'))
    (f : α → Command β) : exec (x >>= f) s = exec (f a) s' := by
  rw [exec_bind, h]

theorem exec_bind_of_error {x : Command α} {s s' : Session} {e : Exit}
    (h : exec x s = (.error e, s')) (f : α → Command β) : exec (x >>= f) s = (.error e, s') := by
  rw [exec_bind, h]

/-- Steps that succeed one after the other have all succeeded. -/
theorem exec_bind_eq_ok {x : Command α} {f : α → Command β} {s s'' : Session} {b : β}
    (h : exec (x >>= f) s = (.ok b, s'')) :
    ∃ a s', exec x s = (.ok a, s') ∧ exec (f a) s' = (.ok b, s'') := by
  rw [exec_bind] at h
  rcases hx : exec x s with ⟨r, s'⟩
  rw [hx] at h
  cases r with
  | ok a => exact ⟨a, s', rfl, h⟩
  | error e => cases h

/-- Steps one after the other: the second one is taken, or the first one has failed. -/
theorem exec_bind_cases (x : Command α) (f : α → Command β) (s : Session) :
    (∃ a s', exec x s = (.ok a, s') ∧ exec (x >>= f) s = exec (f a) s') ∨
    ∃ e s', exec x s = (.error e, s') ∧ exec (x >>= f) s = (.error e, s') := by
  rcases hx : exec x s with ⟨r, s'⟩
  cases r with
  | ok a => exact .inl ⟨a, s', rfl, exec_bind_of_ok hx f⟩
  | error e => exact .inr ⟨e, s', rfl, exec_bind_of_error hx f⟩

theorem exec_get_bind (f : Session → Command β) (s : Session) :
    exec (get >>= f) s = exec (f s) s := rfl

theorem exec_modify (f : Session → Session) (s : Session) :
    exec (modify f : Command Unit) s = (.ok (), f s) := rfl

theorem exec_tryCatch (x : Command α) (handle : Exit → Command α) (s : Session) :
    exec (tryCatch x handle) s =
      match exec x s with
      | (.ok a, s') => (.ok a, s')
      | (.error e, s') => exec (handle e) s' := by
  show (ExceptT.tryCatch x handle).run s = _
  unfold ExceptT.tryCatch exec
  simp only [ExceptT.run, ExceptT.mk, bind, StateT.bind]
  rcases x s with ⟨r, s'⟩
  cases r <;> rfl

/-- A step with a handler: it has succeeded, or its end is handled. -/
theorem exec_tryCatch_cases (x : Command α) (handle : Exit → Command α) (s : Session) :
    (∃ a s', exec x s = (.ok a, s') ∧ exec (tryCatch x handle) s = (.ok a, s')) ∨
    ∃ e s', exec x s = (.error e, s') ∧ exec (tryCatch x handle) s = exec (handle e) s' := by
  rcases hx : exec x s with ⟨r, s'⟩
  rw [exec_tryCatch, hx]
  cases r with
  | ok a => exact .inl ⟨a, s', rfl, rfl⟩
  | error e => exact .inr ⟨e, s', rfl, rfl⟩

/-! ## What is kept -/

/-- Where the log file is, if there is one. -/
def Session.logFile (s : Session) : Option Location := s.log.bind Log.Setup.file

/-- Between two sessions only records have come in. -/
structure Session.Keeps (s s' : Session) : Prop where
  host : s'.host = s.host
  log : s'.log = s.log
  stdout : s'.stdout = s.stdout
  files : Files.SameBut s.logFile s.files s'.files

namespace Session.Keeps

variable {s s' s'' : Session}

theorem logFile_eq (h : s.Keeps s') : s'.logFile = s.logFile := by
  rw [Session.logFile, Session.logFile, h.log]

theorem refl (s : Session) : s.Keeps s := ⟨rfl, rfl, rfl, .refl _ _⟩

theorem trans (h : s.Keeps s') (h' : s'.Keeps s'') : s.Keeps s'' where
  host := h'.host.trans h.host
  log := h'.log.trans h.log
  stdout := h'.stdout.trans h.stdout
  files := h.files.trans (h.logFile_eq ▸ h'.files)

/-- Records are shown, and added to the log file. -/
theorem recorded (s : Session) (rs : List Log.Record) : s.Keeps (s.recorded rs) := by
  rw [Session.recorded]
  cases hlog : s.log with
  | none => exact .refl s
  | some log =>
    refine ⟨rfl, hlog.symm ▸ rfl, rfl, ?_⟩
    have hfile : s.logFile = log.file := by rw [Session.logFile, hlog, Option.bind_some]
    rw [hfile]
    exact log.sameBut_writeFile rs s.files

end Session.Keeps

/-! ## Steps without help -/

/-- A step does not end in help. -/
def NeverHelps (x : Command α) : Prop := ∀ s : Session, (exec x s).1 ≠ .error .help

section NeverHelps

variable {x : Command α}

theorem NeverHelps.ne_help (hx : NeverHelps x) {s s' : Session} {e : Exit}
    (h : exec x s = (.error e, s')) : e ≠ .help := by
  rintro rfl
  exact hx s (congrArg Prod.fst h)

theorem NeverHelps.bind {f : α → Command β} (hx : NeverHelps x) (hf : ∀ a, NeverHelps (f a)) :
    NeverHelps (x >>= f) := by
  intro s
  rcases exec_bind_cases x f s with ⟨a, s', hexec, hbind⟩ | ⟨e, s', hexec, hbind⟩
  · rw [hbind]
    exact hf a s'
  · rw [hbind]
    exact fun h => hx.ne_help hexec (Except.error.inj h)

/-- Only ends that are no call for help are handled. -/
theorem NeverHelps.tryCatch {handle : Exit → Command α} (hx : NeverHelps x)
    (hhandle : ∀ e, e ≠ .help → NeverHelps (handle e)) : NeverHelps (tryCatch x handle) := by
  intro s
  rcases exec_tryCatch_cases x handle s with ⟨a, s', hexec, htry⟩ | ⟨e, s', hexec, htry⟩
  · rw [htry]
    exact nofun
  · rw [htry]
    exact hhandle e (hx.ne_help hexec) s'

end NeverHelps

/-! ## Quiet steps -/

/-- A step lets in records only, however it ends, and it does not end in help. -/
structure Quiet (x : Command α) : Prop where
  keeps : ∀ s : Session, s.Keeps (exec x s).2
  noHelp : NeverHelps x

theorem Quiet.keeps_of_exec {x : Command α} (hx : Quiet x) {s s' : Session} {r : Except Exit α}
    (h : exec x s = (r, s')) : s.Keeps s' := by
  have hkeeps := hx.keeps s
  rwa [h] at hkeeps

theorem quiet_pure (a : α) : Quiet (pure a) := ⟨fun s => .refl s, fun _ => nofun⟩

theorem quiet_throw {e : Exit} (he : e ≠ .help) : Quiet (throw e : Command α) :=
  ⟨fun s => .refl s, fun _ h => he (Except.error.inj h)⟩

theorem quiet_failed : Quiet (throw .failed : Command α) := quiet_throw nofun

theorem quiet_raised (e : Failure) : Quiet (throw (.raised e) : Command α) := quiet_throw nofun

theorem Quiet.bind {x : Command α} {f : α → Command β} (hx : Quiet x) (hf : ∀ a, Quiet (f a)) :
    Quiet (x >>= f) := by
  refine ⟨fun s => ?_, hx.noHelp.bind fun a => (hf a).noHelp⟩
  rcases exec_bind_cases x f s with ⟨a, s', hexec, hbind⟩ | ⟨e, s', hexec, hbind⟩
  · rw [hbind]
    exact (hx.keeps_of_exec hexec).trans ((hf a).keeps s')
  · rw [hbind]
    exact hx.keeps_of_exec hexec

theorem quiet_get_bind {f : Session → Command β} (hf : ∀ s, Quiet (f s)) : Quiet (get >>= f) :=
  ⟨fun s => (hf s).keeps s, fun s => (hf s).noHelp s⟩

theorem Quiet.tryCatch {x : Command α} {handle : Exit → Command α} (hx : Quiet x)
    (hhandle : ∀ e, e ≠ .help → Quiet (handle e)) : Quiet (tryCatch x handle) := by
  refine ⟨fun s => ?_, hx.noHelp.tryCatch fun e he => (hhandle e he).noHelp⟩
  rcases exec_tryCatch_cases x handle s with ⟨a, s', hexec, htry⟩ | ⟨e, s', hexec, htry⟩
  · rw [htry]
    exact hx.keeps_of_exec hexec
  · rw [htry]
    exact (hx.keeps_of_exec hexec).trans ((hhandle e (hx.noHelp.ne_help hexec)).keeps s')

theorem quiet_modify {f : Session → Session} (hf : ∀ s : Session, s.Keeps (f s)) :
    Quiet (modify f : Command Unit) :=
  ⟨hf, fun _ => nofun⟩

theorem quiet_tell (t : Text) : Quiet (tell t) := quiet_modify fun _ => ⟨rfl, rfl, rfl, .refl _ _⟩

/-! ## Runs in sessions -/

/-- How a step ends that is a run. -/
def ending (x : Run α) : Except Exit α := x.result.mapError .raised

theorem ending_of_ok {x : Run α} {a : α} (h : x.result = .ok a) : ending x = .ok a := by
  rw [ending, h]
  rfl

theorem ending_of_error {x : Run α} {e : Failure} (h : x.result = .error e) :
    ending x = .error (.raised e) := by
  rw [ending, h]
  rfl

theorem ending_eq_ok {x : Run α} {a : α} (h : ending x = .ok a) : x.result = .ok a := by
  rw [ending] at h
  cases hx : x.result with
  | ok b => rw [hx] at h; cases h; rfl
  | error e => rw [hx] at h; cases h

theorem exec_perform (x : Run α) (s : Session) :
    exec (perform x) s = (ending x, s.recorded x.log) := by
  rw [perform, exec_bind, exec_modify, ending]
  cases x.result <;> rfl

theorem exec_perform_eq_ok {x : Run α} {s s' : Session} {a : α}
    (h : exec (perform x) s = (.ok a, s')) : x.result = .ok a := by
  rw [exec_perform] at h
  exact ending_eq_ok (Prod.mk.inj h).1

theorem ending_ne_help (x : Run α) : ending x ≠ .error .help := by
  rw [ending]
  cases x.result <;> exact nofun

theorem quiet_perform (x : Run α) : Quiet (perform x) := by
  refine ⟨fun s => ?_, fun s => ?_⟩
  · rw [exec_perform]
    exact .recorded s x.log
  · rw [exec_perform]
    exact ending_ne_help x

theorem quiet_performOn (x : Files → Run α) : Quiet (performOn x) :=
  quiet_get_bind fun s => quiet_perform (x s.files)

theorem exec_performOn (x : Files → Run α) (s : Session) :
    exec (performOn x) s = (ending (x s.files), s.recorded (x s.files).log) :=
  exec_perform (x s.files) s

theorem exec_performOn_eq_ok {x : Files → Run α} {s s' : Session} {a : α}
    (h : exec (performOn x) s = (.ok a, s')) : (x s.files).result = .ok a :=
  exec_perform_eq_ok h

/-! ## Reports -/

/-- What is told of an end before time, and how the session ends after it. -/
def report (first : Failure → Command Unit) : Exit → Command α
  | .raised e => do
    if e.isReported then
      first e
      tell (("Error: " : Text) ++ e.message)
      throw .failed
    throw (.raised e)
  | ending => throw ending

theorem reported_eq (first : Failure → Command Unit) (x : Command α) :
    reported first x = tryCatch x (report first) := rfl

theorem quiet_report {first : Failure → Command Unit} (hfirst : ∀ e, Quiet (first e)) {e : Exit}
    (he : e ≠ .help) : Quiet (report first e : Command α) := by
  cases e with
  | raised e =>
    simp only [report]
    split_ifs
    · exact (hfirst e).bind fun _ => (quiet_tell _).bind fun _ => quiet_failed.bind fun _ =>
        quiet_raised e
    · exact quiet_raised e
  | usage _ => exact quiet_throw nofun
  | help => exact absurd rfl he
  | failed => exact quiet_failed

theorem quiet_reported {first : Failure → Command Unit} {x : Command α}
    (hfirst : ∀ e, Quiet (first e)) (hx : Quiet x) : Quiet (reported first x) :=
  hx.tryCatch fun _ he => quiet_report hfirst he

/-- Whatever is told of a failure, in the end it is thrown. -/
theorem exec_report_ne_ok (first : Failure → Command Unit) (e : Exit) (s s' : Session) (a : α) :
    exec (report first e) s ≠ (.ok a, s') := by
  intro h
  cases e with
  | raised e =>
    simp only [report] at h
    split_ifs at h
    · obtain ⟨_, _, _, h⟩ := exec_bind_eq_ok h
      obtain ⟨_, _, _, h⟩ := exec_bind_eq_ok h
      obtain ⟨_, _, hthrow, _⟩ := exec_bind_eq_ok h
      cases hthrow
    · cases h
  | usage _ => cases h
  | help => cases h
  | failed => cases h

theorem exec_reported_of_ok {x : Command α} {s s' : Session} {a : α}
    (h : exec x s = (.ok a, s')) (first : Failure → Command Unit) :
    exec (reported first x) s = (.ok a, s') := by
  rw [reported_eq, exec_tryCatch, h]

/-- A step that is reported on succeeds if it succeeds by itself, and not otherwise. -/
theorem exec_reported_eq_ok {first : Failure → Command Unit} {x : Command α} {s s' : Session}
    {a : α} (h : exec (reported first x) s = (.ok a, s')) : exec x s = (.ok a, s') := by
  rw [reported_eq] at h
  rcases exec_tryCatch_cases x (report first) s with ⟨b, s₁, hx, htry⟩ | ⟨e, s₁, hx, htry⟩
  · rw [hx, ← htry]
    exact h
  · exact absurd (htry.symm.trans h) (exec_report_ne_ok first e s₁ s' a)

/-! ## Steps and runs -/

theorem ending_bind (x : Run α) (f : α → Run β) :
    ending (x >>= f) =
      match ending x with
      | .ok a => ending (f a)
      | .error e => .error e := by
  rw [ending, ending, Run.result_bind]
  cases x.result <;> rfl

/-- What is told of a failure comes before it, or in its place if the telling fails. -/
theorem ending_telling (x : Run α) (tell : Failure → Run Unit) :
    ending (Performer.telling x tell) =
      match x.result with
      | .ok a => .ok a
      | .error e => ending (tell e >>= fun _ => Run.ofExcept (.error e)) := by
  obtain ⟨l, r⟩ := x
  cases r <;> rfl

/-- Quiet steps beside runs, in sessions of a kind that quiet steps do not leave: they end
    alike. -/
def watch (P : Session → Prop) (hP : ∀ s s' : Session, P s → s.Keeps s' → P s') :
    Simulation Command Run where
  Rel x y := Quiet x ∧ ∀ s, P s → (exec x s).1 = ending y
  rel_pure a := ⟨quiet_pure a, fun _ _ => rfl⟩
  rel_bind := by
    rintro α β x x' f f' ⟨hx, hend⟩ hf
    refine ⟨hx.bind fun a => (hf a).1, fun s hs => ?_⟩
    have hkeeps := hx.keeps s
    have hend := hend s hs
    rcases hexec : exec x s with ⟨r, s'⟩
    rw [hexec] at hkeeps hend
    rw [exec_bind, hexec, ending_bind, ← hend]
    cases r with
    | ok a => exact (hf a).2 s' (hP s s' hs hkeeps)
    | error e => rfl
  rel_perform x := ⟨quiet_perform x, fun s _ => congrArg Prod.fst (exec_perform x s)⟩
  rel_perform_bind := by
    intro α β x f f' hf
    -- if the run fails, there is nothing to go on to
    cases hresult : x.result with
    | ok a =>
      obtain ⟨hquiet, hend⟩ := hf a hresult
      have hexec : ∀ s, exec (perform x >>= f) s = exec (f a) (s.recorded x.log) := by
        intro s
        rw [exec_bind, exec_perform, ending_of_ok hresult]
      refine ⟨⟨fun s => ?_, fun s => ?_⟩, fun s hs => ?_⟩
      · show s.Keeps (exec (perform x >>= f) s).2
        rw [hexec]
        exact (Session.Keeps.recorded s x.log).trans (hquiet.keeps _)
      · show (exec (perform x >>= f) s).1 ≠ .error .help
        rw [hexec]
        exact hquiet.noHelp _
      · show (exec (perform x >>= f) s).1 = ending (x >>= f')
        rw [hexec, ending_bind, ending_of_ok hresult]
        exact hend _ (hP s _ hs (.recorded s x.log))
    | error e =>
      have hexec : ∀ s, exec (perform x >>= f) s =
          (.error (.raised e), s.recorded x.log) := by
        intro s
        rw [exec_bind, exec_perform, ending_of_error hresult]
      refine ⟨⟨fun s => ?_, fun s => ?_⟩, fun s hs => ?_⟩
      · show s.Keeps (exec (perform x >>= f) s).2
        rw [hexec]
        exact .recorded s x.log
      · show (exec (perform x >>= f) s).1 ≠ .error .help
        rw [hexec]
        exact nofun
      · show (exec (perform x >>= f) s).1 = ending (x >>= f')
        rw [hexec, ending_bind, ending_of_error hresult]
  rel_telling := by
    rintro α x x' tell ⟨hx, hend⟩
    refine ⟨hx.tryCatch fun e he => ?_, fun s hs => ?_⟩
    · cases e with
      | raised e => exact (quiet_perform (tell e)).bind fun _ => quiet_raised e
      | usage _ => exact quiet_throw nofun
      | help => exact absurd rfl he
      | failed => exact quiet_failed
    · have hend := hend s hs
      rcases hexec : exec x s with ⟨r, s'⟩
      rw [hexec] at hend
      show (exec (tryCatch x _) s).1 = _
      rw [exec_tryCatch, hexec, ending_telling]
      rw [ending] at hend
      cases hresult : x'.result with
      | ok a => rw [hresult] at hend; cases hend; rfl
      | error e =>
        rw [hresult] at hend
        cases hend
        show (exec (perform (tell e) >>= fun _ => throw (.raised e)) s').1 = _
        rw [exec_bind, exec_perform]
        show _ = ending (tell e >>= fun _ => Run.ofExcept (.error e))
        rw [ending_bind]
        cases ending (tell e) <;> rfl

end Cli

end Tracewright
