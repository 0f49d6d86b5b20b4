/-
  Tracewright.Proofs.Log.Told

  What a run tells: its records without the details.

    * `Run.Quiet` — a run tells nothing, except of its own failure.
    * `Run.told`  — what a run tells, in order.
    * `Run.Tells` — what a run tells if it succeeds; one step after another
                    tells what each of them does.
-/
import Mathlib.Data.List.Forall2
import Tracewright.Proofs.Run

namespace Tracewright.Run

variable {α β : Type} {x : Run α} {a : α} {e : Failure} {f : α → Run β} {r : Log.Record}
  {rs rs' : List Log.Record}

/-! ## Records of steps -/

/-- The records of a step, and then those of the next one if there is any. -/
theorem mem_log_bind : r ∈ (x >>= f).log ↔
    r ∈ x.log ∨ ∃ a, x.result = .ok a ∧ r ∈ (f a).log := by
  cases hx : x.result with
  | error e =>
    rw [bind_of_error hx]
    simp
  | ok a =>
    rw [bind_of_ok hx]
    simp

/-! ## Quiet runs -/

/-- A run writes details only, and errors only if it fails. -/
def Quiet (x : Run α) : Prop :=
  ∀ r ∈ x.log, r.level = Log.Level.debug ∨ (r.level = Log.Level.error ∧ ∃ e, x.result = .error e)

/-- The records of a quiet run that succeeds are details. -/
theorem Quiet.level_of_ok (hx : x.Quiet) (h : x.result = .ok a) (hr : r ∈ x.log) :
    r.level = Log.Level.debug := by
  rcases hx r hr with hdebug | ⟨-, e, he⟩
  · exact hdebug
  · cases h.symm.trans he

theorem quiet_of_log (h : x.log = []) : x.Quiet := by
  intro r hr
  rw [h] at hr
  exact absurd hr List.not_mem_nil

theorem quiet_pure (a : α) : (pure a : Run α).Quiet := quiet_of_log rfl

theorem quiet_ofExcept (r : Except Failure α) : (ofExcept r).Quiet := quiet_of_log rfl

theorem quiet_fail (e : Failure) : (fail e : Run α).Quiet := quiet_of_log rfl

theorem quiet_decimal (n : Int) : (decimal n).Quiet := by
  refine quiet_of_log ?_
  rw [decimal]
  split_ifs <;> rfl

theorem quiet_detail (source message : Text) :
    (record Log.Level.debug source message).Quiet := by
  intro r hr
  rw [List.mem_singleton.1 hr]
  exact .inl rfl

/-- An error that is told, and the failure it is told of. -/
theorem quiet_complaint (source message : Text) (e : Failure) :
    (record Log.Level.error source message >>= fun _ => (fail e : Run α)).Quiet := by
  intro r hr
  rcases mem_log_bind.1 hr with hr | ⟨-, -, hr⟩
  · rw [List.mem_singleton.1 hr]
    exact .inr ⟨rfl, _, rfl⟩
  · exact absurd hr List.not_mem_nil

/-- Quiet steps are quiet one after another: a step that has told of a failure is the last. -/
theorem Quiet.bind (hx : x.Quiet) (hf : ∀ a, x.result = .ok a → (f a).Quiet) :
    (x >>= f).Quiet := by
  intro r hr
  rcases mem_log_bind.1 hr with hr | ⟨a, ha, hr⟩
  · rcases hx r hr with hdebug | ⟨herror, e, he⟩
    · exact .inl hdebug
    · exact .inr ⟨herror, e, result_bind_of_error he f⟩
  · rcases hf a ha r hr with hdebug | ⟨herror, e, he⟩
    · exact .inl hdebug
    · exact .inr ⟨herror, e, by rw [result_bind_of_ok ha, he]⟩

/-! ## What is told -/

/-- The records of a run without the details. -/
def told (x : Run α) : List Log.Record := x.log.filter fun r => Log.Level.info ≤ r.level

/-- A run that succeeds tells these records and no others. -/
def Tells (rs : List Log.Record) (x : Run α) : Prop := ∀ a, x.result = .ok a → x.told = rs

theorem Quiet.tells (h : x.Quiet) : Tells [] x := by
  intro a ha
  rw [told, List.filter_eq_nil_iff]
  intro r hr
  rw [h.level_of_ok ha hr]
  decide

theorem tells_record {level : Log.Level} (h : Log.Level.info ≤ level) (source message : Text) :
    Tells [⟨level, source, message⟩] (record level source message) := by
  intro _ _
  rw [told]
  exact List.filter_eq_self.2 fun r hr => by rw [List.mem_singleton.1 hr]; exact decide_eq_true h

theorem told_bind_of_ok (h : x.result = .ok a) : (x >>= f).told = x.told ++ (f a).told := by
  rw [told, bind_of_ok h, List.filter_append]
  rfl

theorem Tells.bind (hx : Tells rs x) (hf : ∀ a, x.result = .ok a → Tells rs' (f a)) :
    Tells (rs ++ rs') (x >>= f) := by
  intro b hb
  obtain ⟨a, ha, hb⟩ := result_bind_eq_ok hb
  rw [told_bind_of_ok ha, hx a ha, hf a ha b hb]

/-- A step before which, or after which, nothing is told. -/
theorem Tells.bind_quiet (hx : Tells rs x) (hf : ∀ a, x.result = .ok a → (f a).Quiet) :
    Tells rs (x >>= f) := by
  have hbind := hx.bind fun a ha => (hf a ha).tells
  rwa [List.append_nil] at hbind

theorem Quiet.bind_tells (hx : x.Quiet) (hf : ∀ a, x.result = .ok a → Tells rs (f a)) :
    Tells rs (x >>= f) :=
  hx.tells.bind hf

/-- What is said of a failure is not said by a run that succeeds. -/
theorem Tells.telling (hx : Tells rs x) (tell : Failure → Run Unit) :
    Tells rs (Performer.telling x tell) := by
  intro a ha
  obtain ⟨l, r⟩ := x
  cases r with
  | ok a' => exact hx a' rfl
  | error e =>
    -- the failure is returned after it has been told
    obtain ⟨_, _, h⟩ := result_bind_eq_ok (x := tell e) (f := fun _ => ofExcept (.error e)) ha
    cases h

/-- Steps in turn tell what each of them does, in their order. -/
theorem tells_inTurn {xs : List (Run α)} {rss : List (List Log.Record)}
    (h : List.Forall₂ Tells rss xs) : Tells rss.flatten (inTurn xs) := by
  induction h with
  | nil => exact (quiet_pure _).tells
  | cons hx _ ih => exact hx.bind fun _ _ => ih.bind_quiet fun _ _ => quiet_pure _

end Tracewright.Run
