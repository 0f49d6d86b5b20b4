/-
  Tracewright.Proofs.Run

  How runs end, apart from what they write in the log, and how actions go on.

    * `result_bind`   — one step after another ends as their results do.
    * `result_inTurn_of_ok`, `result_inTurn_eq_ok`
                      — steps in turn succeed if all of them do, and yield all
                        their results.
    * `result_inTurn_of_error` — steps in turn that fail in one way only.
    * `Action.bind_of_ok`, `Action.bind_of_error`
                      — one action after another, by how the first one ends.

  Actions obey the laws of monads, as runs do.
-/
import Mathlib.Tactic.SplitIfs
import Tracewright.Run

namespace Tracewright

/-- A result is known by what it yields, which can be computed. -/
theorem eq_ok_of_toOption {ε α : Type} {x : Except ε α} {a : α} (h : x.toOption = some a) :
    x = .ok a := by
  cases x with
  | error e => cases h
  | ok a' => rw [Option.some.inj h]

/-- An integer can be shown if it is not too long. -/
theorem Scalar.isNone_obstacle?_int (n : Int) :
    (Scalar.int n).obstacle?.isNone = Numeral.isWritable n := by
  rw [obstacle?]
  split_ifs with hn
  · rw [hn, Option.isNone_none]
  · rw [Bool.eq_false_iff.2 hn, Option.isNone_some]

theorem Failure.told_of_isWritable {e : Failure} (h : e.isWritable = true) : e.told = e := by
  rw [told, Option.isNone_iff_eq_none.1 h]

/-- A failure of which only a number may not be shown is told unless that one is too long. -/
theorem Failure.told_of_obstacle?_eq {e : Failure} {n : Int}
    (h : e.obstacle? = (Scalar.int n).obstacle?) :
    e.told = if Numeral.isWritable n = true then e else .value .overlongNumeral := by
  rw [told, h, Scalar.obstacle?]
  split_ifs <;> rfl

namespace Run

variable {α β : Type} {x : Run α} {a : α} {e : Failure}

/-! ## Single steps -/

@[simp] theorem result_pure (a : α) : (pure a : Run α).result = .ok a := rfl

/-- A failure that can be told in full ends a run as it is. -/
theorem result_fail (he : e.isWritable = true) : (fail e : Run α).result = .error e := by
  rw [fail, Failure.told_of_isWritable he]

theorem result_decimal {n : Int} (hn : Numeral.isWritable n = true) :
    (decimal n).result = .ok (Numeral.decimal n) := by
  rw [decimal, if_pos hn]
  rfl

theorem result_decimal_of_overlong {n : Int} (hn : Numeral.isWritable n = false) :
    (decimal n).result = .error (.value .overlongNumeral) := by
  rw [decimal, hn]
  rfl

theorem eq_of_result_decimal {n : Int} {t : Text} (h : (decimal n).result = .ok t) :
    t = Numeral.decimal n := by
  rw [decimal] at h
  split_ifs at h
  · exact (Except.ok.inj h).symm
  · cases h

/-! ## One step after another -/

theorem bind_of_ok (h : x.result = .ok a) (f : α → Run β) :
    x >>= f = ⟨x.log ++ (f a).log, (f a).result⟩ := by
  obtain ⟨l, r⟩ := x
  cases h
  rfl

theorem bind_of_error (h : x.result = .error e) (f : α → Run β) :
    x >>= f = ⟨x.log, .error e⟩ := by
  obtain ⟨l, r⟩ := x
  cases h
  rfl

theorem result_bind (x : Run α) (f : α → Run β) :
    (x >>= f).result = x.result >>= fun a => (f a).result := by
  obtain ⟨l, r⟩ := x
  cases r <;> rfl

theorem result_bind_of_ok (h : x.result = .ok a) (f : α → Run β) :
    (x >>= f).result = (f a).result := by
  rw [result_bind, h]
  rfl

theorem result_bind_of_error (h : x.result = .error e) (f : α → Run β) :
    (x >>= f).result = .error e := by
  rw [result_bind, h]
  rfl

/-- Steps that succeed one after the other have all succeeded. -/
theorem result_bind_eq_ok {f : α → Run β} {b : β} (h : (x >>= f).result = .ok b) :
    ∃ a, x.result = .ok a ∧ (f a).result = .ok b := by
  rw [result_bind] at h
  cases hx : x.result with
  | error e => rw [hx] at h; cases h
  | ok a => rw [hx] at h; exact ⟨a, rfl, h⟩

/-- Only what a step yields matters to the next one. -/
theorem bind_congr_of_ok {f g : α → Run β} (h : ∀ a, x.result = .ok a → f a = g a) :
    x >>= f = x >>= g := by
  obtain ⟨l, r⟩ := x
  cases r with
  | error e => rfl
  | ok a => rw [bind_ok, bind_ok, h a rfl]

/-- What is told of a failure changes nothing about it, as long as it can be told. -/
theorem result_telling (x : Run α) (tell : Failure → Run Unit)
    (htell : ∀ e, (tell e).result = .ok ()) : (Performer.telling x tell).result = x.result := by
  obtain ⟨l, r⟩ := x
  cases r with
  -- the telling stands between the failure and its return, and never fails itself
  | ok a => rfl
  | error e => exact result_bind_of_ok (htell e) _

/-! ## Steps in turn -/

theorem result_inTurn (xs : List (Run α)) : (inTurn xs).result = xs.mapM Run.result := by
  induction xs with
  | nil => rfl
  | cons x xs ih =>
    rw [inTurn, result_bind, List.mapM_cons]
    cases hx : x.result with
    | error e => rfl
    -- the first result is kept in front of those of the other steps
    | ok a =>
      show (inTurn xs >>= fun as_ => pure (a :: as_)).result = _
      rw [result_bind, ih]
      rfl

theorem result_inTurn_of_ok {xs : List (Run α)} {as_ : List α}
    (h : xs.map Run.result = as_.map .ok) : (inTurn xs).result = .ok as_ := by
  rw [result_inTurn]
  induction xs generalizing as_ with
  | nil =>
    rw [List.map_nil, eq_comm, List.map_eq_nil_iff] at h
    rw [h]
    rfl
  | cons x xs ih =>
    cases as_ with
    | nil => exact absurd h (List.cons_ne_nil _ _)
    | cons a as_ =>
      rw [List.map_cons, List.map_cons, List.cons.injEq] at h
      rw [List.mapM_cons, h.1, ih h.2]
      rfl

theorem result_inTurn_eq_ok {xs : List (Run α)} {as_ : List α}
    (h : (inTurn xs).result = .ok as_) : xs.map Run.result = as_.map .ok := by
  induction xs generalizing as_ with
  | nil => cases h; rfl
  | cons x xs ih =>
    rw [inTurn] at h
    obtain ⟨a, ha, h⟩ := result_bind_eq_ok h
    obtain ⟨as', has, h⟩ := result_bind_eq_ok h
    cases h
    rw [List.map_cons, List.map_cons, ha, ih has]

/-- Steps in turn fail if one of them does, and with its failure if there is no other one. -/
theorem result_inTurn_of_error {xs : List (Run α)}
    (h : ∀ x ∈ xs, (∃ a, x.result = .ok a) ∨ x.result = .error e)
    (he : ∃ x ∈ xs, x.result = .error e) : (inTurn xs).result = .error e := by
  induction xs with
  | nil =>
    obtain ⟨x, hx, -⟩ := he
    exact absurd hx List.not_mem_nil
  | cons x xs ih =>
    rcases h x List.mem_cons_self with ⟨a, ha⟩ | hx
    · -- this step succeeds, so the one that fails is a later one
      have hrest : ∃ y ∈ xs, y.result = .error e := by
        obtain ⟨y, hy, hfails⟩ := he
        rcases List.mem_cons.1 hy with rfl | hy
        · rw [ha] at hfails
          cases hfails
        · exact ⟨y, hy, hfails⟩
      have ih := ih (fun y hy => h y (List.mem_cons_of_mem x hy)) hrest
      rw [inTurn, result_bind_of_ok ha, result_bind_of_error ih]
    · rw [inTurn, result_bind_of_error hx]

/-! ## Kinds of failures -/

/-- Every failure of a run is of a kind. -/
def FailsWith (P : Failure → Prop) (x : Run α) : Prop := ∀ e, x.result = .error e → P e

section FailsWith

variable {P Q : Failure → Prop}

theorem failsWith_pure (a : α) : FailsWith P (pure a) := by
  intro e h
  cases h

theorem FailsWith.mono (h : FailsWith P x) (hPQ : ∀ e, P e → Q e) : FailsWith Q x :=
  fun e he => hPQ e (h e he)

theorem failsWith_of_result {y : Run α} (h : x.result = y.result) :
    FailsWith P x ↔ FailsWith P y := by
  rw [FailsWith, FailsWith, h]

/-- A failure that cannot be told in full gives way to that. -/
theorem failsWith_fail (he : P e) (hobstacle : ∀ o, P (.ofObstacle o)) :
    FailsWith P (fail e : Run α) := by
  intro e' h
  rw [fail] at h
  cases h
  rw [Failure.told]
  cases e.obstacle? with
  | none => exact he
  | some o => exact hobstacle o

theorem failsWith_decimal (hlong : P (.value .overlongNumeral)) (n : Int) :
    FailsWith P (decimal n) := by
  rw [decimal]
  split_ifs
  · exact failsWith_pure _
  · intro e h
    cases h
    exact hlong

/-- Steps fail as the first one does, or after it as the next one. -/
theorem failsWith_bind {f : α → Run β} :
    FailsWith P (x >>= f) ↔ FailsWith P x ∧ ∀ a, x.result = .ok a → FailsWith P (f a) := by
  constructor
  · intro h
    refine ⟨fun e he => h e (result_bind_of_error he f), fun a ha e he => h e ?_⟩
    rw [result_bind_of_ok ha, he]
  · rintro ⟨hx, hf⟩ e h
    cases hr : x.result with
    | ok a => rw [result_bind_of_ok hr] at h; exact hf a hr e h
    | error e' => rw [result_bind_of_error hr] at h; cases h; exact hx e hr

theorem FailsWith.bind {f : α → Run β} (hx : FailsWith P x) (hf : ∀ a, FailsWith P (f a)) :
    FailsWith P (x >>= f) :=
  failsWith_bind.2 ⟨hx, fun a _ => hf a⟩

theorem failsWith_inTurn {xs : List (Run α)} (h : ∀ x ∈ xs, FailsWith P x) :
    FailsWith P (inTurn xs) := by
  induction xs with
  | nil => exact failsWith_pure _
  | cons x xs ih =>
    exact (h x List.mem_cons_self).bind fun _ =>
      (ih fun x hx => h x (List.mem_cons_of_mem _ hx)).bind fun _ => failsWith_pure _

end FailsWith

end Run

/-! ## Actions -/

namespace Action

variable {σ α β γ : Type}

@[simp] theorem pure_apply (a : α) (s : σ) : (pure a : Action σ α) s = (pure a, s) := rfl

@[simp] theorem lift_apply (x : Run α) (s : σ) : (liftM x : Action σ α) s = (x, s) := rfl

theorem bind_of_ok {x : Action σ α} {s : σ} {a : α} (h : (x s).1.result = .ok a)
    (f : α → Action σ β) :
    (x >>= f) s = (⟨(x s).1.log ++ (f a (x s).2).1.log, (f a (x s).2).1.result⟩,
      (f a (x s).2).2) := by
  show Action.bind x f s = _
  rw [Action.bind]
  rcases hx : x s with ⟨⟨l, r⟩, s'⟩
  rw [hx] at h
  cases h
  rfl

/-- After an action that succeeds, a run ends as the next one does, and leaves its state. -/
theorem run_bind_of_ok {x : Action σ α} {s t : σ} {a : α} (h : (x s).1.result = .ok a)
    (ht : (x s).2 = t) (f : α → Action σ β) :
    ((x >>= f) s).1.result = (f a t).1.result ∧ ((x >>= f) s).2 = (f a t).2 := by
  rw [bind_of_ok h, ht]
  exact ⟨rfl, rfl⟩

theorem run_lift_bind_of_ok {x : Run α} {a : α} (h : x.result = .ok a) (f : α → Action σ β)
    (s : σ) :
    ((liftM x >>= f : Action σ β) s).1.result = (f a s).1.result ∧
      ((liftM x >>= f : Action σ β) s).2 = (f a s).2 :=
  run_bind_of_ok (x := liftM x) h rfl f

theorem run_lift_bind (x : Run α) (f : α → Action σ β) (s : σ) :
    ((liftM x >>= f : Action σ β) s).1 = x >>= fun a => (f a s).1 := by
  obtain ⟨l, r⟩ := x
  cases r <;> rfl

theorem bind_of_error {x : Action σ α} {s : σ} {e : Failure} (h : (x s).1.result = .error e)
    (f : α → Action σ β) : (x >>= f) s = (⟨(x s).1.log, .error e⟩, (x s).2) := by
  show Action.bind x f s = _
  rw [Action.bind]
  rcases hx : x s with ⟨⟨l, r⟩, s'⟩
  rw [hx] at h
  cases h
  rfl

/-- After an action that has only changed the state, all is as the next one has it. -/
theorem bind_of_pure {x : Action σ α} {s t : σ} {a : α} (h : x s = (pure a, t))
    (f : α → Action σ β) : (x >>= f) s = f a t := by
  rw [bind_of_ok (by rw [h]; rfl), h]
  rfl

/-- An action that fails without a record ends the run. -/
theorem bind_of_fail {x : Action σ α} {s t : σ} {e : Failure} (h : x s = (Run.fail e, t))
    (f : α → Action σ β) : (x >>= f) s = (Run.fail e, t) := by
  rw [bind_of_error (by rw [h]; rfl), h]
  rfl

/-- The run that yields a state fails as the action does that leaves it. -/
theorem failsWith_leaves_iff {P : Failure → Prop} (x : Action σ Unit) (s : σ) :
    (x.leaves s).FailsWith P ↔ (x s).1.FailsWith P := by
  rw [leaves, Run.FailsWith, Run.FailsWith]
  cases (x s).1.result with
  | ok _ => exact ⟨fun _ _ => nofun, fun _ _ => nofun⟩
  | error e =>
    simp only [Except.map, Except.error.injEq]

theorem bind_assoc (x : Action σ α) (f : α → Action σ β) (g : β → Action σ γ) :
    x >>= f >>= g = x >>= fun a => f a >>= g := by
  funext s
  show Action.bind (Action.bind x f) g s = Action.bind x (fun a => Action.bind (f a) g) s
  rw [Action.bind, Action.bind, Action.bind]
  rcases x s with ⟨⟨l, r⟩, s'⟩
  cases r with
  | error e => rfl
  | ok a =>
    -- only here the sides differ: in which of the three logs are joined first
    simp only [Action.bind]
    rcases f a s' with ⟨⟨l', r'⟩, s''⟩
    cases r' with
    | error e => rfl
    | ok b => simp only [List.append_assoc]

theorem pure_bind (a : α) (f : α → Action σ β) : pure a >>= f = f a := by
  funext s
  rw [bind_of_ok (x := pure a) rfl]
  rfl

theorem bind_pure (x : Action σ α) : x >>= pure = x := by
  funext s
  rcases hx : x s with ⟨⟨l, r⟩, s'⟩
  cases r with
  | error e => rw [bind_of_error (by rw [hx]), hx]
  | ok a => rw [bind_of_ok (by rw [hx]), hx]; simp

instance : LawfulMonad (Action σ) := LawfulMonad.mk' (Action σ) bind_pure pure_bind bind_assoc

/-- Actions in turn that only change the state. -/
theorem inTurn_cons_of_pure {x : Action σ α} {xs : List (Action σ α)} {s s' s'' : σ} {a : α}
    {as_ : List α} (h : x s = (pure a, s')) (hrest : inTurn xs s' = (pure as_, s'')) :
    inTurn (x :: xs) s = (pure (a :: as_), s'') := by
  rw [inTurn, bind_of_pure h, bind_of_pure hrest, pure_apply]

end Action

end Tracewright
