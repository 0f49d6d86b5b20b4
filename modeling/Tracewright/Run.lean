/-
  Tracewright.Run

  What a step of the program does, as a value.

    * `Run α`       — the records a step writes, in order, and how it ends:
                      with a result or with a failure.  The records of a step
                      that fails stay.
    * `Action σ α`  — a run over a state (an output stream, a tree of files);
                      the state it leaves stays too when it fails.
    * `Performer m` — steps of a larger kind that runs can be part of.

  Reference: what a call logs, and what it returns or raises.
-/
import Tracewright.Failure
import Tracewright.Log.Record

namespace Tracewright

/-! ## Runs -/

/-- The records of a step and how it ended. -/
structure Run (α : Type) where
  log : List Log.Record
  result : Except Failure α

namespace Run

protected def pure {α : Type} (a : α) : Run α := ⟨[], .ok a⟩

/-- One step after another; a failure ends the run. -/
protected def bind {α β : Type} (x : Run α) (f : α → Run β) : Run β :=
  match x.result with
  | .ok a => ⟨x.log ++ (f a).log, (f a).result⟩
  | .error e => ⟨x.log, .error e⟩

instance : Monad Run where
  pure := Run.pure
  bind := Run.bind

def record (level : Log.Level) (source message : Text) : Run Unit :=
  ⟨[⟨level, source, message⟩], .ok ()⟩

/-- Ends the run; a failure whose message cannot be written gives way to that fault. -/
def fail {α : Type} (e : Failure) : Run α :=
  ⟨[], .error e.told⟩

/-- Ends as a computation without records does. -/
def ofExcept {α : Type} (x : Except Failure α) : Run α := ⟨[], x⟩

/-- Ends as a check of settings or of a listing does. -/
def ofCheck {α : Type} : Except ConfigFault α → Run α
  | .ok a => Run.pure a
  | .error fault => fail (.config fault)

/-- Goes on after a failure as `handle` says; the records stay. -/
def recover {α : Type} (x : Run α) (handle : Failure → Run α) : Run α :=
  match x.result with
  | .ok a => ⟨x.log, .ok a⟩
  | .error e => ⟨x.log ++ (handle e).log, (handle e).result⟩

/-- The decimal numeral of an integer; too many digits are a failure. -/
def decimal (n : Int) : Run Text :=
  if Numeral.isWritable n then Run.pure (Numeral.decimal n) else fail (.value .overlongNumeral)

@[simp] theorem pure_eq {α : Type} (a : α) : (pure a : Run α) = ⟨[], .ok a⟩ := rfl

@[simp] theorem bind_ok {α β : Type} (l : List Log.Record) (a : α) (f : α → Run β) :
    ((⟨l, .ok a⟩ : Run α) >>= f) = ⟨l ++ (f a).log, (f a).result⟩ := rfl

theorem map_id {α : Type} (x : Run α) : id <$> x = x := by
  obtain ⟨l, r⟩ := x
  cases r <;> simp [Functor.map, Run.bind, Run.pure]

theorem bind_assoc {α β γ : Type} (x : Run α) (f : α → Run β) (g : β → Run γ) :
    x >>= f >>= g = x >>= fun a => f a >>= g := by
  obtain ⟨l, r⟩ := x
  cases r with
  | error e => rfl
  | ok a =>
    simp only [bind_ok]
    rcases f a with ⟨l', r'⟩
    cases r' <;> simp [Bind.bind, Run.bind]

instance : LawfulMonad Run :=
  LawfulMonad.mk' Run map_id (fun a f => by simp) bind_assoc

end Run

/-! ## Actions -/

/-- A run over a state. -/
def Action (σ α : Type) := σ → Run α × σ

namespace Action

protected def pure {σ α : Type} (a : α) : Action σ α := fun s => (Run.pure a, s)

/-- One action after another; a failure ends the run and leaves the state as it is. -/
protected def bind {σ α β : Type} (x : Action σ α) (f : α → Action σ β) : Action σ β := fun s =>
  match x s with
  | (⟨l, .ok a⟩, s') => let y := f a s'; (⟨l ++ y.1.log, y.1.result⟩, y.2)
  | (⟨l, .error e⟩, s') => (⟨l, .error e⟩, s')

instance {σ : Type} : Monad (Action σ) where
  pure := Action.pure
  bind := Action.bind

/-- A run that does not touch the state. -/
def ofRun {σ α : Type} (x : Run α) : Action σ α := fun s => (x, s)

instance {σ : Type} : MonadLift Run (Action σ) := ⟨ofRun⟩

/-- Looks at the state. -/
def look {σ α : Type} (f : σ → α) : Action σ α := fun s => (Run.pure (f s), s)

/-- The run that yields the state which an action leaves. -/
def leaves {σ : Type} (x : Action σ Unit) (s : σ) : Run σ :=
  ⟨(x s).1.log, (x s).1.result.map fun _ => (x s).2⟩

end Action

/-! ## Performers -/

/-- Steps that runs can be part of: each run takes its turn, and its records are written
    before the next one starts. -/
class Performer (m : Type → Type) where
  /-- Takes a run for a step. -/
  perform {α : Type} : Run α → m α
  /-- Tells of a failure before the steps end with it. -/
  telling {α : Type} : m α → (Failure → Run Unit) → m α

/-- Runs are made of runs. -/
instance : Performer Run where
  perform x := x
  telling x tell := x.recover fun e => do
    tell e
    Run.ofExcept (.error e)

/-- Takes steps in turn and keeps what they yield. -/
def inTurn {m : Type → Type} [Monad m] {α : Type} : List (m α) → m (List α)
  | [] => pure []
  | x :: rest => do
    let a ← x
    let as_ ← inTurn rest
    pure (a :: as_)

end Tracewright
