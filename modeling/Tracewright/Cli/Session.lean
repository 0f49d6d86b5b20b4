/-
  Tracewright.Cli.Session

  What a command can see and change, and how it goes on or ends.

    * `Session`  — the files, the processes, where records go, and what has
                   been put out.
    * `Command`  — a step of a session; what it has changed stays when the
                   session ends before its time.
    * `perform`  — takes a run into the session: its records are shown, and
                   its failure is raised.
    * `reported` — a failure of the generator is told and ends the session.

  Reference: what the commands do with `GeneratorError` and with the output
  streams, and `echo` of `click`.
-/
import Tracewright.Cli.Arguments
import Tracewright.Host.Process
import Tracewright.Log.Setup
import Tracewright.Output.Export

namespace Tracewright.Cli

/-- What a command can see and change. -/
structure Session where
  host : Host
  files : Files
  /-- Until it is said where records go, they go nowhere. -/
  log : Option Log.Setup := none
  stdout : Sink := {}
  stderr : Text := []
  deriving Repr

/-- A step of a session. -/
abbrev Command (α : Type) := ExceptT Exit (StateM Session) α

/-! ## Showing -/

/-- Shows records on the console and adds them to the log file. -/
def Session.recorded (s : Session) (rs : List Log.Record) : Session :=
  match s.log with
  | some log => { s with stderr := s.stderr ++ log.console rs, files := log.writeFile rs s.files }
  | none => s

def perform {α : Type} (x : Run α) : Command α := do
  modify (·.recorded x.log)
  match x.result with
  | .ok a => pure a
  | .error e => throw (.raised e)

/-- Takes a run over the files as they are now. -/
def performOn {α : Type} (x : Files → Run α) : Command α := do
  let s ← get
  perform (x s.files)

/-- Runs are performed one after the other; what they tell is shown at once. -/
instance : Performer Command where
  perform := perform
  telling x tell := tryCatch x fun
    | .raised e => do
      perform (tell e)
      throw (.raised e)
    | ending => throw ending

def print {α : Type} (x : Action Sink α) : Command α := do
  let s ← get
  let (run, stdout) := x s.stdout
  set { s with stdout := stdout }
  perform run

/-- Puts a line out, without colours. -/
def printLine (t : Text) : Command Unit := print (Sink.write (Console.withoutCodes t ++ ['\n']))

/-- Puts a line on the console for records, without colours. -/
def tell (t : Text) : Command Unit :=
  modify fun s => { s with stderr := s.stderr ++ Console.withoutCodes t ++ ['\n'] }

/-- Writes a program to a file.  A log file whose place it takes gets no more records. -/
def exportProgram (name text : Text) : Command Unit := do
  let s ← get
  let (run, files) := Export.write [] name text s.files
  let log :=
    match run.result with
    | .ok path => s.log.map fun log =>
      if log.file.isSome && log.file == (files.locate path).toOption then { log with file := none }
      else log
    | .error _ => s.log
  set { s with files := files, log := log }
  let _ ← perform run
  pure ()

/-! ## Ending -/

/-- Goes on with a value that has been read, or ends as the reading says. -/
def ofRead {α : Type} (x : Except Exit α) : Command α :=
  match x with
  | .ok a => pure a
  | .error e => throw e

/-- Tells of a failure of the generator, after `first`, and ends the session; other failures
    stay raised. -/
def reported {α : Type} (first : Failure → Command Unit) (x : Command α) : Command α :=
  tryCatch x fun
    | .raised e => do
      if e.isReported then
        first e
        tell (("Error: " : Text) ++ e.message)
        throw .failed
      throw (.raised e)
    | ending => throw ending

end Tracewright.Cli
