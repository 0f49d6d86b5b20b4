/-
  Tracewright.Cli.Program

  The whole program as a function: from the words of a command line, the
  files and the processes to what is put out, the files afterwards and the
  exit code.

    * `Subcommand.run` — the commands.
    * `Cli.run`        — the program, on a platform and with a parser.
    * `Outcome`        — what comes of it.

  Reference: the group `cli` and its commands.
-/
import Tracewright.Cli.Generate
import Tracewright.Cli.Listing

namespace Tracewright.Cli

/-! ## Commands -/

/-- Runs a command with the words after its name. -/
def Subcommand.run (platform : Platform) (parser : Parser) (c : Subcommand) (words : List Text) :
    Command Unit := do
  let here ← get
  match c with
  | .generate =>
    let a ← ofRead (parser.generate here.files words)
    generateProgram platform a
  | .syscalls =>
    let a ← ofRead (parser.syscalls here.files words)
    listSyscalls platform a
  | .templates =>
    let a ← ofRead (parser.templates here.files words)
    checkTemplates a

/-! ## The program -/

def openLog (a : RootArguments) : Command Unit := do
  let s ← get
  match Log.Setup.start a.level a.logFile true s.files with
  | .ok started =>
    set { s with
      log := some started.setup, stderr := s.stderr ++ started.stderr, files := started.files }
  | .error e => throw (.raised e)

def commandLine (platform : Platform) (parser : Parser) (words : List Text) : Command Unit := do
  let (root, words) ← ofRead (parser.root words)
  let (c, words) ← ofRead (parser.command words)
  openLog root
  c.run platform parser words

/-- What comes of a call. -/
structure Outcome where
  /-- How the session ended before its time, if it did. -/
  exit : Option Exit
  stdout : Text
  stderr : Text
  files : Files
  deriving Repr

def Outcome.code (o : Outcome) : Nat :=
  match o.exit with
  | some e => e.code
  | none => 0

def run (platform : Platform) (parser : Parser) (host : Host) (files : Files)
    (words : List Text) : Outcome :=
  let (result, s) := (commandLine platform parser words).run { host := host, files := files }
  { exit := match result with | .ok () => none | .error e => some e
    stdout := s.stdout.text
    stderr := s.stderr
    files := s.files }

end Tracewright.Cli
