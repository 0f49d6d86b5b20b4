/-
  Tracewright.Cli.Arguments

  What the words of a command line say: options for every command, a command,
  and the options of that command.

    * `Exit`               — how a command ends before its time.
    * `RootArguments`      — what is said before the name of the command.
    * `GenerateArguments`  — what is said to `generate`.
    * `SyscallsArguments`  — what is said to `syscalls`.
    * `TemplatesArguments` — what is said to `templates`.
    * `Parser`             — how words are read.

  Reference: the `click` decorators of `cli`, `generate`, `syscalls` and
  `templates`.
-/
import Tracewright.Failure

namespace Tracewright.Cli

/-! ## Faults -/

/-- What is wrong with the words of a command line. -/
inductive UsageFault where
  | unknownOption (name : Text)
  /-- A value is attached to an option that takes none. -/
  | unwantedValue (name : Text)
  /-- The words end where a value should be. -/
  | missingValue
  | missingCommand
  | unknownCommand (name : Text)
  | extraWords (words : List Text)
  | notAChoice (value : Text)
  | notAnInteger (value : Text)
  /-- No file, or no directory, of this name is there. -/
  | notThere (path : Text)
  deriving DecidableEq, Repr

def UsageFault.message : UsageFault → Text
  | .unknownOption name => ("No such option: " : Text) ++ name
  | .unwantedValue name => ("This option does not take a value: " : Text) ++ name
  | .missingValue => "An option requires an argument"
  | .missingCommand => "Missing command"
  | .unknownCommand name => ("No such command: " : Text) ++ name
  | .extraWords words =>
    ("Unexpected extra arguments: " : Text) ++ List.intercalate [' '] words
  | .notAChoice value => ("Not one of the choices: " : Text) ++ value
  | .notAnInteger value => ("Not a valid integer: " : Text) ++ value
  | .notThere path => ("Does not exist, or is of the wrong kind: " : Text) ++ path

/-! ## Ways to end -/

/-- How a command ends before its time. -/
inductive Exit where
  /-- The words of the command line make no sense. -/
  | usage (fault : UsageFault)
  /-- Somebody asked how to use the command. -/
  | help
  | failed
  /-- A failure nobody has taken care of. -/
  | raised (e : Failure)
  deriving Repr

def Exit.code : Exit → Nat
  | .usage _ => 2
  | .help => 0
  | .failed | .raised _ => 1

def helpText : Text :=
  ("Usage: tracewright [--log-level LEVEL] [--log-file FILE] COMMAND ...\n\n" : Text)
    ++ ("  generate   [--config FILE] [--expr EXPR] [--pid PID]\n" : Text)
    ++ ("             [--full-feature | --no-full-feature] [--string-read POLICY]\n" : Text)
    ++ ("             [--string-packets N] [--catalog FILE] [--template-dir DIR]\n" : Text)
    ++ ("             [-o FILE | --output FILE] [--debug]\n" : Text)
    ++ ("  syscalls   [--expr EXPR] [--catalog FILE]\n" : Text)
    ++ ("  templates  [--template-dir DIR]\n" : Text)

/-- What is left to say at the end. -/
def Exit.message : Exit → Text
  | .usage fault => ("Error: " : Text) ++ fault.message ++ ['\n']
  | .help => helpText
  | .failed => []
  | .raised e => ("Failure: " : Text) ++ e.message ++ ['\n']

/-! ## Arguments -/

/-- What is said before the name of the command. -/
structure RootArguments where
  level : Text := "INFO"
  logFile : Option Text := none
  deriving DecidableEq, Repr

/-- What is said to `generate`; what is not said is left to the settings. -/
structure GenerateArguments where
  config : Option Text := none
  expression : Option Text := none
  pid : Option Int := none
  fullFeature : Option Bool := none
  policy : Option Text := none
  packets : Option Int := none
  catalog : Option Text := none
  directory : Option Text := none
  output : Option Text := none
  debug : Bool := false
  deriving DecidableEq, Repr

/-- What is said to `syscalls`. -/
structure SyscallsArguments where
  expression : Text := "all"
  catalog : Option Text := none
  deriving DecidableEq, Repr

/-- What is said to `templates`. -/
structure TemplatesArguments where
  directory : Option Text := none
  deriving DecidableEq, Repr

/-- The commands. -/
inductive Subcommand where
  | generate
  | syscalls
  | templates
  deriving DecidableEq, Repr

/-! ## Reading -/

/-- How the words of a command line are read.  Options can name files that have to be there, so
    what is said to a command depends on the files. -/
structure Parser where
  /-- What is said before the name of the command, and the words from there on. -/
  root : List Text → Except Exit (RootArguments × List Text)
  /-- The command that words name, and the words after its name. -/
  command : List Text → Except Exit (Subcommand × List Text)
  generate : Files → List Text → Except Exit GenerateArguments
  syscalls : Files → List Text → Except Exit SyscallsArguments
  templates : Files → List Text → Except Exit TemplatesArguments

end Tracewright.Cli
