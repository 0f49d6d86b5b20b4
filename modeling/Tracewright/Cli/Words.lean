/-
  Tracewright.Cli.Words

  A parser of command lines: the options of each command, and how their values
  are taken.

    * `RootArguments.read`, `GenerateArguments.read`, `SyscallsArguments.read`,
      `TemplatesArguments.read`
                     — the arguments that words say.
    * `subcommand`   — the command that words name.
    * `Parser.usual` — all of this.

  Reference: the options of `cli`, `generate`, `syscalls` and `templates`, and
  the parameter types of `click` (`Choice`, `INT`, `Path`).
-/
import Tracewright.Cli.Options

namespace Tracewright.Cli

/-! ## Values of options -/

/-- One of some words, in exactly this spelling. -/
def choice (choices : List Text) (value : Text) : Except Exit Text :=
  if choices.contains value then .ok value else .error (.usage (.notAChoice value))

def integer (value : Text) : Except Exit Int :=
  match Numeral.read? value with
  | some n => .ok n
  | none => .error (.usage (.notAnInteger value))

/-- The name of a file that may or may not be there. -/
def fileName (value : Text) : Except Exit Text :=
  if value.contains '\x00' then .error (.raised (.value .unnameable)) else .ok value

/-- The name ends like that of a directory. -/
def endsAsDirectory (value : Text) : Bool :=
  match (Text.split ['/'] value).getLast? with
  | some last => !Path.isPart last
  | none => false

/-- What stands at a name; an empty name is none, and neither is one that is longer than a
    path may be, even if it is a short path in many words. -/
def there? (files : Files) (value : Text) : Option Node :=
  if value.isEmpty || Files.pathLimit ≤ (Text.Utf8.encode value).length then none
  else match files.node (Path.ofText value) with
    | .ok (.file bytes) => if endsAsDirectory value then none else some (.file bytes)
    | .ok .directory => some .directory
    | .error _ => none

/-- The name of a file that is there. -/
def existingFile (files : Files) (value : Text) : Except Exit Text := do
  let name ← fileName value
  match there? files name with
  | some (.file _) => .ok name
  | _ => .error (.usage (.notThere name))

/-- The name of a directory that is there. -/
def existingDirectory (files : Files) (value : Text) : Except Exit Text := do
  let name ← fileName value
  match there? files name with
  | some .directory => .ok name
  | _ => .error (.usage (.notThere name))

/-- Takes up the options of a command; a question for help goes before their values. -/
def settleOptions {κ α : Type} [DecidableEq κ] (g : Grammar κ) (help : κ)
    (take : α → κ → Text → Except Exit α) (start : α) (words : List Text) :
    Except Exit (α × List Text) :=
  match g.scan words with
  | .error fault => .error (.usage fault)
  | .ok (given, left) =>
    if (lastValue? given help).isSome then .error .help
    else (settle take start given).map fun a => (a, left)

/-- The options of a command that takes no other words. -/
def settleAll {κ α : Type} [DecidableEq κ] (g : Grammar κ) (help : κ)
    (take : α → κ → Text → Except Exit α) (start : α) (words : List Text) : Except Exit α := do
  let (a, left) ← settleOptions g help take start words
  if left.isEmpty then .ok a else .error (.usage (.extraWords left))

/-! ## Before the name of the command -/

/-- The options for every command. -/
inductive RootOption where
  | level
  | logFile
  | help
  deriving DecidableEq, Repr

def rootGrammar : Grammar RootOption where
  long := [("--log-level", .level), ("--log-file", .logFile), ("--help", .help)]
  takesValue k := k != .help
  interspersed := false

/-- The levels of records that can be asked for. -/
def levels : List Text := ["DEBUG", "INFO", "WARNING", "ERROR"]

namespace RootArguments

def take (a : RootArguments) (k : RootOption) (value : Text) : Except Exit RootArguments :=
  match k with
  | .level => (choice levels value).map fun level => { a with level := level }
  | .logFile => (fileName value).map fun name => { a with logFile := some name }
  | .help => .ok a

/-- What is said before the name of the command, and the words from there on. -/
def read (words : List Text) : Except Exit (RootArguments × List Text) :=
  settleOptions rootGrammar .help take {} words

end RootArguments

/-! ## Commands -/

namespace Subcommand

def named : List (Text × Subcommand) :=
  [("generate", .generate), ("syscalls", .syscalls), ("templates", .templates)]

end Subcommand

/-- The command that words name, and the words after its name.  Words that name none are
    read as options once more: a question for help, or a value that cannot be taken, goes
    before the unknown name. -/
def subcommand : List Text → Except Exit (Subcommand × List Text)
  | [] => .error (.usage .missingCommand)
  | name :: rest =>
    match Subcommand.named.lookup name with
    | some c => .ok (c, rest)
    | none => do
      let _ ← RootArguments.read (name :: rest)
      .error (.usage (.unknownCommand name))

/-! ## Generating a program -/

/-- The options of `generate`. -/
inductive GenerateOption where
  | config
  | expression
  | pid
  | fullFeature
  | policy
  | packets
  | catalog
  | directory
  | output
  | debug
  | help
  deriving DecidableEq, Repr

def generateGrammar : Grammar GenerateOption where
  long := [
    ("--config", .config), ("--expr", .expression), ("--pid", .pid),
    ("--full-feature", .fullFeature), ("--no-full-feature", .fullFeature),
    ("--string-read", .policy), ("--string-packets", .packets), ("--catalog", .catalog),
    ("--template-dir", .directory), ("--output", .output), ("--debug", .debug),
    ("--help", .help)]
  short := [('o', .output)]
  takesValue k := k != .fullFeature && k != .debug && k != .help
  interspersed := true

namespace GenerateArguments

def take (files : Files) (a : GenerateArguments) (k : GenerateOption) (value : Text) :
    Except Exit GenerateArguments :=
  match k with
  | .config => (fileName value).map fun name => { a with config := some name }
  | .expression => .ok { a with expression := some value }
  | .pid => (integer value).map fun n => { a with pid := some n }
  | .fullFeature => .ok { a with fullFeature := some (value == "--full-feature") }
  | .policy =>
    (choice (ReadPolicy.all.map ReadPolicy.word) value).map fun word =>
      { a with policy := some word }
  | .packets => (integer value).map fun n => { a with packets := some n }
  | .catalog => (existingFile files value).map fun name => { a with catalog := some name }
  | .directory =>
    (existingDirectory files value).map fun name => { a with directory := some name }
  | .output => (fileName value).map fun name => { a with output := some name }
  | .debug => .ok { a with debug := true }
  | .help => .ok a

def read (files : Files) (words : List Text) : Except Exit GenerateArguments :=
  settleAll generateGrammar .help (take files) {} words

end GenerateArguments

/-! ## Listing system calls -/

/-- The options of `syscalls`. -/
inductive SyscallsOption where
  | expression
  | catalog
  | help
  deriving DecidableEq, Repr

def syscallsGrammar : Grammar SyscallsOption where
  long := [("--expr", .expression), ("--catalog", .catalog), ("--help", .help)]
  takesValue k := k != .help
  interspersed := true

namespace SyscallsArguments

def take (files : Files) (a : SyscallsArguments) (k : SyscallsOption) (value : Text) :
    Except Exit SyscallsArguments :=
  match k with
  | .expression => .ok { a with expression := value }
  | .catalog => (existingFile files value).map fun name => { a with catalog := some name }
  | .help => .ok a

def read (files : Files) (words : List Text) : Except Exit SyscallsArguments :=
  settleAll syscallsGrammar .help (take files) {} words

end SyscallsArguments

/-! ## Checking fragments -/

/-- The options of `templates`. -/
inductive TemplatesOption where
  | directory
  | help
  deriving DecidableEq, Repr

def templatesGrammar : Grammar TemplatesOption where
  long := [("--template-dir", .directory), ("--help", .help)]
  takesValue k := k != .help
  interspersed := true

namespace TemplatesArguments

def take (files : Files) (a : TemplatesArguments) (k : TemplatesOption) (value : Text) :
    Except Exit TemplatesArguments :=
  match k with
  | .directory =>
    (existingDirectory files value).map fun name => { a with directory := some name }
  | .help => .ok a

def read (files : Files) (words : List Text) : Except Exit TemplatesArguments :=
  settleAll templatesGrammar .help (take files) {} words

end TemplatesArguments

/-- The usual way to read words. -/
def Parser.usual : Parser where
  root := RootArguments.read
  command := subcommand
  generate := GenerateArguments.read
  syscalls := SyscallsArguments.read
  templates := TemplatesArguments.read

end Tracewright.Cli
