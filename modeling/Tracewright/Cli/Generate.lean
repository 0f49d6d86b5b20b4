/-
  Tracewright.Cli.Generate

  The command that generates a program.  What it uses is said in settings:
  the usual ones, over them those of a file, and over them the options.

    * `GenerateArguments.overrides` — the settings that the options stand for.
    * `settings`                    — the settings of a call.
    * `Settings.catalog`, `Settings.directory` — what settings name.
    * `generateProgram`             — the command.

  Fragments are read when they are needed, so one that is also the log file
  holds what has been told until then.

  Reference: the command `generate`; fragments are templates there.
-/
import Tracewright.Cli.Session
import Tracewright.Program.Attach
import Tracewright.Settings.Load
import Tracewright.Syscall.Builtin
import Tracewright.Syscall.Listing

namespace Tracewright

/-! ## What settings name -/

namespace Settings

/-- The system calls: those of a listing, if one is named, or the usual ones. -/
def catalog (platform : Platform) (s : Settings) (files : Files) : Run Catalog :=
  match s.get "catalog.file" .null with
  | .text [] => pure Catalog.builtin
  | .text file => Listing.load platform files file
  | v => if v.isTrue then Run.fail .wrongKind else pure Catalog.builtin

/-- The directory of the fragments, if one is named. -/
def directory (s : Settings) : Run (Option Path) :=
  match s.get "templates.dir" .null with
  | .text [] => pure none
  | .text name => pure (some (Path.ofText name))
  | v => if v.isTrue then Run.fail .wrongKind else pure none

end Settings

namespace Cli

/-! ## The settings of a call -/

/-- The settings that the options stand for, in the order in which they are put. -/
def GenerateArguments.overrides (a : GenerateArguments) : List (Text × Item) :=
  ([("generator.expression", a.expression.map .text),
    ("generator.pid", a.pid.map .int),
    ("generator.full_feature", a.fullFeature.map .bool),
    ("generator.string_read", a.policy.map .text),
    ("generator.string_packets", a.packets.map .int),
    ("catalog.file", a.catalog.map .text),
    ("templates.dir", a.directory.map .text),
    ("output.file", a.output.map .text),
    ("output.debug_marks", if a.debug then some (.bool true) else none)] :
      List (Text × Option Scalar)).filterMap fun (key, v) => v.map fun v => (key, .scalar v)

/-- The settings of a file, if one is named, over the usual ones. -/
def fileSettings (platform : Platform) (a : GenerateArguments) (files : Files) : Run Settings :=
  match a.config with
  | none | some [] => pure (Settings.usual platform.depths)
  | some file => (Settings.load platform files file).leaves (Settings.usual platform.depths)

def settings (platform : Platform) (a : GenerateArguments) : Command Settings := do
  let s ← reported (fun _ => pure ()) (performOn (fileSettings platform a))
  perform ((Settings.assignAll a.overrides).leaves s)

/-! ## The program -/

def announce (host : Host) (m : Mode) : Run Unit :=
  match m.pid with
  | none => pure ()
  | some pid => do
    let running ← Run.ofExcept (host.isRunning pid.number)
    let numeral ← Run.decimal pid.number
    if running then
      Run.record Log.Level.info Log.Source.command
        (("Generating for PID " : Text) ++ numeral ++ (" (" : Text)
          ++ (host.nameOf? pid.number).getD "None" ++ (")" : Text))
    else
      Run.record Log.Level.warning Log.Source.command
        (("PID " : Text) ++ numeral ++ (" is not running" : Text))

/-- The fragments of a directory as they are when they are taken, or the packaged ones. -/
def fragments (directory : Option Path) : Source Command :=
  match directory with
  | none => Store.packaged.source.lift
  | some directory =>
    { index := Index.usual
      loadVerbatim := fun name => performOn fun files =>
        Store.loadVerbatim { directory, files } name }

def program (platform : Platform) (s : Settings) : Command Text := do
  let m ← perform s.mode
  let here ← get
  perform (announce here.host m)
  let c ← performOn (s.catalog platform)
  let directory ← perform s.directory
  generate (fragments directory) c m here.host.own

/-- Puts a program where settings ask for it: into a file, or on the console. -/
def deliver (s : Settings) (text : Text) : Command Unit :=
  let marks := (s.get "output.debug_marks" .null).isTrue
  match s.get "output.file" .null with
  | .text [] => print (Console.writeProgram text marks)
  | .text file => exportProgram file text
  | v =>
    if v.isTrue then perform (Run.fail .wrongKind)
    else print (Console.writeProgram text marks)

/-- What is told in the log of a failure of the generator. -/
def logFailure (e : Failure) : Command Unit :=
  perform (Run.record Log.Level.error Log.Source.command
    (("Generation failed: " : Text) ++ e.message))

def generateProgram (platform : Platform) (a : GenerateArguments) : Command Unit := do
  let s ← settings platform a
  reported logFailure do
    let text ← program platform s
    deliver s text

end Cli

end Tracewright
