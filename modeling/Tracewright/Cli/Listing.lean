/-
  Tracewright.Cli.Listing

  The commands that show what a program would be made of.

    * `listSyscalls`   — the system calls that an expression selects.
    * `checkTemplates` — the fragments that are there and those that are not.

  Reference: the commands `syscalls` and `templates`.
-/
import Tracewright.Capture.Selection
import Tracewright.Cli.Session
import Tracewright.Fragment.Store
import Tracewright.Syscall.Builtin
import Tracewright.Syscall.Listing

namespace Tracewright.Cli

/-! ## System calls -/

/-- The system calls that an expression selects from a catalog. -/
def selected (platform : Platform) (a : SyscallsArguments) : Command (List Descriptor) := do
  let s ← perform (Selection.resolve (some a.expression))
  let c ← performOn fun files =>
    match a.catalog with
    | some file => Listing.load platform files file
    | none => pure Catalog.builtin
  pure (c.select s.mask)

/-- Lists the system calls that an expression selects. -/
def listSyscalls (platform : Platform) (a : SyscallsArguments) : Command Unit := do
  let ds ← reported (fun _ => pure ()) (selected platform a)
  print (Console.writeSelection false ds a.expression)

/-! ## Fragments -/

def fragmentLine (missing : List Text) (name : Text) : Text :=
  (if missing.contains name then ("  ✗ " : Text) else ("  ✓ " : Text)) ++ name

def checkTemplates (a : TemplatesArguments) : Command Unit := do
  let here ← get
  let store : Store :=
    match a.directory with
    | some directory => { directory := Path.ofText directory, files := here.files }
    | none => Store.packaged
  let missing ← perform (Run.ofExcept store.missing)
  printLine (("Templates in " : Text) ++ store.directory.write ++ (":" : Text))
  store.index.allFiles.forM fun name => printLine (fragmentLine missing name)
  if missing.isEmpty then printLine "\n✓ All templates present"
  else
    printLine (("\n✗ " : Text) ++ Numeral.decimal missing.length
      ++ (" template(s) missing" : Text))
    throw .failed

end Tracewright.Cli
