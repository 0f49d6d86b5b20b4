/-
  Tracewright.Output.Export

  Programs as files.  A program is written beside the file it is for and then
  put in its place, so a file is either replaced as a whole or left alone.

  Reference: `SourceExporter.export`.
-/
import Tracewright.Output.Size
import Tracewright.Run

namespace Tracewright.Export

/-- Puts a program in the place of the file at a path, in directories that are made as far
    as they are missing. -/
def place (files : Files) (path : Path) (text : Text) : Option OsFault × Files :=
  match files.makeDirectories path.parent with
  | (files, some fault) => (some fault, files)
  | (files, none) =>
    match files.replace path (Text.Utf8.encode text) with
    | .error fault => (some fault, files)
    | .ok files => (none, files)

/-- What is told of a program that could not be written. -/
def refused (path : Text) (fault : OsFault) : Run Path :=
  match fault with
  | .unnameable => Run.fail (.value .unnameable)
  | fault => do
    let cause := Cause.os fault
    Run.record Log.Level.error Log.Source.files
      (("Failed to write " : Text) ++ path ++ (": " : Text) ++ cause.text)
    Run.fail (.fileRefused path cause)

/-- What is told of a program that has been written. -/
def written (path : Path) (text : Text) : Run Path := do
  Run.record Log.Level.info Log.Source.files
    (("Wrote " : Text) ++ Size.renderLength text ++ (" of eBPF code to " : Text) ++ path.write)
  pure path

/-- Writes a program to the file of a name inside a directory; the answer is its path. -/
def write (directory name text : Text) : Action Files Path := fun files =>
  let path := (Path.ofText directory).join (Path.ofText name)
  match place files path text with
  | (none, files) => (written path text, files)
  | (some fault, files) => (refused path.write fault, files)

end Tracewright.Export
