/-
  Tracewright.Files.Path

  Names of files.  A name is cut at its slashes; empty parts and single dots
  say nothing and are dropped, double dots are kept, for what they mean
  depends on the directories they pass.

    * `Path.ofText`, `Path.write` — from a name and back to its short form.
    * `Path.join`                 — a name inside a directory; a rooted name
                                    stands for itself.

  Reference: `PurePath`, with `name`, `parent`, `/` and `str`.
-/
import Tracewright.Text.Search

namespace Tracewright

/-- A file name; `root` is empty for a name that starts at the working directory. -/
structure Path where
  root : Text
  parts : List Text
  deriving DecidableEq, Repr

namespace Path

def isPart (part : Text) : Bool := part != [] && part != "."

/-- The path that a name says.  Two slashes in front are a root of their own, any other
    number of them is the root. -/
def ofText (t : Text) : Path where
  root :=
    match t with
    | '/' :: '/' :: '/' :: _ => "/"
    | '/' :: '/' :: _ => "//"
    | '/' :: _ => "/"
    | _ => []
  parts := (Text.split ['/'] t).filter isPart

def write (p : Path) : Text :=
  if p.parts.isEmpty then (if p.root.isEmpty then ['.'] else p.root)
  else p.root ++ List.intercalate ['/'] p.parts

def join (p q : Path) : Path :=
  if q.root.isEmpty then ⟨p.root, p.parts ++ q.parts⟩ else q

def parent (p : Path) : Path := ⟨p.root, p.parts.dropLast⟩

/-- The last part; empty if there is none. -/
def name (p : Path) : Text := p.parts.getLastD []

end Path

end Tracewright
