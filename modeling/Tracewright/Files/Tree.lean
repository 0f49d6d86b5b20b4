/-
  Tracewright.Files.Tree

  The files a run can reach, as a value: what stands at each location, and
  the working directory.  Looking something up walks the path part by part
  through directories that exist; `..` goes back to the directory above.

    * `Files.nameable`   — which paths can be asked about at all.
    * `Files.read`       — the bytes of a file.
    * `Files.probe`      — what is there, if anything is.
    * `Files.makeDirectories` — a directory and all that it is in.
    * `Files.replace`    — puts a file in place of what was there.
    * `Files.openEnd`, `append` — adds to a file.
    * `Files.below`, `changedFrom` — the files there are, and those that have
                           changed.

  Reference: `open`, `os.stat`, `os.replace`, `Path.mkdir` and `Path.is_file` on a
  tree of files without links.
-/
import Tracewright.Files.Path
import Tracewright.Text.Utf8

namespace Tracewright

/-- Why the operating system refuses an operation. -/
inductive OsFault where
  | notFound
  | notDirectory
  | isDirectory
  | alreadyExists
  | nameTooLong
  /-- The name holds a NUL, which no file name can. -/
  | unnameable
  /-- The device takes no more output. -/
  | refused
  deriving DecidableEq, Repr

/-- A place in the tree: the names from the root down to it. -/
abbrev Location := List Text

/-- What can stand at a location. -/
inductive Node where
  | file (bytes : List UInt8)
  | directory
  deriving DecidableEq, Repr

/-- A tree of files with a working directory; the root is always a directory. -/
structure Files where
  nodes : List (Location × Node)
  home : Location
  deriving Repr

namespace Files

/-- Nothing but the working directory and what it is in. -/
def empty (home : Location) : Files where
  nodes := (List.range home.length).map fun n => (home.take (n + 1), .directory)
  home := home

/-! ## Looking up -/

def get? (f : Files) (at_ : Location) : Option Node :=
  if at_ = [] then some .directory else f.nodes.lookup at_

/-- The longest name of a file, in bytes. -/
def nameLimit : Nat := 255

/-- The name is longer than names may be. -/
def isTooLong (name : Text) : Bool := nameLimit < (Text.Utf8.encode name).length

/-- Walks from `here` through the parts of a path. -/
def walk (f : Files) (here : Location) : List Text → Except OsFault Location
  | [] => .ok here
  | part :: rest =>
    if part = ".." then walk f here.dropLast rest
    else if isTooLong part then .error .nameTooLong
    else match f.get? (here ++ [part]) with
      | none => .error .notFound
      | some .directory => walk f (here ++ [part]) rest
      | some (.file _) => if rest.isEmpty then .ok (here ++ [part]) else .error .notDirectory

/-- Where the walk of a path starts. -/
def start (f : Files) (p : Path) : Location := if p.root.isEmpty then f.home else []

/-- The number of bytes that a path may not reach. -/
def pathLimit : Nat := 4096

/-- The number of bytes of a path. -/
def pathLength (p : Path) : Nat := (Text.Utf8.encode p.write).length

/-- Refuses a path that no operation takes, whatever is there: one with a NUL in it, and one
    that is too long. -/
def nameable (p : Path) : Except OsFault Unit :=
  if p.parts.any (·.contains '\x00') then .error .unnameable
  else if pathLimit ≤ pathLength p then .error .nameTooLong
  else .ok ()

/-- The location of a path, if something is there. -/
def locate (f : Files) (p : Path) : Except OsFault Location := do
  nameable p
  f.walk (f.start p) p.parts

def node (f : Files) (p : Path) : Except OsFault Node := do
  let at_ ← f.locate p
  match f.get? at_ with
  | some n => .ok n
  | none => .error .notFound

def read (f : Files) (p : Path) : Except OsFault (List UInt8) := do
  match ← f.node p with
  | .file bytes => .ok bytes
  | .directory => .error .isDirectory

/-- What stands at a path, if anything does; only a name that is too long cannot be asked
    about. -/
def probe (f : Files) (p : Path) : Except OsFault (Option Node) :=
  match f.node p with
  | .ok n => .ok (some n)
  | .error .nameTooLong => .error .nameTooLong
  | .error _ => .ok none

def isDirectory (f : Files) (p : Path) : Bool :=
  match f.node p with
  | .ok .directory => true
  | _ => false

/-! ## Changing -/

def put (f : Files) (at_ : Location) (n : Node) : Files :=
  { f with nodes := (at_, n) :: f.nodes.filter fun e => e.1 != at_ }

/-- Takes away what stands at a location or below it. -/
def remove (f : Files) (at_ : Location) : Files :=
  { f with nodes := f.nodes.filter fun e => !at_.isPrefixOf e.1 }

/-- The location of the directory that holds a path. -/
def locateParent (f : Files) (p : Path) : Except OsFault Location := do
  let at_ ← f.locate p.parent
  match f.get? at_ with
  | some .directory => .ok at_
  | _ => .error .notDirectory

/-- Makes one directory, in a directory that exists. -/
def makeDirectory (f : Files) (p : Path) : Except OsFault Files := do
  nameable p
  if p.name = [] ∨ p.name = ".." then
    let _ ← f.locate p
    .error .alreadyExists
  else
    let above ← f.locateParent p
    if isTooLong p.name then .error .nameTooLong
    else match f.get? (above ++ [p.name]) with
      | some _ => .error .alreadyExists
      | none => .ok (f.put (above ++ [p.name]) .directory)

/-- Accepts a refusal when the directory is there all the same. -/
def orThere (f : Files) (p : Path) (r : Except OsFault Files) : Files × Option OsFault :=
  match r with
  | .ok f' => (f', none)
  | .error fault => if f.isDirectory p then (f, none) else (f, some fault)

/-- Makes a directory, and first the directories that it is in if they are missing;
    `parts` are the parts of its path, the last one first.  What has been made stays. -/
def makeDirectoriesLoop (f : Files) (root : Text) : List Text → Files × Option OsFault
  | [] => (f, none)
  | part :: above =>
    let p : Path := ⟨root, (part :: above).reverse⟩
    match f.makeDirectory p with
    | .error .notFound =>
      match above with
      | [] => (f, some .notFound)
      | _ =>
        match makeDirectoriesLoop f root above with
        | (f', some fault) => (f', some fault)
        | (f', none) => f'.orThere p (f'.makeDirectory p)
    | r => f.orThere p r

/-- Makes a directory and all that it is in, as far as they are missing. -/
def makeDirectories (f : Files) (p : Path) : Files × Option OsFault :=
  f.makeDirectoriesLoop p.root p.parts.reverse

/-- The path from the root with every `..` taken together with the name before it, whatever
    stands there. -/
def absolute (f : Files) (p : Path) : Path where
  root := if p.root.isEmpty then "/" else p.root
  parts := (f.start p ++ p.parts).foldl
    (fun (above : List Text) (part : Text) =>
      if part = ".." then above.dropLast else above ++ [part]) []

/-- The room that a temporary name needs beside the name of the file it is for. -/
def temporaryRoom : Nat := 13

/-- The temporary file beside a path, named from the root, takes as many bytes as a path may
    not, or the path itself does. -/
def leavesNoRoom (f : Files) (p : Path) : Bool :=
  pathLimit ≤ pathLength ((f.absolute p.parent).join ⟨[], [p.name]⟩) + temporaryRoom
    || pathLimit ≤ pathLength p

/-- Writes `bytes` to a temporary file beside the path, and then puts it in the place of
    the file that was there; a directory is not replaced. -/
def replace (f : Files) (p : Path) (bytes : List UInt8) : Except OsFault Files := do
  let above ← f.locateParent p
  if p.name.contains '\x00' then .error .unnameable
  else if nameLimit < (Text.Utf8.encode p.name).length + temporaryRoom then .error .nameTooLong
  else if f.leavesNoRoom p then .error .nameTooLong
  else if p.name = [] ∨ p.name = ".." then .error .isDirectory
  else match f.get? (above ++ [p.name]) with
    | some .directory => .error .isDirectory
    | _ => .ok (f.put (above ++ [p.name]) (.file bytes))

/-! ## Adding to files -/

/-- Opens a file at its end: where it stands, and the files with an empty one if there was
    none. -/
def openEnd (f : Files) (p : Path) : Except OsFault (Location × Files) := do
  nameable p
  if p.name = [] then .error .isDirectory
  else
    let above ← f.locateParent p
    if isTooLong p.name then .error .nameTooLong
    else
      let at_ := above ++ [p.name]
      match f.get? at_ with
      | some .directory => .error .isDirectory
      | some (.file _) => .ok (at_, f)
      | none => .ok (at_, f.put at_ (.file []))

/-- Adds bytes to the file at a location. -/
def append (f : Files) (at_ : Location) (bytes : List UInt8) : Files :=
  match f.get? at_ with
  | some (.file old) => f.put at_ (.file (old ++ bytes))
  | _ => f

/-! ## Listing -/

/-- The files below the working directory: the names from there on, and the bytes. -/
def below (f : Files) : List (List Text × List UInt8) :=
  f.nodes.filterMap fun
    | (at_, .file bytes) =>
      if f.home.isPrefixOf at_ then some (at_.drop f.home.length, bytes) else none
    | (_, .directory) => none

/-- What stands where nothing stood before, or something else. -/
def changedFrom (f before : Files) : List (Location × Node) :=
  f.nodes.filter fun e => before.get? e.1 != some e.2

/-- The files below the working directory that are new or have changed. -/
def changedBelow (f before : Files) : List (List Text × List UInt8) :=
  below { f with nodes := f.changedFrom before }

end Files

end Tracewright
