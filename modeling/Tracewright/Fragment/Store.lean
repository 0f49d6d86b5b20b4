/-
  Tracewright.Fragment.Store

  A directory of fragments and the index that says what its files are for.

    * `Store.loadVerbatim` — a fragment as it stands in its file.
    * `Store.load`         — a fragment without carriage returns.
    * `Store.missing`      — the files of the index that are not there.

  Reference: `TemplateStore`, with `path`, `load`, `load_verbatim` and `missing`.
-/
import Tracewright.Fragment.Buffer
import Tracewright.Fragment.Index
import Tracewright.Fragment.Packaged

namespace Tracewright

/-- A directory of fragments in a tree of files. -/
structure Store where
  directory : Path
  files : Files
  index : Index := Index.usual
  deriving Repr

namespace Store

/-- The path of a file of the directory. -/
def path (s : Store) (name : Text) : Path := s.directory.join (Path.ofText name)

/-! ## Loading -/

/-- A fragment that cannot be read. -/
def unreadable {α : Type} (path : Text) (cause : Cause) : Run α := do
  Run.record Log.Level.error Log.Source.fragments (("cannot load the file: " : Text) ++ path)
  Run.fail (.fragmentUnreadable path (some cause))

/-- A fragment exactly as its file holds it, line ends included. -/
def loadVerbatim (s : Store) (name : Text) : Run Buffer :=
  let path := (s.path name).write
  match s.files.read (s.path name) with
  | .error .unnameable => Run.fail (.value .unnameable)
  | .error fault => unreadable path (.os fault)
  | .ok bytes =>
    match Text.Utf8.decode? bytes with
    | none => unreadable path .notUtf8
    | some text => do
      Run.record Log.Level.debug Log.Source.fragments
        (("Loaded template " : Text) ++ path ++ (" (" : Text) ++ Numeral.decimal text.length
          ++ (" bytes)" : Text))
      pure { text := text, name := name }

def dropReturns (t : Text) : Text := t.filter (· != '\r')

/-- A fragment without carriage returns. -/
def load (s : Store) (name : Text) : Run Buffer := do
  let b ← s.loadVerbatim name
  pure { b with text := dropReturns b.text }

/-! ## What is missing -/

/-- The file of a name is there. -/
def holds (s : Store) (name : Text) : Except Failure Bool :=
  match s.files.probe (s.path name) with
  | .ok n => .ok (n matches some (.file _))
  | .error fault => .error (.os fault)

/-- The names whose file is not there. -/
def missingOf (s : Store) : List Text → Except Failure (List Text)
  | [] => .ok []
  | name :: rest => do
    let here ← s.holds name
    let others ← s.missingOf rest
    pure (if here then others else name :: others)

/-- The files of the index that are not there. -/
def missing (s : Store) : Except Failure (List Text) := s.missingOf s.index.allFiles

/-! ## The packaged fragments -/

def packagedDirectory : Text := "<packaged>"

def packagedFiles : Files where
  nodes := ([packagedDirectory], .directory) :: Packaged.fragments.map fun e =>
    ([packagedDirectory, e.1], .file (Text.Utf8.encode e.2))
  home := []

/-- The packaged fragments under their usual names. -/
def packaged : Store := { directory := ⟨[], [packagedDirectory]⟩, files := packagedFiles }

example : packaged.missing.toOption = some [] := by decide +kernel

end Store

end Tracewright
