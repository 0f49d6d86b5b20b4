/-
  Tracewright.Main

  The outer layer of the program.  It takes the files and processes that a
  call can be about from the machine, runs the call, and puts what has come
  of it back.  The reader of documents and the parser of words, which the
  program leaves open, are supplied here.
-/
import Tracewright.Cli.Program
import Tracewright.Cli.Words
import Tracewright.Yaml.Document

namespace Tracewright.Machine

/-! ## From the machine -/

def nameOf (at_ : Location) : String := String.ofList (Path.write ⟨"/", at_⟩)

def look (at_ : Location) : IO (Option Node) := do
  try
    let path ← IO.FS.realPath (nameOf at_)
    if ← path.isDir then return some .directory
    let bytes ← IO.FS.readBinFile path
    return some (.file bytes.toList)
  catch _ => return none

/-- Adds what stands on the way of a path. -/
def addPath (files : Files) (p : Path) : IO Files := do
  let mut files := files
  let mut here := files.start p
  for part in p.parts do
    if part = ".." then here := here.dropLast
    else
      here := here ++ [part]
      if (files.get? here).isNone then
        if let some node ← look here then files := files.put here node
  return files

/-- Adds what stands at a name, and the fragments in it. -/
def addName (files : Files) (name : Text) : IO Files := do
  let path := Path.ofText name
  let mut files ← addPath files path
  if files.isDirectory path then
    for fragment in Index.usual.allFiles do
      files ← addPath files (path.join (Path.ofText fragment))
  return files

/-- The names of files that words can mention. -/
def namesIn (words : List Text) : List Text :=
  words.flatMap fun w => [w, w.drop 2] ++ (Cli.Grammar.attached w).2.toList

/-- The settings of a call, as far as its words make sense. -/
def settings? (files : Files) (words : List Text) : Option Settings := do
  let (_, rest) ← (Cli.Parser.usual.root words).toOption
  let a ← (Cli.Parser.usual.generate files (rest.drop 1)).toOption
  let s ← (Cli.fileSettings Yaml.platform a files).result.toOption
  ((Settings.assignAll a.overrides).leaves s).result.toOption

/-- The names of files that settings mention. -/
def settingNames (s : Settings) : List Text :=
  (["catalog.file", "templates.dir", "output.file"] : List Text).filterMap fun key =>
    match s.get key .null with
    | .text name => some name
    | _ => none

/-- The files that a call can be about. -/
def files (words : List Text) : IO Files := do
  let home ← IO.currentDir
  let start := Files.empty (Path.ofText home.toString.toList).parts
  let files ← (namesIn words).foldlM addName start
  match settings? files words with
  | some s => (settingNames s).foldlM addName files
  | none => return files

/-- The text of a file, if it can be read. -/
def textOf? (name : String) : IO (Option Text) := do
  try
    let text ← IO.FS.readFile name
    return some text.toList
  catch _ => return none

/-- The process of a number, if it is there. -/
def process? (pid : Int) : IO (List (Int × Option Text)) := do
  let directory := "/proc/" ++ toString pid
  match ← look (Path.ofText directory.toList).parts with
  | some .directory =>
    let name ← textOf? (directory ++ "/comm")
    return [(pid, name)]
  | _ => return []

/-- The processes that a call can be about. -/
def host (files : Files) (words : List Text) : IO Host := do
  let stat ← textOf? "/proc/self/stat"
  let own := (stat.bind fun t => Numeral.read? (t.takeWhile Char.isDigit)).getD 0
  let pid := (settings? files words).bind fun s => (s.get "generator.pid" .null).toInt.toOption
  match pid with
  | some pid => return { own := own, processes := ← process? pid }
  | none => return { own := own }

/-! ## Back to the machine -/

/-- Puts a node where it stands; a file takes the place of another as a whole. -/
def store (at_ : Location) (node : Node) : IO Unit := do
  match node with
  | .directory => IO.FS.createDirAll (nameOf at_)
  | .file bytes =>
    let temporary := nameOf at_ ++ ".tmp"
    IO.FS.writeBinFile temporary (ByteArray.mk bytes.toArray)
    IO.FS.rename temporary (nameOf at_)

/-- Puts back what has changed, directories before what is in them. -/
def storeAll (before after : Files) : IO Unit := do
  for (at_, node) in sortBy (fun a b => a.1.length ≤ b.1.length) (after.changedFrom before) do
    store at_ node

end Tracewright.Machine

/-- Runs the program with the words of the command line. -/
def main (args : List String) : IO UInt32 := do
  let words := args.map String.toList
  let before ← Tracewright.Machine.files words
  let host ← Tracewright.Machine.host before words
  let outcome :=
    Tracewright.Cli.run Tracewright.Yaml.platform Tracewright.Cli.Parser.usual host before words
  Tracewright.Machine.storeAll before outcome.files
  let closing := (outcome.exit.map Tracewright.Cli.Exit.message).getD []
  (← IO.getStdout).putStr (String.ofList outcome.stdout)
  (← IO.getStderr).putStr (String.ofList (outcome.stderr ++ closing))
  return outcome.code.toUInt32
