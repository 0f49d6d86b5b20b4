/-
  Tracewright.Log.Setup

  Where records go: to the console, perhaps in colours, and perhaps to the
  end of a file, never in colours.

    * `Level.ofWord`  — the level of a word.
    * `passes`        — which records are shown.
    * `line`          — a record as a line.
    * `Setup.console`, `Setup.writeFile` — the records on the console and in the
                        file.
    * `Setup.start`   — from a word and a file name to a set-up, which is the
                        first thing that is told.

  The time is not part of a record; `<time>` stands in its place.

  Reference: `setup_logging` and `ColoredFormatter`, with the handlers and
  levels of the standard `logging`.
-/
import Tracewright.Failure
import Tracewright.Log.Record
import Tracewright.Number.Numeral
import Tracewright.Output.Console
import Tracewright.Text.Case

namespace Tracewright.Log

/-! ## Levels -/

namespace Level

/-- The words for levels; several words can mean one level. -/
def words : List (Text × Level) := [
  ("DEBUG", debug), ("INFO", info), ("WARNING", warning), ("WARN", warning), ("ERROR", error),
  ("CRITICAL", critical), ("FATAL", critical), ("NOTSET", 0)]

/-- The word for the shortest format of lines, which is no level. -/
def formatWord : Text := "BASIC_FORMAT"

/-- The word for the styles of formats, which are no level either. -/
def stylesWord : Text := "_STYLES"

/-- The level of a word, in letters of either case.  A word that names something else of a
    log is at fault; any other word means `info`. -/
def ofWord (word : Text) : Except Failure Level :=
  let word := Text.upper word
  if word = formatWord then .error (.value .unknownLevel)
  else if word = stylesWord then .error .wrongKind
  else .ok ((words.lookup word).getD info)

def name (l : Level) : Text :=
  match words.find? (·.2 == l) with
  | some (word, _) => word
  | none => ("Level " : Text) ++ Numeral.decimal l

/-- The colour of a level; levels between the usual ones have none. -/
def colour? (l : Level) : Option Text :=
  if l = debug then some Console.cyan
  else if l = info then some Console.green
  else if l = warning then some Console.yellow
  else if l = error then some Console.red
  else if l = critical then some (Console.red ++ Console.bright)
  else none

/-- The name of a level in its colour. -/
def colouredName (l : Level) : Text :=
  match l.colour? with
  | some colour => Console.coloured colour l.name
  | none => l.name

end Level

/-- A record that is at least as grave as the threshold is shown; one below all levels
    never is. -/
def passes (threshold : Level) (r : Record) : Bool := 0 < r.level && threshold ≤ r.level

/-! ## Lines -/

/-- The name of a source; without a name it is the root of all sources. -/
def sourceName (source : Text) : Text := if source.isEmpty then Source.root else source

def line (colours : Bool) (r : Record) : Text :=
  ("<time> - " : Text) ++ sourceName r.source ++ (" - " : Text)
    ++ (if colours then Level.colouredName r.level else Level.name r.level)
    ++ (" - " : Text) ++ r.message ++ ['\n']

/-- The lines of the records that are shown. -/
def lines (threshold : Level) (colours : Bool) (rs : List Record) : Text :=
  (rs.filter (passes threshold)).flatMap (line colours)

/-! ## Set-up -/

/-- Where records go. -/
structure Setup where
  threshold : Level
  colours : Bool
  /-- The file that the lines are added to. -/
  file : Option Location
  deriving Repr

namespace Setup

/-- The record that tells of the set-up. -/
def opening (word : Text) : Record where
  level := Level.debug
  source := Source.root
  message := ("Logging initialized at " : Text) ++ word ++ (" level" : Text)

/-- Adds the lines of records to the file. -/
def writeFile (s : Setup) (rs : List Record) (files : Files) : Files :=
  match s.file with
  | some at_ => files.append at_ (Text.Utf8.encode (lines s.threshold false rs))
  | none => files

/-- The lines of records on the console. -/
def console (s : Setup) (rs : List Record) : Text := lines s.threshold s.colours rs

/-- The set-up for a level and a file, and the files with that file made if it was missing; an
    empty file name is none. -/
def make (word : Text) (file : Option Text) (colours : Bool) (files : Files) :
    Except Failure (Setup × Files) := do
  let threshold ← Level.ofWord word
  match file with
  | none | some [] => .ok (⟨threshold, colours, none⟩, files)
  | some name =>
    match files.openEnd (files.absolute (Path.ofText name)) with
    | .ok (at_, files) => .ok (⟨threshold, colours, some at_⟩, files)
    | .error fault => .error (.ofOs fault)

/-- What comes of starting a log: the set-up, and what has been put out since. -/
structure Started where
  setup : Setup
  stderr : Text
  files : Files
  deriving Repr

/-- Starts a log: the set-up for a level and a file, which is the first thing that is told. -/
def start (word : Text) (file : Option Text) (colours : Bool) (files : Files) :
    Except Failure Started := do
  let (setup, files) ← make word file colours files
  let opening := [opening word]
  pure ⟨setup, setup.console opening, setup.writeFile opening files⟩

end Setup

end Tracewright.Log
