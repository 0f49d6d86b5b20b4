/-
  Tracewright.Cli.Options

  Options among the words of a command line.

    * `Grammar`      — the options of a command: their names, and which of
                       them take a value.
    * `Grammar.scan` — the options that are given, in order, and the words
                       that are left.
    * `settle`       — of an option that is given several times, the last
                       value counts.

  A long option is written `--name value` or `--name=value`, a short one
  `-n value` or `-nvalue`.  What follows an option that takes a value is that
  value, whatever it looks like.  The word `--` ends the options.

  Reference: `OptionParser` of `click`.
-/
import Tracewright.Cli.Arguments
import Tracewright.Text.Search

namespace Tracewright.Cli

/-! ## Grammars -/

variable {κ : Type}

/-- The options of a command. -/
structure Grammar (κ : Type) where
  /-- The long names, with their hyphens. -/
  long : List (Text × κ)
  /-- The letters of the short names. -/
  short : List (Char × κ) := []
  takesValue : κ → Bool
  /-- Options may follow words that are none. -/
  interspersed : Bool

/-- An option that is given, with its value; the value of an option that takes none is the
    name by which it is given. -/
abbrev Given (κ : Type) := κ × Text

namespace Grammar

/-- The options in the letters after a hyphen, and one that waits for its value.  An option
    that takes a value takes all the letters after its own. -/
def letters (g : Grammar κ) : Text → Except UsageFault (List (Given κ) × Option κ)
  | [] => .ok ([], none)
  | c :: rest =>
    match g.short.lookup c with
    | none => .error (.unknownOption ['-', c])
    | some k =>
      if g.takesValue k then
        if rest.isEmpty then .ok ([], some k) else .ok ([(k, rest)], none)
      else (g.letters rest).map fun (given, waiting) => ((k, ['-', c]) :: given, waiting)

/-- The name in a word, and the value that is attached to it. -/
def attached (word : Text) : Text × Option Text :=
  match Text.cut? ['='] word with
  | some (name, value) => (name, some value)
  | none => (word, none)

/-- The options in one word, and one that waits for its value. -/
def word (g : Grammar κ) (w : Text) : Except UsageFault (List (Given κ) × Option κ) :=
  let (name, value) := attached w
  match g.long.lookup name with
  | some k =>
    match g.takesValue k, value with
    | true, some v => .ok ([(k, v)], none)
    | true, none => .ok ([], some k)
    | false, none => .ok ([(k, name)], none)
    | false, some _ => .error (.unwantedValue name)
  | none =>
    match w with
    | '-' :: '-' :: _ => .error (.unknownOption name)
    | _ => g.letters (w.drop 1)

/-- The word gives options: it starts with a hyphen and goes on. -/
def isOption : Text → Bool
  | '-' :: _ :: _ => true
  | _ => false

/-- Goes through the words; `waiting` is an option that takes the next word for its
    value. -/
def scanLoop (g : Grammar κ) (waiting : Option κ) :
    List Text → Except UsageFault (List (Given κ) × List Text)
  | [] =>
    match waiting with
    | none => .ok ([], [])
    | some _ => .error .missingValue
  | w :: rest =>
    match waiting with
    | some k => do
      let (given, left) ← g.scanLoop none rest
      pure ((k, w) :: given, left)
    | none =>
      if w = "--" then .ok ([], rest)
      else if isOption w then do
        let (here, waiting) ← g.word w
        let (given, left) ← g.scanLoop waiting rest
        pure (here ++ given, left)
      else if g.interspersed then do
        let (given, left) ← g.scanLoop none rest
        pure (given, w :: left)
      else .ok ([], w :: rest)

/-- The options that are given, in order, and the words that are left. -/
def scan (g : Grammar κ) (words : List Text) :
    Except UsageFault (List (Given κ) × List Text) :=
  g.scanLoop none words

end Grammar

/-! ## Values -/

/-- The value of an option that counts: the last one. -/
def lastValue? [DecidableEq κ] (given : List (Given κ)) (k : κ) : Option Text :=
  given.reverse.lookup k

/-- Takes up the options that are given, each once and with the value that counts, in the
    order in which they are first given. -/
def settle [DecidableEq κ] {α ε : Type} (take : α → κ → Text → Except ε α) (start : α)
    (given : List (Given κ)) : Except ε α :=
  (given.map (·.1)).eraseDups.foldlM
    (fun a k => match lastValue? given k with | some v => take a k v | none => .ok a) start

end Tracewright.Cli
