/-
  Tracewright.Output.Console

  What is shown of programs and of selections.

    * `Console.writeMarked`    — a text between two marks.
    * `Console.writeProgram`   — a program, with or without the marks.
    * `Console.writeSelection` — a listing of system calls.
    * `Console.withoutCodes`   — a text without codes for terminals.

  Reference: `print_with_debug_marks` and `StdoutExporter`.
-/
import Tracewright.Program.Sink
import Tracewright.Syscall.Descriptor

namespace Tracewright.Console

/-! ## Colours -/

/-- The codes that change the colour of what follows. -/
def cyan : Text := "\x1b[36m"
def green : Text := "\x1b[32m"
def yellow : Text := "\x1b[33m"
def red : Text := "\x1b[31m"
def bright : Text := "\x1b[1m"

def plain : Text := "\x1b[0m"

def coloured (colour t : Text) : Text := colour ++ t ++ plain

/-- A character of the numbers of a code. -/
def isParameter (c : Char) : Bool := '0' ≤ c && c ≤ '?'

/-- A character between the numbers of a code and its end. -/
def isIntermediate (c : Char) : Bool := ' ' ≤ c && c ≤ '/'

/-- A character that ends a code. -/
def isFinal (c : Char) : Bool := '@' ≤ c && c ≤ '~'

/-- The text after a code, if it starts with one: an escape, an opening bracket, numbers with
    the marks between them, further marks, and one character that ends it. -/
def afterCode? (t : Text) : Option Text :=
  match t with
  | '\x1b' :: '[' :: rest =>
    match (rest.dropWhile isParameter).dropWhile isIntermediate with
    | c :: rest => if isFinal c then some rest else none
    | [] => none
  | _ => none

/-- Drops codes: `skip` characters still belong to the last one found. -/
def withoutCodesLoop (skip : Nat) (done : Text) : Text → Text
  | [] => done.reverse
  | c :: rest =>
    match skip with
    | k + 1 => withoutCodesLoop k done rest
    | 0 =>
      match afterCode? (c :: rest) with
      | some after => withoutCodesLoop (rest.length - after.length) done rest
      | none => withoutCodesLoop 0 (c :: done) rest

/-- A text without the codes that colour it or move it about. -/
def withoutCodes (t : Text) : Text := withoutCodesLoop 0 [] t

/-! ## Programs -/

def beginMark : Text := "\t>>>>> Generated eBPF code <<<<<\n"

def endMark : Text := "\t>>>>> EndOf generated eBPF code <<<<<<\n"

/-- The pieces of a text between the marks; an empty text is no piece. -/
def marked (t : Text) : List Text :=
  if t.isEmpty then [beginMark, endMark] else [beginMark, t, endMark]

def writePieces (write : Text → Action Sink Unit) : List Text → Action Sink Unit
  | [] => pure ()
  | t :: rest => do
    write t
    writePieces write rest

def writeMarked (t : Text) : Action Sink Unit := writePieces Sink.write (marked t)

/-- Writes a program, between the marks if they are asked for. -/
def writeProgram (t : Text) (marks : Bool) : Action Sink Unit :=
  writePieces (Sink.writeProgram Log.Source.console) (if marks then marked t else [t])

/-! ## Selections -/

def header (colours : Bool) (expression : Text) (count : Nat) : Text :=
  let line := ("Syscalls selected by '" : Text) ++ expression ++ ("': " : Text)
    ++ Numeral.decimal count
  (if colours then coloured cyan line else line) ++ ['\n']

/-- The slots of the strings of a system call; a hyphen if there are none. -/
def slotList (d : Descriptor) : Text :=
  if d.slots.isEmpty then ['-']
  else List.intercalate [','] (d.slots.map fun i => Numeral.decimal i.val)

def row (d : Descriptor) : Run Text := do
  let number ← Run.decimal d.number
  pure (("  " : Text) ++ Text.padLeft 4 number ++ ("  " : Text) ++ Text.padRight 16 d.name
    ++ (" strings=" : Text) ++ slotList d ++ ['\n'])

def writeRows : List Descriptor → Action Sink Unit
  | [] => pure ()
  | d :: rest => do
    let line ← row d
    Sink.write line
    writeRows rest

/-- Writes a listing of the system calls that an expression selects. -/
def writeSelection (colours : Bool) (ds : List Descriptor) (expression : Text) :
    Action Sink Unit := do
  Sink.write (header colours expression ds.length)
  writeRows ds

end Tracewright.Console
