/-
  Tracewright.Value.Basic

  The values of a settings file or a syscall listing, as one sees them: what
  has no parts, lists, tuples, sets and mappings, in the order in which they
  were written.

    * `Scalar`, `Value`        — the values.
    * `Scalar.same`            — when two keys of a mapping are one.
    * `Value.isTrue`           — what counts as true.
    * `Value.toInt`            — what counts as an integer, and why not.
    * `Value.elements?`        — what one meets going through a value.
    * `Value.render`           — a value as messages show it.
    * `Value.obstacle?`        — why a value cannot be shown.
    * `Value.write`            — a value as the text it stands for.

  Reference: the built-in `bool`, `int`, `iter`, `repr` and `str`, and the
  equality of dictionary keys, for what a YAML reader returns.
-/
import Tracewright.Number.Shortest
import Tracewright.Text.Quoted
import Tracewright.Value.Moment

namespace Tracewright

/-- A value without parts. -/
inductive Scalar where
  | null
  | bool (b : Bool)
  | int (n : Int)
  | float (x : Double)
  | text (t : Text)
  | bytes (bs : List UInt8)
  | moment (m : Moment)
  deriving DecidableEq, Repr

/-- The values that have parts and can hold themselves. -/
inductive Shape where
  | list
  | tuple
  | map
  deriving DecidableEq, Repr

/-- A value as one sees it; the entries of a mapping keep their order. -/
inductive Value where
  | scalar (s : Scalar)
  | list (items : List Value)
  | tuple (items : List Value)
  | set (items : List Scalar)
  | map (entries : List (Scalar × Value))
  /-- One of the values that this one is a part of, seen again. -/
  | again (shape : Shape)
  /-- Something that stands deeper than one can look. -/
  | tooDeep
  deriving Repr

instance : Inhabited Value := ⟨.scalar .null⟩

namespace Value

abbrev null : Value := .scalar .null

abbrev bool (b : Bool) : Value := .scalar (.bool b)

abbrev int (n : Int) : Value := .scalar (.int n)

abbrev float (x : Double) : Value := .scalar (.float x)

abbrev text (t : Text) : Value := .scalar (.text t)

end Value

/-! ## Keys -/

namespace Scalar

/-- The integer that a scalar counts as: itself, or 0 and 1 for the truth values. -/
def integer? : Scalar → Option Int
  | .bool b => some (if b then 1 else 0)
  | .int n => some n
  | _ => none

/-- Two scalars are the same key: equal texts, or numbers of equal value, or the same moment;
    what is not a number is one key, too. -/
def same (a b : Scalar) : Bool :=
  match a, b with
  | .null, .null => true
  | .text t, .text u => t == u
  | .bytes x, .bytes y => x == y
  | .moment x, .moment y => x.kind == y.kind && x.instant == y.instant
  | .float x, .float y => x.same y || (x == .nan && y == .nan)
  | .float x, b => b.integer?.isSome && x.toInt? == b.integer?
  | a, .float y => a.integer?.isSome && y.toInt? == a.integer?
  | a, b => a.integer?.isSome && a.integer? == b.integer?

theorem same_text (t u : Text) : same (.text t) (.text u) = (t == u) := rfl

end Scalar

/-! ## Truth -/

namespace Scalar

/-- Nought, what is empty and the absent value are false. -/
def isTrue : Scalar → Bool
  | .null => false
  | .bool b => b
  | .int n => n != 0
  | .float x => !x.isZero
  | .text t => !t.isEmpty
  | .bytes bs => !bs.isEmpty
  | .moment _ => true

end Scalar

namespace Value

/-- A scalar by its own rule; what has parts is true unless it is empty. -/
def isTrue : Value → Bool
  | .scalar s => s.isTrue
  | .list items | .tuple items => !items.isEmpty
  | .set items => !items.isEmpty
  | .map entries => !entries.isEmpty
  | .again _ | .tooDeep => true

end Value

/-! ## Integers -/

/-- Why a value is not an integer. -/
inductive IntFault where
  /-- A value of this kind never is. -/
  | wrongKind
  /-- The text spells none, or the number is not a number. -/
  | noNumeral
  | infinite
  deriving DecidableEq, Repr

/-- The bytes of ASCII characters as a text; no other bytes spell a number. -/
def asciiText? (bs : List UInt8) : Option Text :=
  if bs.all (· < 0x80) then some (bs.map fun b => Char.ofNat b.toNat) else none

namespace Value

/-- The integer a value stands for: itself, 0 and 1 for the truth values, the integer
    towards zero of a floating point number, the integer a text spells. -/
def toInt : Value → Except IntFault Int
  | .scalar (.bool b) => .ok (if b then 1 else 0)
  | .scalar (.int n) => .ok n
  | .scalar (.float x) =>
    match x.truncate?, x with
    | some n, _ => .ok n
    | none, .nan => .error .noNumeral
    | none, _ => .error .infinite
  | .scalar (.text t) =>
    match Numeral.read? t with
    | some n => .ok n
    | none => .error .noNumeral
  | .scalar (.bytes bs) =>
    match (asciiText? bs).bind Numeral.read? with
    | some n => .ok n
    | none => .error .noNumeral
  | _ => .error .wrongKind

/-! ## Parts -/

/-- What one goes through when going through a value: the items of a list, a tuple or a set,
    the keys of a mapping, the characters of a text, the bytes as numbers. -/
def elements? : Value → Option (List Value)
  | .list items | .tuple items => some items
  | .set items => some (items.map .scalar)
  | .map entries => some (entries.map fun e => .scalar e.1)
  | .scalar (.text t) => some (t.map fun c => .text [c])
  | .scalar (.bytes bs) => some (bs.map fun b => .int b.toNat)
  | .scalar _ | .again _ | .tooDeep => none

end Value

/-! ## Text -/

namespace Text

/-- A byte as it stands between two marks `mark`. -/
def escapeByte (mark : Char) (b : UInt8) : Text :=
  let c := Char.ofNat b.toNat
  if c = mark || c = '\\' then ['\\', c]
  else if c = '\n' then ['\\', 'n']
  else if c = '\r' then ['\\', 'r']
  else if c = '\t' then ['\\', 't']
  else if 0x20 ≤ b && b < 0x7f then [c]
  else '\\' :: 'x' :: hexPadded 2 b.toNat

/-- Bytes between quotation marks. -/
def quotedBytes (bs : List UInt8) : Text :=
  let mark := quoteMark (bs.map fun b => Char.ofNat b.toNat)
  'b' :: mark :: bs.flatMap (escapeByte mark) ++ [mark]

end Text

/-- Why a value cannot be shown. -/
inductive Obstacle where
  /-- An integer has too many digits. -/
  | overlong
  /-- Its parts stand too deep. -/
  | tooDeep
  deriving DecidableEq, Repr

namespace Scalar

/-- A scalar as messages show it: texts between quotation marks. -/
def render : Scalar → Text
  | .null => "None"
  | .bool b => if b then "True" else "False"
  | .int n => Numeral.decimal n
  | .float x => x.render
  | .text t => Text.quoted t
  | .bytes bs => Text.quotedBytes bs
  | .moment m => m.render

/-- A scalar as the text it stands for. -/
def write : Scalar → Text
  | .text t => t
  | .moment m => m.write
  | s => s.render

/-- An integer is shown within the limit of digits. -/
def obstacle? : Scalar → Option Obstacle
  | .int n => if Numeral.isWritable n then none else some .overlong
  | _ => none

end Scalar

/-- The marks of a value that is seen again. -/
def Shape.render : Shape → Text
  | .list => "[...]"
  | .tuple => "(...)"
  | .map => "\x7b...\x7d"

namespace Value

/-- Texts with a comma and a blank between them. -/
def joined (ts : List Text) : Text := List.intercalate (", " : Text) ts

/-- What is shown of a tuple with these parts: a single one is followed by a comma. -/
def renderTuple : List Text → Text
  | [t] => '(' :: t ++ [',', ')']
  | ts => '(' :: joined ts ++ [')']

/-- What is shown of a set with these parts. -/
def renderSet : List Text → Text
  | [] => "set()"
  | ts => '\x7b' :: joined ts ++ ['\x7d']

mutual
/-- A value as messages show it: lists in square brackets, mappings in curly ones. -/
def render : Value → Text
  | .scalar s => s.render
  | .list items => '[' :: joined (renderItems items) ++ [']']
  | .tuple items => renderTuple (renderItems items)
  | .set items => renderSet (items.map Scalar.render)
  | .map entries => '\x7b' :: joined (renderEntries entries) ++ ['\x7d']
  | .again shape => shape.render
  | .tooDeep => []

def renderItems : List Value → List Text
  | [] => []
  | v :: rest => render v :: renderItems rest

def renderEntries : List (Scalar × Value) → List Text
  | [] => []
  | (k, v) :: rest => (k.render ++ (": " : Text) ++ render v) :: renderEntries rest
end

mutual
/-- Why the value cannot be shown, if so: the first reason that one comes to. -/
def obstacle? : Value → Option Obstacle
  | .scalar s => s.obstacle?
  | .list items | .tuple items => itemsObstacle? items
  | .set items => items.findSome? Scalar.obstacle?
  | .map entries => entriesObstacle? entries
  | .again _ => none
  | .tooDeep => some .tooDeep

def itemsObstacle? : List Value → Option Obstacle
  | [] => none
  | v :: rest => (obstacle? v).or (itemsObstacle? rest)

/-- An entry whose value stands too deep has a key that does, too. -/
def entriesObstacle? : List (Scalar × Value) → Option Obstacle
  | [] => none
  | (_, .tooDeep) :: _ => some .tooDeep
  | (k, v) :: rest => k.obstacle?.or ((obstacle? v).or (entriesObstacle? rest))
end

/-- The value can be shown. -/
def isWritable (v : Value) : Bool := v.obstacle?.isNone

/-- A text stands for itself, a moment for its words, any other value for what messages show. -/
def write : Value → Text
  | .scalar s => s.write
  | v => v.render

example : render (.list [.text "it's", .null, .bool true, .map [(.int 1, .list [])]])
    = "[\"it's\", None, True, \x7b1: []\x7d]".toList := by decide +kernel
example : render (.tuple [.set [], .scalar (.bytes [0x61, 0x0a, 0xff])])
    = "(set(), b'a\\n\\xff')".toList := by decide +kernel

end Value

end Tracewright
