/-
  Tracewright.Yaml.Token

  The parts of a YAML document, in the order of its text.

    * `Token`          — a word, a mark, or the start or end of a collection.
    * `Scanner`        — how far a text has been read: the columns of its open
                         blocks, and where a key may have started.
    * `Token.ofText`   — the tokens of a text.

  A block starts where the column grows and ends where it shrinks.  A key is
  told by the colon after it, which stands in the same line at most 1024
  characters on; a list item or a key in a block starts a line, or follows a
  hyphen or a question mark.  As long as a key may have started, the tokens
  from there on are withheld: a fault that stops the reading hides them.

  Reference: `Scanner` of the YAML reader, without tags and block scalars: a
  document with one of these is taken for malformed.
-/
import Tracewright.Yaml.Cursor

namespace Tracewright.Yaml

/-! ## Tokens -/

/-- A node without parts. -/
inductive Leaf where
  | empty
  | plain (word : Text)
  | quoted (text : Text)
  deriving Repr

/-- A part of a document. -/
inductive Token where
  | leaf (content : Leaf)
  /-- A line about the document; one that names a version says which. -/
  | directive (version : Option Nat)
  | documentStart
  | documentEnd
  | textEnd
  /-- A list or a mapping by indentation starts. -/
  | listStart
  | mapStart
  | blockEnd
  | bracketOpen
  | bracketClose
  | braceOpen
  | braceClose
  | comma
  | item
  | key
  | value
  /-- A name for the node that follows. -/
  | anchor (name : Text)
  /-- The node that has a name. -/
  | alias (name : Text)
  /-- The text cannot be read any further. -/
  | fault (reason : Fault)
  deriving Repr

/-! ## Directives -/

/-- A character of the name of a directive. -/
def isNameChar (c : Char) : Bool := c.isAlphanum || c == '-' || c == '_'

namespace Cursor

/-- A blank, the end of the line or the end of the text is here. -/
def atWordEnd (at_ : Cursor) : Bool :=
  match at_.rest with
  | [] => true
  | c :: _ => c == ' ' || isBreak c

def nextLine (at_ : Cursor) : Cursor :=
  let stop := at_.forward (at_.rest.takeWhile (!isBreak ·)).length
  match stop.rest with
  | c :: rest => stop.after c rest
  | [] => stop

/-- The number that starts here, and the place after it. -/
def number? (at_ : Cursor) : Option (Nat × Cursor) :=
  let ds := at_.rest.takeWhile Char.isDigit
  if ds.isEmpty then none
  else some (Numeral.ofDigits (ds.map fun c => c.toNat - 0x30), at_.forward ds.length)

def skipBlanks (at_ : Cursor) : Cursor := at_.forward (at_.rest.takeWhile (· == ' ')).length

/-- A version of two numbers, to the end of the line; the first one counts. -/
def version? (at_ : Cursor) : Option (Nat × Cursor) := do
  let (major, point) ← at_.skipBlanks.number?
  let (_, stop) ← if point.isAt '.' then (point.forward 1).number? else none
  let rest := stop.skipBlanks
  if stop.atWordEnd && (rest.isAt '#' || rest.rest.head?.all isBreak) then
    some (major, stop.nextLine)
  else none

/-- The version that the directive after the percent sign here names, if it names one, and
    the next line. -/
def directive? (at_ : Cursor) : Option (Option Nat × Cursor) :=
  let name := (at_.rest.drop 1).takeWhile isNameChar
  let stop := at_.forward (1 + name.length)
  if name.isEmpty || !stop.atWordEnd then none
  else if name = "YAML" then stop.version?.map fun (v, next) => (some v, next)
  else some (none, stop.nextLine)

end Cursor

/-! ## Scanning -/

/-- A place where a key may have started. -/
structure Candidate where
  /-- The number of tokens before it. -/
  position : Nat
  /-- In the column of a mapping nothing but a key may stand. -/
  required : Bool
  line : Nat
  column : Nat
  index : Nat

/-- The greatest distance from a key to its colon. -/
def keyLimit : Nat := 1024

/-- No colon may follow any more. -/
def Candidate.isStale (k : Candidate) (here : Cursor) : Bool :=
  here.line != k.line || keyLimit < here.index - k.index

/-- How far a text has been read. -/
structure Scanner where
  here : Cursor
  /-- What stops the reading at the end of the text, if that is not the end of the document. -/
  broken : Option Fault
  /-- The tokens so far, the last one first. -/
  tokens : List Token := []
  count : Nat := 0
  /-- The columns of the open blocks, the innermost first. -/
  columns : List Nat := []
  /-- A key or an item of a list may start here. -/
  fresh : Bool := true
  /-- The key that may have started inside the innermost brackets. -/
  candidate : Option Candidate := none
  /-- The same for the brackets around them; the last one is outside all brackets. -/
  outer : List (Option Candidate) := []

namespace Scanner

/-- Inside brackets or braces. -/
def inFlow (s : Scanner) : Bool := !s.outer.isEmpty

/-- The column of the innermost block; -1 outside all blocks. -/
def indent (s : Scanner) : Int :=
  match s.columns with
  | [] => -1
  | c :: _ => c

def emit (s : Scanner) (t : Token) : Scanner :=
  { s with tokens := t :: s.tokens, count := s.count + 1 }

/-- Adds tokens before those from `position` on. -/
def insert (s : Scanner) (position : Nat) (ts : List Token) : Scanner :=
  let later := s.count - position
  { s with
    tokens := s.tokens.take later ++ (ts.reverse ++ s.tokens.drop later)
    count := s.count + ts.length }

def goTo (s : Scanner) (here : Cursor) (fresh : Bool) : Scanner := { s with here, fresh }

/-- The key that may have started here, unless it is stale; a required one must not be. -/
def settle (here : Cursor) : Option Candidate → Except Fault (Option Candidate)
  | none => .ok none
  | some k =>
    if !k.isStale here then .ok (some k)
    else if k.required then .error .malformed
    else .ok none

/-- Gives up the keys that are stale. -/
def dropStale (s : Scanner) : Except Fault Scanner := do
  let candidate ← settle s.here s.candidate
  let outer ← s.outer.mapM (settle s.here)
  pure { s with candidate, outer }

/-- Gives up the key inside the innermost brackets. -/
def forget (s : Scanner) : Except Fault Scanner :=
  if s.candidate.any Candidate.required then .error .malformed
  else .ok { s with candidate := none }

/-- The next token may be a key. -/
def offer (s : Scanner) : Except Fault Scanner :=
  if s.fresh then do
    let s ← s.forget
    pure { s with candidate := some {
      position := s.count
      required := !s.inFlow && s.indent == s.here.column
      line := s.here.line
      column := s.here.column
      index := s.here.index } }
  else .ok s

/-- Ends the blocks whose column is greater than `column`. -/
def unwind (s : Scanner) (column : Int) : Scanner :=
  if s.inFlow then s
  else
    let columns := s.columns.dropWhile fun (c : Nat) => column < c
    let ended := s.columns.length - columns.length
    { s with
      columns
      tokens := List.replicate ended .blockEnd ++ s.tokens
      count := s.count + ended }

/-- The columns with a new block at `column`, if that is greater than the innermost one. -/
def deeper? (s : Scanner) (column : Nat) : Option (List Nat) :=
  if !s.inFlow && s.indent < column then some (column :: s.columns) else none

/-- Starts a block here unless one is open in this column. -/
def startBlock (s : Scanner) (t : Token) : Scanner :=
  match s.deeper? s.here.column with
  | some columns => { s.emit t with columns }
  | none => s

/-! ### The kinds of tokens -/

def atTextEnd (s : Scanner) : Except Fault Scanner := do
  let s ← (s.unwind (-1)).forget
  pure (s.emit .textEnd)

/-- A line about the document. -/
def atDirective (s : Scanner) : Except Fault Scanner := do
  let s ← (s.unwind (-1)).forget
  match s.here.directive? with
  | some (version, next) => pure ((s.emit (.directive version)).goTo next false)
  | none => .error .malformed

/-- A mark between documents. -/
def atDocumentMark (s : Scanner) (t : Token) : Except Fault Scanner := do
  let s ← (s.unwind (-1)).forget
  pure ((s.emit t).goTo (s.here.forward 3) false)

def atOpening (s : Scanner) (t : Token) : Except Fault Scanner := do
  let s ← s.offer
  pure { (s.emit t).goTo (s.here.forward 1) true with
    candidate := none
    outer := s.candidate :: s.outer }

/-- A closing bracket or brace that has a partner, whichever it is. -/
def atClosing (s : Scanner) (t : Token) (candidate : Option Candidate)
    (outer : List (Option Candidate)) : Except Fault Scanner := do
  let s ← s.forget
  pure { (s.emit t).goTo (s.here.forward 1) false with candidate, outer }

/-- A comma between brackets or outside them. -/
def atComma (s : Scanner) : Except Fault Scanner := do
  let s ← s.forget
  pure ((s.emit .comma).goTo (s.here.forward 1) true)

def atItem (s : Scanner) : Except Fault Scanner := do
  if !s.inFlow && !s.fresh then .error .malformed
  else
    let s ← (s.startBlock .listStart).forget
    pure ((s.emit .item).goTo (s.here.forward 1) true)

def atKey (s : Scanner) : Except Fault Scanner := do
  if !s.inFlow && !s.fresh then .error .malformed
  else
    let s ← (s.startBlock .mapStart).forget
    pure ((s.emit .key).goTo (s.here.forward 1) (!s.inFlow))

/-- The colon of a value: what may have been a key is one now. -/
def atValue (s : Scanner) : Except Fault Scanner := do
  match s.candidate with
  | some k =>
    let s := { s with candidate := none }
    let s := match s.deeper? k.column with
      | some columns => { s.insert k.position [.mapStart, .key] with columns }
      | none => s.insert k.position [.key]
    pure ((s.emit .value).goTo (s.here.forward 1) false)
  | none =>
    if !s.inFlow && !s.fresh then .error .malformed
    else
      let s := s.startBlock .mapStart
      pure ((s.emit .value).goTo (s.here.forward 1) (!s.inFlow))

def atQuoted (s : Scanner) : Except Fault Scanner := do
  let s ← s.offer
  let (t, stop) ← s.here.quoted (s.broken.getD .malformed)
  pure ((s.emit (.leaf (.quoted t))).goTo stop false)

/-- A plain word; after it a key may start if it ended its line. -/
def atPlain (s : Scanner) : Except Fault Scanner := do
  let s ← s.offer
  let (t, endsLine, stop) := s.here.plain s.inFlow (s.indent + 1).toNat
  pure ((s.emit (.leaf (.plain t))).goTo stop endsLine)

/-- A name, and the token that it makes: of a node that follows, or of one that has it. -/
def atName (s : Scanner) (token : Text → Token) : Except Fault Scanner := do
  let s ← s.offer
  let name := (s.here.rest.drop 1).takeWhile isNameChar
  let stop := s.here.forward (1 + name.length)
  let isEnd := fun c => isGap c || "?:,]\x7d%@\x60".toList.contains c
  if !name.isEmpty && stop.rest.head?.all isEnd then
    pure ((s.emit (token name)).goTo stop false)
  else .error .malformed

/-- The token that starts here with `c`. -/
def atChar (s : Scanner) (c : Char) (rest : Text) : Except Fault Scanner :=
  let alone := s.inFlow || gapNext rest
  if c == '%' && s.here.column == 0 then s.atDirective
  else if s.here.atMark then s.atDocumentMark (if c == '-' then .documentStart else .documentEnd)
  else if c == '[' then s.atOpening .bracketOpen
  else if c == '\x7b' then s.atOpening .braceOpen
  else if c == ']' || c == '\x7d' then
    match s.outer with
    | [] => .error .malformed
    | k :: ks => s.atClosing (if c == ']' then .bracketClose else .braceClose) k ks
  else if c == ',' then s.atComma
  else if c == '-' && gapNext rest then s.atItem
  else if c == '?' && alone then s.atKey
  else if c == ':' && alone then s.atValue
  else if c == '&' then s.atName .anchor
  else if c == '*' then s.atName .alias
  else if c == '"' || c == '\'' then s.atQuoted
  else if startsPlain s.inFlow c rest then s.atPlain
  else .error .malformed

def next (s : Scanner) : Except Fault Scanner :=
  let here := s.here.skip
  let s := s.goTo here (s.fresh || (!s.inFlow && here.line != s.here.line))
  match here.rest, s.broken with
  | [], some fault => .error fault
  | [], none => do (← s.dropStale).atTextEnd
  | c :: rest, _ => do ((← s.dropStale).unwind here.column).atChar c rest

/-- The tokens that are certain when a fault stops the reading, and the fault. -/
def stop (s : Scanner) (fault : Fault) : List Token :=
  let open_ := (s.candidate :: s.outer).filterMap fun k? => k?.filter fun k => !k.isStale s.here
  let certain := open_.foldl (fun n k => min n k.position) s.count
  (Token.fault fault :: s.tokens.drop (s.count - certain)).reverse

def isDone (s : Scanner) : Bool := s.tokens.head? matches some .textEnd

/-- Reads on to the end of the text; `fuel` bounds the number of tokens. -/
def run (fuel : Nat) (s : Scanner) : List Token :=
  match fuel with
  | 0 => s.stop .malformed
  | fuel + 1 =>
    if s.isDone then s.tokens.reverse
    else match s.next with
      | .ok s => run fuel s
      | .error fault => s.stop fault

end Scanner

/-- The text without a mark of byte order. -/
def dropOrderMark : Text → Text
  | '\ufeff' :: t => t
  | t => t

/-- The tokens of a text; `broken` is what stops the reading at its end, if the document goes
    on there. -/
def Token.ofText (t : Text) (broken : Option Fault) : List Token :=
  Scanner.run (t.length + 2) { here := { rest := dropOrderMark t }, broken }

end Tracewright.Yaml
