/-
  Tracewright.Yaml.Cursor

  A place in a YAML document, and the steps that read characters from there.

    * `Cursor.skip`   — over blanks, comments and line ends.
    * `Cursor.plain`  — a plain word, which may go on over several lines.
    * `Cursor.quoted` — a text between quotation marks.

  Lines that belong to one text are folded: a single line end becomes a
  blank, further ones stay.  A mark of byte order takes no column.

  Reference: `Reader` and the scalars of `Scanner` of the YAML reader.
-/
import Tracewright.Yaml.Fault

namespace Tracewright.Yaml

/-! ## Characters -/

def isBreak (c : Char) : Bool := c == '\n' || c == '\x85' || c == '\u2028' || c == '\u2029'

/-- A blank, a tab or a line end. -/
def isGap (c : Char) : Bool := c == ' ' || c == '\t' || isBreak c

/-- The next character, if there is one, is a blank or ends the line. -/
def gapNext : Text → Bool
  | [] => true
  | c :: _ => isGap c

/-- Three hyphens or three dots that stand alone: the marks between documents. -/
def isDocumentMark : Text → Bool
  | '-' :: '-' :: '-' :: rest => gapNext rest
  | '.' :: '.' :: '.' :: rest => gapNext rest
  | _ => false

def isFlowChar (c : Char) : Bool := c == ',' || c == '[' || c == ']' || c == '\x7b' || c == '\x7d'

/-- A character that may stand in a document. -/
def isDocumentChar (c : Char) : Bool :=
  let n := c.toNat
  n == 0x09 || n == 0x0a || n == 0x0d || (0x20 ≤ n && n ≤ 0x7e) || n == 0x85
    || (0xa0 ≤ n && n ≤ 0xd7ff) || (0xe000 ≤ n && n ≤ 0xfffd) || 0x10000 ≤ n

/-! ## Places -/

/-- A place in a document: what follows, and how far one has come. -/
structure Cursor where
  rest : Text
  column : Nat := 0
  line : Nat := 0
  index : Nat := 0
  deriving Repr

namespace Cursor

/-- The place after `c`, with `rest` to follow. -/
def after (at_ : Cursor) (c : Char) (rest : Text) : Cursor :=
  if isBreak c then ⟨rest, 0, at_.line + 1, at_.index + 1⟩
  else if c == '\ufeff' then ⟨rest, at_.column, at_.line, at_.index + 1⟩
  else ⟨rest, at_.column + 1, at_.line, at_.index + 1⟩

/-- The place `n` characters on in the same line. -/
def forward (at_ : Cursor) (n : Nat) : Cursor :=
  ⟨at_.rest.drop n, at_.column + n, at_.line, at_.index + n⟩

/-- A mark between documents stands here. -/
def atMark (at_ : Cursor) : Bool := at_.column == 0 && isDocumentMark at_.rest

/-- Goes over blanks, comments and line ends. -/
def skipLoop (at_ : Cursor) (inComment : Bool) : Text → Cursor
  | [] => { at_ with rest := [] }
  | c :: rest =>
    if isBreak c then skipLoop (at_.after c rest) false rest
    else if inComment || c == ' ' then skipLoop (at_.after c rest) inComment rest
    else if c == '#' then skipLoop (at_.after c rest) true rest
    else { at_ with rest := c :: rest }

/-- The next place that is neither blank nor in a comment. -/
def skip (at_ : Cursor) : Cursor := at_.skipLoop false at_.rest

/-- The character stands here. -/
def isAt (at_ : Cursor) (c : Char) : Bool := at_.rest.head? == some c
end Cursor

/-! ## Folding -/

/-- What stands between two words of a text, last character first. -/
inductive Gap where
  | none
  | blanks (chars : Text)
  /-- Line ends; the first of them folds unless it was escaped. -/
  | lines (first : Option Char) (others : Text)

namespace Gap

/-- What the gap says in the text, last character first. -/
def reversed : Gap → Text
  | .none => []
  | .blanks chars => chars
  | .lines (some '\n') [] => [' ']
  | .lines (some '\n') others => others
  | .lines (some c) others => others ++ [c]
  | .lines .none others => others

/-- A line end as the text holds it. -/
def breakChar (c : Char) : Char := if c = '\x85' then '\n' else c

/-- The gap goes on with a blank, a tab or a line end. -/
def add (g : Gap) (c : Char) : Gap :=
  match g with
  | .lines first others => if isBreak c then .lines first (breakChar c :: others) else g
  | .blanks chars => if isBreak c then .lines (some (breakChar c)) [] else .blanks (c :: chars)
  | .none => if isBreak c then .lines (some (breakChar c)) [] else .blanks [c]

/-- The gap goes over a line end. -/
def isLines : Gap → Bool
  | .lines _ _ => true
  | _ => false

end Gap

/-! ## Plain words -/

/-- A plain word may start with `c` before `rest`. -/
def startsPlain (flow : Bool) (c : Char) (rest : Text) : Bool :=
  if c == '-' then !gapNext rest
  else if c == '?' || c == ':' then !flow && !gapNext rest
  else !isGap c && !isFlowChar c && !("#&*!|>'\"%@\x60".toList.contains c)

/-- A plain word ends before `c` and `rest`. -/
def endsPlain (flow : Bool) (c : Char) (rest : Text) : Bool :=
  (c == ':' && (gapNext rest || (flow && rest.head?.any isFlowChar)))
    || (flow && (c == '?' || isFlowChar c))

namespace Cursor

/-- Reads on in a plain word: `word` is what has been read, last character first, and `gap`
    what has been passed since.  The word goes on in a later line from column `least` on. -/
def plainLoop (flow : Bool) (least : Nat) (word : Text) (gap : Gap) (at_ : Cursor) :
    Text → Text × Bool × Cursor
  | [] => (word.reverse, gap.isLines, at_)
  | c :: rest =>
    let next := at_.after c rest
    if isGap c then
      if c == '\t' then (word.reverse, gap.isLines, at_)
      else if isBreak c && isDocumentMark rest then (word.reverse, true, next)
      else plainLoop flow least word (gap.add c) next rest
    else
      match gap with
      | .none =>
        if endsPlain flow c rest then (word.reverse, false, at_)
        else plainLoop flow least (c :: word) .none next rest
      | _ =>
        if c == '#' || endsPlain flow c rest || (!flow && at_.column < least) then
          (word.reverse, gap.isLines, at_)
        else plainLoop flow least (c :: (gap.reversed ++ word)) .none next rest

/-- The plain word that starts here, whether a line ends after it, and the place after the
    gap that follows it. -/
def plain (flow : Bool) (least : Nat) (at_ : Cursor) : Text × Bool × Cursor :=
  plainLoop flow least [] .none at_ at_.rest

/-! ## Quoted texts -/

/-- The character of an escape that needs no number. -/
def escape? : Char → Option Char
  | '0' => some '\x00'
  | 'a' => some '\x07'
  | 'b' => some '\x08'
  | 't' | '\t' => some '\t'
  | 'n' => some '\n'
  | 'v' => some '\x0b'
  | 'f' => some '\x0c'
  | 'r' => some '\r'
  | 'e' => some '\x1b'
  | ' ' => some ' '
  | '"' => some '"'
  | '\\' => some '\\'
  | '/' => some '/'
  | 'N' => some '\x85'
  | '_' => some '\xa0'
  | 'L' => some '\u2028'
  | 'P' => some '\u2029'
  | _ => none

/-- The number of hexadecimal digits of an escape. -/
def escapeWidth? : Char → Option Nat
  | 'x' => some 2
  | 'u' => some 4
  | 'U' => some 8
  | _ => none

def hexDigit? (c : Char) : Option Nat :=
  let n := c.toNat
  if c.isDigit then some (n - 0x30)
  else if 0x61 ≤ n && n ≤ 0x66 then some (n - 0x61 + 10)
  else if 0x41 ≤ n && n ≤ 0x46 then some (n - 0x41 + 10)
  else none

/-- The character of a code point: one beyond the last is out of range, and a number that
    takes 32 bits is too large.  Half a pair of surrogates is no character. -/
def charOf (n : Nat) : Except Fault Char :=
  if h : n.isValidChar then .ok (Char.ofNatAux n h)
  else if 0x80000000 ≤ n then .error .tooLarge
  else if 0x110000 ≤ n then .error (.unreadable .noCharacter)
  else .error .malformed

/-- The number is the first half of a pair of surrogates. -/
def isHighHalf (n : Nat) : Bool := 0xd800 ≤ n && n < 0xdc00

/-- The character of a pair of surrogates. -/
def charOfPair (high low : Nat) : Except Fault Char :=
  if 0xdc00 ≤ low && low < 0xe000 then
    charOf (0x10000 + 0x400 * (high - 0xd800) + (low - 0xdc00))
  else .error .malformed

/-- Where one is in a quoted text. -/
inductive QuotedState where
  | inside
  /-- After a single quotation mark, which may be the first of two. -/
  | mark
  | escape
  /-- Before the last digits of an escape, which may be the second of a pair. -/
  | hex (high : Option Nat) (missing value : Nat)
  /-- After the first escape of a pair. -/
  | pair (high : Nat)
  /-- After the backslash of the second escape of a pair. -/
  | pairEscape (high : Nat)

/-- Reads on in a quoted text, as `plainLoop` does in a word; `unclosed` says what the end of
    the text is when it comes first. -/
def quotedLoop (unclosed : Fault) (double : Bool) (state : QuotedState) (text : Text) (gap : Gap)
    (at_ : Cursor) : Text → Except Fault (Text × Cursor)
  | [] =>
    match state with
    | .mark => .ok ((gap.reversed ++ text).reverse, { at_ with rest := [] })
    | _ => .error unclosed
  | c :: rest =>
    let next := at_.after c rest
    let full := gap.reversed ++ text
    match state with
    | .mark =>
      if c == '\'' then quotedLoop unclosed double .inside ('\'' :: full) .none next rest
      else .ok (full.reverse, { at_ with rest := c :: rest })
    | .escape =>
      if isBreak c then
        if isDocumentMark rest then .error .malformed
        else quotedLoop unclosed double .inside full (.lines none []) next rest
      else match escape? c, escapeWidth? c with
        | some e, _ => quotedLoop unclosed double .inside (e :: full) .none next rest
        | none, some width => quotedLoop unclosed double (.hex none width 0) full .none next rest
        | none, none => .error .malformed
    | .hex high missing value =>
      match hexDigit? c with
      | none => .error .malformed
      | some d =>
        let n := 16 * value + d
        if 1 < missing then
          quotedLoop unclosed double (.hex high (missing - 1) n) text .none next rest
        else if high.isNone && isHighHalf n then
          quotedLoop unclosed double (.pair n) text .none next rest
        else match high.elim (charOf n) (charOfPair · n) with
          | .ok e => quotedLoop unclosed double .inside (e :: text) .none next rest
          | .error fault => .error fault
    | .pair high =>
      if c == '\\' then quotedLoop unclosed double (.pairEscape high) text .none next rest
      else .error .malformed
    | .pairEscape high =>
      match escapeWidth? c with
      | some width => quotedLoop unclosed double (.hex (some high) width 0) text .none next rest
      | none => .error .malformed
    | .inside =>
      if isGap c then
        if isBreak c && isDocumentMark rest then .error .malformed
        else quotedLoop unclosed double .inside text (gap.add c) next rest
      else if double && c == '\\' then quotedLoop unclosed double .escape text gap next rest
      else if double && c == '"' then .ok (full.reverse, next)
      else if !double && c == '\'' then quotedLoop unclosed double .mark text gap next rest
      else quotedLoop unclosed double .inside (c :: full) .none next rest

/-- The text between the quotation mark that stands here and its partner. -/
def quoted (unclosed : Fault) (at_ : Cursor) : Except Fault (Text × Cursor) :=
  match at_.rest with
  | '"' :: rest => quotedLoop unclosed true .inside [] .none (at_.after '"' rest) rest
  | '\'' :: rest => quotedLoop unclosed false .inside [] .none (at_.after '\'' rest) rest
  | _ => .error .malformed

end Cursor

end Tracewright.Yaml
