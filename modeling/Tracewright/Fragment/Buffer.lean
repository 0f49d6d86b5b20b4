/-
  Tracewright.Fragment.Buffer

  A text that is being filled in, and the name it goes by in the log.

    * `replaceFirst` — puts a text in the first place of a word.
    * `replaceAll`   — puts a text in every place of a word, and counts them.
    * `repeatBlock`  — puts copies of a block in the first place of a word.
    * `putChar`      — puts one character in the first place of a word.

  A word that has no place is a failure, except for `replaceAll`.  A step that
  fails yields no buffer; the one it was given stays as it is.

  Reference: `TemplateBuffer`, with `replace_first`, `replace_all`,
  `replace_with_repeated_block` and `replace_with_char`.
-/
import Tracewright.Fragment.Marker
import Tracewright.Run

namespace Tracewright

/-- A text that is being filled in. -/
structure Buffer where
  text : Text
  name : Text := "<memory>"
  deriving DecidableEq, Repr

namespace Buffer

/-- The word has no place in the buffer. -/
def missing {α : Type} (b : Buffer) (word : Text) : Run α := do
  Run.record Log.Level.debug Log.Source.substitution
    (("Token " : Text) ++ Text.quoted word ++ (" not found in " : Text) ++ b.name)
  Run.fail (.markerMissing word)

/-- Puts a text in the first place of a word. -/
def replaceFirst (b : Buffer) (word r : Text) : Run Buffer :=
  match Text.replaceFirst? word r b.text with
  | some t => pure { b with text := t }
  | none => b.missing word

/-- Puts a text in every place of a word. -/
def replaceAll (b : Buffer) (word r : Text) : Buffer :=
  { b with text := Text.replaceAll word r b.text }

/-- The number from which on counts and lengths are too large. -/
def sizeBound : Nat := Nat.pow 2 63

/-- The length from which on there is no memory for the copies of a block. -/
def memoryBound : Nat := Nat.pow 2 40

/-- Puts `count` copies of a block in the first place of a word. -/
def repeatBlock (b : Buffer) (word block : Text) (count : Int) : Run Buffer :=
  if count < 0 then Run.fail (.value (.negativeRepeat (.int count)))
  else if sizeBound ≤ count.toNat ∨ sizeBound ≤ count.toNat * block.length then
    Run.fail .tooLarge
  else if memoryBound ≤ count.toNat * block.length then Run.fail .outOfMemory
  else match Text.cut? word b.text with
    | some (before, after) =>
      pure { b with text := before ++ Text.copies count.toNat block ++ after }
    | none => b.missing word

/-! ## Values in a text -/

/-- Puts a value in the first place of a word; only a text can stand there. -/
def replaceFirstBy (b : Buffer) (word : Text) (v : Value) : Run Buffer :=
  match v with
  | .text r => b.replaceFirst word r
  | _ => do
    let _ ← b.replaceFirst word []
    Run.fail .wrongKind

/-- Puts a value in every place of a word; only a text can stand there. -/
def replaceAllBy (b : Buffer) (word : Text) (v : Value) : Run Buffer :=
  match v with
  | .text r => pure (b.replaceAll word r)
  | _ => if Text.countWord word b.text = 0 then pure b else Run.fail .wrongKind

/-- Puts copies of a block in the first place of a word; only an integer or a truth value
    says how many. -/
def repeatBlockBy (b : Buffer) (word block : Text) (count : Value) : Run Buffer :=
  match count with
  | .int n => b.repeatBlock word block n
  | .bool one => b.repeatBlock word block (if one then 1 else 0)
  | .float x =>
    if x.lessThanNat 0 then Run.fail (.value (.negativeRepeat count)) else Run.fail .wrongKind
  | _ => Run.fail .wrongKind

/-- The number of parts of a value, if it has any. -/
def size? : Value → Option Nat
  | .text t => some t.length
  | .scalar (.bytes bs) => some bs.length
  | .list items | .tuple items => some items.length
  | .set items => some items.length
  | .map entries => some entries.length
  | _ => none

/-- Puts one character in the first place of a word: the character of a text of length
    one, or the digit of an integer.  A truth value counts by its word, which is too long. -/
def putChar (b : Buffer) (word : Text) (v : Value) : Run Buffer :=
  match v with
  | .int n =>
    if 0 ≤ n ∧ n ≤ 9 then b.replaceFirst word (Numeral.decimal n)
    else Run.fail (.value (.notOneDigit n))
  | .bool _ => Run.fail (.value (.notOneCharacter (.text v.render)))
  | v =>
    match size? v with
    | some 1 => b.replaceFirstBy word v
    | some _ => Run.fail (.value (.notOneCharacter v))
    | none => Run.fail .wrongKind

end Buffer

end Tracewright
