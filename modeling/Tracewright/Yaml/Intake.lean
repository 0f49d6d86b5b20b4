/-
  Tracewright.Yaml.Intake

  The text of a document as it comes in from the bytes of a file.

    * `Intake`          — the text that has come in, and what keeps the rest
                          away.
    * `Intake.ofBytes`  — what comes in.

  Bytes are decoded 8192 at a time and handed on in blocks of 4096 characters,
  the first two blocks at once.  Bytes that are no UTF-8 keep away the block
  that needs them, a character that may not stand in a document the block that
  holds it: what comes before is read first and may be at fault itself.

  Reference: `Reader` of the YAML reader, on a file that is open as text.
-/
import Tracewright.Text.Utf8
import Tracewright.Yaml.Cursor

namespace Tracewright.Yaml

/-- A text, and what keeps away what follows it. -/
structure Intake where
  text : Text
  broken : Option Fault := none

namespace Intake

/-- The number of bytes that are decoded at a time. -/
def byteBlock : Nat := 8192

/-- The number of characters of a block. -/
def charBlock : Nat := 4096

/-- The first `n` blocks of a text; the first one does not come alone. -/
def blocks (n : Nat) (t : Text) : Text := if n < 2 then [] else t.take (charBlock * n)

/-- The bytes start a sequence that further bytes would complete. -/
def isCutShort (bytes : List UInt8) : Bool :=
  [(1, 0x80), (1, 0xbf), (2, 0x80), (2, 0xbf), (3, 0x80), (3, 0xbf)].any
    fun (count, b) => (Text.Utf8.decode? (bytes ++ List.replicate count b)).isSome

/-- The text of bytes, of which the last sequence may be cut short. -/
def decodeCut? (bytes : List UInt8) : Option Text :=
  (List.range 4).findSome? fun k =>
    let (whole, tail) := bytes.splitAt (bytes.length - k)
    if tail.isEmpty || isCutShort tail then Text.Utf8.decode? whole else none

/-- The text up to the first bytes that are no UTF-8, as far as it is decoded. -/
def decodable (bytes : List UInt8) : Text :=
  let cuts := (List.range (bytes.length / byteBlock + 2)).map fun n => bytes.take (byteBlock * n)
  (cuts.filterMap decodeCut?).getLast?.getD []

/-- What comes in of bytes, whichever characters they stand for. -/
def decode (bytes : List UInt8) : Intake :=
  match Text.Utf8.decode? bytes with
  | some t => { text := Text.unifyLines t }
  | none =>
    let t := Text.unifyLines (decodable bytes)
    { text := blocks (t.length / charBlock) t, broken := some .notUtf8 }

/-- The text up to the first block with a character that may not stand in a document. -/
def printable (x : Intake) : Intake :=
  match x.text.findIdx? (!isDocumentChar ·) with
  | some i => { text := blocks (i / charBlock) x.text, broken := some .malformed }
  | none => x

/-- What comes in of the bytes of a file. -/
def ofBytes (bytes : List UInt8) : Intake := (decode bytes).printable

end Intake

end Tracewright.Yaml
