/-
  Tracewright.Yaml.Document

  A reader of YAML documents.  It reads the part of the language that a file
  of settings or a syscall listing is usually written in: lists and mappings
  by indentation or between brackets, plain and quoted words, names for nodes
  and what they name.  A document with a tag or a block scalar is malformed
  to it.

    * `read`     — the document of a text.
    * `ofBytes`  — the document of the bytes of a file.
    * `platform` — a platform with this reader.

  Reference: `yaml.safe_load`.
-/
import Tracewright.Yaml.Graph
import Tracewright.Yaml.Intake

namespace Tracewright.Yaml

def read (x : Intake) : Except Fault Document :=
  match Node.ofTokens (Token.ofText x.text x.broken) with
  | .ok n => n.document
  | .error fault => .error fault

/-- The document of the bytes of a file. -/
def ofBytes (bytes : List UInt8) : Except Fault Document := read (Intake.ofBytes bytes)

/-- This reader, and a recursion that goes as deep as the usual limit lets it. -/
def platform : Platform where
  read := ofBytes
  depths := ⟨900, 900, by decide⟩

end Tracewright.Yaml
