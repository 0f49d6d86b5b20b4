/-
  Tracewright.Yaml.Fault

  Why a YAML document has no value.

    * `Fault`         — the ways in which a reader fails.
    * `Fault.failure` — the failure that a fault is where nothing is made of
                        it.

  Reference: `YAMLError`, and what else leaves `yaml.safe_load`.
-/
import Tracewright.Failure

namespace Tracewright.Yaml

/-- Why a document has no value.  Beside the text, the reader has to make numbers, dates and other
    values of it, and fails as that does. -/
inductive Fault where
  | os (fault : OsFault)
  /-- The bytes of the file are no UTF-8. -/
  | notUtf8
  /-- The text is no document, or not a single one. -/
  | malformed
  /-- A value in the text is out of range. -/
  | unreadable (fault : ValueFault)
  /-- A number in the text is too large for what it is used for. -/
  | tooLarge
  | wrongKind
  | noSuchKey
  | tooDeep
  | other (kind : Text)
  deriving Repr

/-- The failure that a fault is where nothing is made of it. -/
def Fault.failure : Fault → Failure
  | .os fault => .ofOs fault
  | .notUtf8 => .notUtf8
  | .malformed => .other "YAMLError"
  | .unreadable fault => .value fault
  | .tooLarge => .tooLarge
  | .wrongKind => .wrongKind
  | .noSuchKey => .noSuchKey
  | .tooDeep => .tooDeep
  | .other kind => .other kind

end Tracewright.Yaml
