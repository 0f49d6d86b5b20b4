/-
  Tracewright.Yaml.Platform

  What the program stands on and does not bring along.

    * `Platform`      — a reader of YAML documents, and how deep recursion
                        goes.
    * `Platform.load` — the document of a file.

  Reference: `yaml.safe_load` on a file that is open for reading.
-/
import Tracewright.Value.Memory
import Tracewright.Yaml.Fault

namespace Tracewright

/-- A reader of documents, from the bytes of a file, and how deep recursion goes. -/
structure Platform where
  read : List UInt8 → Except Yaml.Fault Document
  depths : Depths

namespace Platform

/-- The document of a file. -/
def load (p : Platform) (files : Files) (path : Path) : Except Yaml.Fault Document :=
  match files.read path with
  | .ok bytes => p.read bytes
  | .error fault => .error (.os fault)

end Platform

end Tracewright
