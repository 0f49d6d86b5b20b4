/-
  Tracewright.Fragment.Source

  Where fragments come from, one at a time.  A source may be a directory as it
  is once and for all, or one that changes while its fragments are taken.

    * `Source`        — an index, and a way to take the fragment of a name.
    * `Source.load`   — a fragment without carriage returns.
    * `Store.source`  — the source that a directory is.

  Reference: `TemplateStore.load`, when the files change between two calls.
-/
import Tracewright.Fragment.Store

namespace Tracewright

/-- Where fragments come from. -/
structure Source (m : Type → Type) where
  index : Index
  /-- A fragment exactly as it is kept. -/
  loadVerbatim : Text → m Buffer

namespace Source

/-- A fragment without carriage returns. -/
def load {m : Type → Type} [Monad m] (s : Source m) (name : Text) : m Buffer := do
  let b ← s.loadVerbatim name
  pure { b with text := Store.dropReturns b.text }

/-- The same fragments, taken as steps of a larger kind. -/
def lift {m : Type → Type} [Performer m] (s : Source Run) : Source m where
  index := s.index
  loadVerbatim name := Performer.perform (s.loadVerbatim name)

end Source

def Store.source (s : Store) : Source Run where
  index := s.index
  loadVerbatim := s.loadVerbatim

end Tracewright
