/-
  Tracewright.Settings.Load

  Settings from files, and settings for a run.

    * `Settings.load` — lays the settings of a file over settings.
    * `Settings.mode` — the settings of one run of the generator.

  Reference: `Config.load_from_file` and `Config.to_capture_mode`.
-/
import Tracewright.Capture.Mode
import Tracewright.Settings.Basic
import Tracewright.Yaml.Platform

namespace Tracewright.Settings

/-! ## Files -/

/-- A file that is there but cannot be taken. -/
def unreadable {α : Type} (file : Text) (cause : Cause) : Run α := do
  Run.record Log.Level.error Log.Source.settings (("Failed to load config: " : Text) ++ cause.text)
  Run.fail (.config (.settingsUnreadable file cause))

/-- The document of a file.  A refusal of the system and a malformed text are faults in the
    settings. -/
def document (platform : Platform) (files : Files) (file : Text) : Run Document :=
  match platform.load files (Path.ofText file) with
  | .ok d => pure d
  | .error (.os .unnameable) => Run.fail (.value .unnameable)
  | .error (.os fault) => unreadable file (.os fault)
  | .error .malformed => unreadable file .malformed
  | .error fault => Run.fail fault.failure

/-- Takes up a document, and lays its mapping over the settings. -/
def lay (d : Document) : Action Settings Unit := fun s =>
  match s.memory.adopt d with
  | (memory, .ref layer) =>
    acting (Memory.mergeInto memory.depths.merging s.root layer) { s with memory := memory }
  | (memory, .scalar _) => (pure (), { s with memory := memory })

/-- Lays the document of a file over the settings; an empty one changes nothing. -/
def overlay (file : Text) (d : Document) : Action Settings Unit :=
  if d.root = .scalar .null then pure ()
  else if d.entries?.isSome then do
    lay d
    Run.record Log.Level.info Log.Source.settings (("Loaded configuration from " : Text) ++ file)
  else liftM (Run.fail (.config (.settingsNotMapping file)) : Run Unit)

/-- Lays the settings of a file over the settings; a file that is not there changes nothing. -/
def load (platform : Platform) (files : Files) (file : Text) : Action Settings Unit :=
  match files.probe (Path.ofText file) with
  | .error fault => liftM (Run.fail (.os fault) : Run Unit)
  | .ok none =>
    liftM (Run.record Log.Level.warning Log.Source.settings
      (("Config file not found: " : Text) ++ file ++ (", using defaults" : Text)))
  | .ok (some _) => do
    let d ← document platform files file
    overlay file d

/-! ## Modes -/

def integer (fault : Value → ConfigFault) (v : Value) : Run Int :=
  match v.toInt with
  | .ok n => pure n
  | .error .infinite => Run.fail .tooLarge
  | .error _ => Run.fail (.config (fault v))

/-- The process setting: a number that is not positive stands for none. -/
def pid (v : Value) : Run Value :=
  match v with
  | .null => pure .null
  | v => do
    let n ← integer .pidUnreadable v
    if n < 0 then
      let numeral ← Run.decimal n
      Run.record Log.Level.warning Log.Source.settings
        (("Ignoring negative pid " : Text) ++ numeral ++ (", excluding own pid instead" : Text))
    pure (if n ≤ 0 then .null else .int n)

def mode (s : Settings) : Run Mode := do
  let packets ← integer .packetsUnreadable (s.get "generator.string_packets" (.int 0))
  let pid ← pid (s.get "generator.pid" .null)
  let policy ← Run.ofCheck (ReadPolicy.parse (s.get "generator.string_read" (.text "fixed")))
  Run.ofCheck (Mode.ofDraft {
    fullFeature := .bool (s.get "generator.full_feature" (.bool false)).isTrue
    policy := .inl policy
    packets := .int packets
    expression := s.get "generator.expression" .null
    pid := pid })

end Tracewright.Settings
