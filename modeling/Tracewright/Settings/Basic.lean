/-
  Tracewright.Settings.Basic

  Settings: a mapping of a memory, with mappings within it and values at the
  ends.  A path of names leads to a value.  Settings change in place, and so
  does everything else that holds what is changed.

    * `Settings.usualObjects` — the settings that hold where nothing else is
                                said; they are there once and for all.
    * `Settings.fresh`        — settings of one's own: a copy of them.
    * `Settings.get`          — the value at a path.
    * `Settings.assign`       — puts a value at a path; mappings that are
                                missing on the way are made, anything else on
                                the way is a failure.
    * `Memory.mergeInto`      — lays one mapping over another.

  Reference: `Config`, with `DEFAULT_CONFIG`, `__init__`, `get`, `set` and
  `_merge_config`.
-/
import Tracewright.Run
import Tracewright.Value.Memory

namespace Tracewright

namespace Memory

/-! ## Names -/

/-- Puts an item under a name; only a mapping takes one. -/
def putUnder (at_ : Item) (k : Text) (x : Item) : Action Memory Unit := fun m =>
  match at_, m.mapping? at_ with
  | .ref r, some _ => (pure (), m.putAt r (.text k) x)
  | _, _ => (Run.fail .wrongKind, m)

/-- Goes on to what stands under a name.  Where a mapping has nothing there, it gets a mapping;
    in anything else one cannot go on. -/
def enter (at_ : Item) (k : Text) : Action Memory Item := fun m =>
  match at_, m.mapping? at_ with
  | .ref r, some entries =>
    match entries.getText? k with
    | some i => (pure i, m)
    | none =>
      let made := m.objects.length
      (pure (.ref made), (m.make (.map [])).putAt r (.text k) (.ref made))
  | _, _ => (Run.fail .wrongKind, m)

/-- Walks along names from mapping to mapping, and puts an item under the last name. -/
def assignAt (x : Item) (at_ : Item) : List Text → Action Memory Unit
  | [] => liftM (Run.fail .wrongKind : Run Unit)
  | [k] => putUnder at_ k x
  | k :: ks => do
    let below ← enter at_ k
    assignAt x below ks

/-! ## Merging -/

/-- The entries of the mapping at `r`. -/
def entriesAt (m : Memory) (r : Nat) : Mapping Item := (m.mapping? (.ref r)).getD []

/-- One who goes through a mapping of `size` entries finds as many each time; otherwise it has
    changed meanwhile. -/
def checkSize (r size : Nat) : Action Memory Unit := fun m =>
  if (m.entriesAt r).length = size then (pure (), m) else (Run.fail .changed, m)

/-- Goes through the places of a mapping, and takes a step for the entry that is there then. -/
def goThrough (r size : Nat) (step : Scalar → Item → Action Memory Unit) :
    List Nat → Action Memory Unit
  | [] => checkSize r size
  | place :: places => do
    checkSize r size
    let entry ← Action.look fun m => (m.entriesAt r)[place]?
    match entry with
    | some (k, v) => step k v
    | none => pure ()
    goThrough r size step places

/-- Puts an item under a key, or lays it over the mapping that is there if it is one, too. -/
def mergeEntry (merge : Nat → Nat → Action Memory Unit) (base : Nat) (k : Scalar) (v : Item) :
    Action Memory Unit := fun m =>
  match (m.entriesAt base).get? k, v with
  | some (.ref below), .ref layer =>
    if (m.mapping? (.ref below)).isSome && (m.mapping? (.ref layer)).isSome then
      merge below layer m
    else (pure (), m.putAt base k v)
  | _, _ => (pure (), m.putAt base k v)

/-- Lays the mapping at `layer` over the one at `base`: mappings go into mappings, everything
    else takes the place of what was there.  `depth` is how deep one may still go. -/
def mergeInto (depth : Nat) (base layer : Nat) : Action Memory Unit :=
  match depth with
  | 0 => liftM (Run.fail .tooDeep : Run Unit)
  | depth + 1 => do
    let size ← Action.look fun m => (m.entriesAt layer).length
    goThrough layer size (mergeEntry (mergeInto depth) base) (List.range size)

end Memory

/-- Settings: all objects there are, and the mapping that holds the settings. -/
structure Settings where
  memory : Memory
  root : Nat
  deriving Repr

namespace Settings

/-! ## The usual settings -/

def group (entries : List (String × Scalar)) : Object :=
  .map (entries.map fun e => (.text e.1, .scalar e.2))

/-- The settings that hold where nothing else is said: a mapping, and its sections. -/
def usualObjects : List Object := [
  .map [(.text "generator", .ref 1), (.text "templates", .ref 2), (.text "catalog", .ref 3),
    (.text "output", .ref 4)],
  group [
    ("expression", .text "all"),
    ("full_feature", .bool false),
    ("string_read", .text "fixed"),
    ("string_packets", .int 2),
    ("pid", .null)],
  group [("dir", .null)],
  group [("file", .null)],
  group [("file", .null), ("debug_marks", .bool false)]]

/-- The memory of a program that has not done anything yet. -/
def memoryAtStart (depths : Depths) : Memory := ⟨usualObjects, depths⟩

/-- Settings of one's own: copies of the first objects of a memory, which are the usual
    settings. -/
def fresh (m : Memory) : Settings where
  memory := m.append (m.objects.take usualObjects.length)
  root := m.objects.length

/-- The first settings of a program. -/
def usual (depths : Depths) : Settings := fresh (memoryAtStart depths)

/-! ## Values -/

/-- The names of a path, between its dots. -/
def path (key : Text) : List Text := Text.split ['.'] key

/-- What stands at a path. -/
def item? (s : Settings) (key : Text) : Option Item := s.memory.find? (.ref s.root) (path key)

/-- The value at a path; `default` if there is none. -/
def get (s : Settings) (key : Text) (default : Value) : Value :=
  match s.item? key with
  | some i => s.memory.see i
  | none => default

/-! ## Changes -/

/-- A step that changes the memory of settings. -/
def acting {α : Type} (x : Action Memory α) : Action Settings α := fun s =>
  ((x s.memory).1, { s with memory := (x s.memory).2 })

/-- Puts an item at a path. -/
def assign (key : Text) (x : Item) : Action Settings Unit := fun s =>
  acting (Memory.assignAt x (.ref s.root) (path key)) s

/-- Puts items at paths, one after the other. -/
def assignAll : List (Text × Item) → Action Settings Unit
  | [] => pure ()
  | (key, x) :: rest => do
    assign key x
    assignAll rest

end Settings

end Tracewright
