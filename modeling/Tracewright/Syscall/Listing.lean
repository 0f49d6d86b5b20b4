/-
  Tracewright.Syscall.Listing

  System calls listed in a YAML file, one mapping each:

      - number: 257
        name: openat
        mask: [fd_1, str_2]
        available: true

  `positions`, where given, are the argument slots that hold strings; otherwise
  they follow from the mask.

    * `Entry`           — an entry of a listing, as far as it is looked at.
    * `Listing.entry`   — the system call of one entry.
    * `Listing.catalog` — the system calls of a document.
    * `Listing.load`    — the system calls of a file.

  Reference: `load_catalog` and `_parse_mask`; a listing is a catalog file
  there, and the slots of an entry are its positions.
-/
import Tracewright.Run
import Tracewright.Syscall.Builtin
import Tracewright.Yaml.Platform

namespace Tracewright.Listing

/-! ## The parts of an entry -/

/-- The capability of a name; any value goes by the text it stands for. -/
def flag (v : Value) : Run Mask :=
  match Mask.flag? v.write with
  | some m => pure m
  | none => Run.fail (.config (.unknownFlag v))

def flags : List Value → Run Mask
  | [] => pure 0
  | v :: rest => do
    let m ← flag v
    let ms ← flags rest
    pure (Mask.union m ms)

/-- The mask of an entry: a number, one name, or a list of names.  Whatever else one can go
    through counts by what one meets, and what is false counts as no names. -/
def mask (v : Value) : Run Mask :=
  match v with
  | .int n => pure n
  | .bool b => pure (if b then 1 else 0)
  | .text _ => flag v
  | v =>
    match v.elements? with
    | some vs => flags vs
    | none => if v.isTrue then Run.fail .wrongKind else pure 0

/-- A conversion to an integer that failed: `fault` says what is wrong with the listing, but
    an infinite number is a failure of its own. -/
def noInteger {α : Type} (fault : Cause → ConfigFault) (e : IntFault) : Run α :=
  match e.cause? with
  | some cause => Run.fail (.config (fault cause))
  | none => Run.fail .tooLarge

def integers (fault : Cause → ConfigFault) : List Value → Run (List Int)
  | [] => pure []
  | v :: rest =>
    match v.toInt with
    | .error e => noInteger fault e
    | .ok n => do
      let ns ← integers fault rest
      pure (n :: ns)

def slots (name : Text) (v : Value) : Run (List Int) :=
  match v.elements? with
  | some vs => integers (.badSlots name) vs
  | none => Run.fail (.config (.badSlots name .wrongKind))

/-! ## Entries -/

/-- What stands under the words of an entry that count. -/
structure Parts where
  number : Option Value
  name : Option Value
  mask : Option Value
  available : Option Value
  positions : Option Value

/-- An entry of a listing, as far as it is looked at. -/
structure Entry where
  /-- The entry as messages show it. -/
  shown : Value
  /-- What stands in it, if it is a mapping. -/
  parts : Option Parts

/-- The parts of a mapping.  What one goes through is laid out, so that each of its parts is seen
    by itself. -/
def partsOf (m : Memory) (entries : Mapping Item) : Parts where
  number := (entries.getText? "number").map m.see
  name := (entries.getText? "name").map m.see
  mask := (entries.getText? "mask").map m.layOut
  available := (entries.getText? "available").map m.layOut
  positions := (entries.getText? "positions").map m.layOut

def entryOf (m : Memory) (i : Item) : Entry := ⟨m.see i, (m.mapping? i).map (partsOf m)⟩

def number (e : Entry) (parts : Parts) : Run Int :=
  match parts.number with
  | none => Run.fail (.config (.badEntry e.shown .noSuchKey))
  | some v =>
    match v.toInt with
    | .ok n => pure n
    | .error why => noInteger (.badEntry e.shown) why

/-- The name of an entry: the text that the value stands for.  An integer that is too long to be
    written is a mistake in the entry, but a value that is too deep to be shown is not. -/
def name (e : Entry) (parts : Parts) : Run Text :=
  match parts.name with
  | none => Run.fail (.config (.badEntry e.shown .noSuchKey))
  | some v =>
    match v.obstacle? with
    | none => pure v.write
    | some .overlong => Run.fail (.config (.badEntry e.shown .badValue))
    | some .tooDeep => Run.fail .tooDeep

def entry (e : Entry) : Run Descriptor :=
  match e.parts with
  | none => Run.fail (.config (.badEntry e.shown .wrongKind))
  | some parts => do
    let number ← number e parts
    let name ← name e parts
    let mask ← mask (parts.mask.getD (.int 0))
    let available := (parts.available.getD (.bool true)).isTrue
    match parts.positions with
    | none => pure (Descriptor.ofMask number name mask available)
    | some p => do
      let slots ← slots name p
      Run.ofCheck (Descriptor.checked number name available slots.length slots mask)

def addEntries (c : Catalog) : List Entry → Run Catalog
  | [] => pure c
  | e :: rest => do
    let d ← entry e
    let c ← Run.ofCheck (c.add d)
    addEntries c rest

/-! ## Documents -/

/-- The entries of a document, if it is a list. -/
def entries? (m : Memory) : Item → Option (List Entry)
  | .scalar _ => none
  | .ref r =>
    match m.object? r with
    | some (.list items) => some (items.map (entryOf m))
    | _ => none

/-- The system calls of a document; one that is false lists none. -/
def catalog (file : Text) (m : Memory) (root : Item) : Run Catalog :=
  if (m.layOut root).isTrue then
    match entries? m root with
    | some es => addEntries .empty es
    | none => Run.fail (.config (.listingNotList file))
  else pure .empty

/-- The document of a file.  A refusal of the system and a malformed text are faults in the
    listing. -/
def document (platform : Platform) (files : Files) (file : Text) : Run Document :=
  match platform.load files (Path.ofText file) with
  | .ok d => pure d
  | .error (.os .unnameable) => Run.fail (.value .unnameable)
  | .error (.os fault) => Run.fail (.config (.listingUnreadable file (.os fault)))
  | .error .malformed => Run.fail (.config (.listingMalformed file .malformed))
  | .error fault => Run.fail fault.failure

def load (platform : Platform) (files : Files) (file : Text) : Run Catalog := do
  let d ← document platform files file
  let c ← catalog file (d.memory platform.depths) d.root
  Run.record Log.Level.info Log.Source.syscalls
    (("Loaded " : Text) ++ Numeral.decimal c.size ++ (" syscalls from " : Text) ++ file)
  pure c

end Tracewright.Listing
