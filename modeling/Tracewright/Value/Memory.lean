/-
  Tracewright.Value.Memory

  Values that can be shared and changed.  A list or a mapping is an object of
  a memory; whatever holds it holds a reference, and whoever changes it
  changes it for all who hold it.  An object can even hold itself.

    * `Item`, `Object`, `Memory` — references, what they lead to, and all of it.
    * `Memory.see`               — an item as the value that one sees.
    * `Memory.find?`             — what stands at the end of a path of names.
    * `Memory.putAt`, `Memory.make`
                                 — how a memory changes.
    * `Document`                 — what a reader returns: objects of its own.
    * `Memory.adopt`             — a memory with the objects of a document.

  Reference: the object model of `dict`, `list` and `tuple`, with the limit of
  recursion that `repr` and functions calling themselves run into.
-/
import Tracewright.Value.Mapping

namespace Tracewright

/-! ## Objects -/

/-- What stands in a list or under a key: a scalar, or a reference to an object. -/
inductive Item where
  | scalar (s : Scalar)
  | ref (at_ : Nat)
  deriving DecidableEq, Repr

/-- A value with parts. -/
inductive Object where
  | list (items : List Item)
  | tuple (items : List Item)
  | set (items : List Scalar)
  | map (entries : Mapping Item)
  deriving DecidableEq, Repr

instance : Inhabited Item := ⟨.scalar .null⟩

namespace Item

/-- The item refers to one of the first `n` objects, if to any. -/
def IsBelow (n : Nat) : Item → Prop
  | .scalar _ => True
  | .ref r => r < n

instance (n : Nat) (i : Item) : Decidable (i.IsBelow n) :=
  match i with
  | .scalar _ => .isTrue trivial
  | .ref r => inferInstanceAs (Decidable (r < n))

/-- The item after its objects have moved up by `n` places. -/
def shift (n : Nat) : Item → Item
  | .scalar s => .scalar s
  | .ref r => .ref (r + n)

end Item

namespace Object

/-- The items that an object holds. -/
def items : Object → List Item
  | .list items | .tuple items => items
  | .set _ => []
  | .map entries => entries.map Prod.snd

/-- No key of a mapping stands twice. -/
def HasDistinctKeys : Object → Prop
  | .map entries => entries.IsDistinct
  | _ => True

instance (o : Object) : Decidable o.HasDistinctKeys :=
  match o with
  | .map entries => inferInstanceAs (Decidable entries.IsDistinct)
  | .list _ | .tuple _ | .set _ => .isTrue trivial

/-- The entries of an object that is a mapping. -/
def mapping? : Object → Option (Mapping Item)
  | .map entries => some entries
  | _ => none

def shift (n : Nat) : Object → Object
  | .list items => .list (items.map (Item.shift n))
  | .tuple items => .tuple (items.map (Item.shift n))
  | .set items => .set items
  | .map entries => .map (entries.map fun e => (e.1, e.2.shift n))

end Object

/-! ## Memories -/

/-- How deep one goes before the recursion ends in a failure: in merging mappings and in showing
    values.  Two mappings within each other can always be merged. -/
structure Depths where
  merging : Nat
  showing : Nat
  two_le_merging : 2 ≤ merging
  deriving Repr

/-- All objects there are, and how deep one goes into them. -/
structure Memory where
  objects : List Object
  depths : Depths
  deriving Repr

namespace Memory

def object? (m : Memory) (r : Nat) : Option Object := m.objects[r]?

/-- The entries of an item that is a mapping. -/
def mapping? (m : Memory) : Item → Option (Mapping Item)
  | .scalar _ => none
  | .ref r => (m.object? r).bind Object.mapping?

/-! ### Seeing -/

/-- An item as it is seen by one who has come through the objects `path` and goes `depth` steps
    further.  A set is shown as the list of its items, one step deeper. -/
def seeWithin (m : Memory) (depth : Nat) (path : List Nat) : Item → Value :=
  match depth with
  | 0 => fun _ => .tooDeep
  | depth + 1 => fun
    | .scalar s => .scalar s
    | .ref r =>
      match m.object? r with
      | none => .null
      | some (.list items) =>
        if r ∈ path then .again .list else .list (items.map (m.seeWithin depth (r :: path)))
      | some (.tuple items) =>
        if r ∈ path then .again .tuple else .tuple (items.map (m.seeWithin depth (r :: path)))
      | some (.set items) => if items = [] ∨ 2 ≤ depth then .set items else .tooDeep
      | some (.map entries) =>
        if r ∈ path then .again .map
        else .map (entries.map fun e => (e.1, m.seeWithin depth (r :: path) e.2))

/-- An item as messages show it. -/
def see (m : Memory) (i : Item) : Value := m.seeWithin (m.depths.showing + 1) [] i

/-- An item with its parts laid out, each of them as it is seen by itself. -/
def layOut (m : Memory) : Item → Value
  | .scalar s => .scalar s
  | .ref r =>
    match m.object? r with
    | none => .null
    | some (.list items) => .list (items.map m.see)
    | some (.tuple items) => .tuple (items.map m.see)
    | some (.set items) => .set items
    | some (.map entries) => .map (entries.map fun e => (e.1, m.see e.2))

/-! ### Paths -/

/-- What stands at the end of a path of names, from mapping to mapping. -/
def find? (m : Memory) (i : Item) : List Text → Option Item
  | [] => some i
  | k :: ks =>
    match (m.mapping? i).bind (·.getText? k) with
    | some j => m.find? j ks
    | none => none

/-! ### Changes -/

/-- Puts an item under a key of the mapping at `r`. -/
def putAt (m : Memory) (r : Nat) (k : Scalar) (i : Item) : Memory :=
  match m.mapping? (.ref r) with
  | some entries => { m with objects := m.objects.set r (.map (entries.put k i)) }
  | none => m

/-- A memory with one more object. -/
def make (m : Memory) (o : Object) : Memory := { m with objects := m.objects ++ [o] }

/-- A memory with more objects, which come with references among themselves. -/
def append (m : Memory) (objects : List Object) : Memory :=
  { m with objects := m.objects ++ objects.map (Object.shift m.objects.length) }

end Memory

/-! ## Documents -/

/-- What a reader returns: an item, and the objects that it leads to.  There are no references to
    anything else, and no key stands twice in a mapping. -/
structure Document where
  objects : List Object
  root : Item
  closed : ∀ o ∈ objects, ∀ i ∈ o.items, i.IsBelow objects.length
  root_isBelow : root.IsBelow objects.length
  distinct : ∀ o ∈ objects, o.HasDistinctKeys
  deriving Repr

namespace Document

/-- A document without parts. -/
def ofScalar (s : Scalar) : Document where
  objects := []
  root := .scalar s
  closed := nofun
  root_isBelow := trivial
  distinct := nofun

/-- The document of some objects, if they make one. -/
def ofObjects? (objects : List Object) (root : Item) : Option Document :=
  if h : (∀ o ∈ objects, ∀ i ∈ o.items, i.IsBelow objects.length) ∧
      root.IsBelow objects.length ∧ ∀ o ∈ objects, o.HasDistinctKeys then
    some ⟨objects, root, h.1, h.2.1, h.2.2⟩
  else none

/-- A memory that holds the document and nothing else. -/
def memory (d : Document) (depths : Depths) : Memory := ⟨d.objects, depths⟩

/-- The entries of a document that is a mapping. -/
def entries? (d : Document) : Option (Mapping Item) :=
  match d.root with
  | .scalar _ => none
  | .ref r => (d.objects[r]?).bind Object.mapping?

end Document

/-- A memory with the objects of a document, and where it starts. -/
def Memory.adopt (m : Memory) (d : Document) : Memory × Item :=
  (m.append d.objects, d.root.shift m.objects.length)

end Tracewright
