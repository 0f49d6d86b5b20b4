/-
  Tracewright.Yaml.Graph

  What a document says, once its names are resolved, its words are read and
  its mappings have taken in the ones they name.

    * `Graph`          — the lists and mappings of a document, each in a place
                         of its own; one that is named may be held by several
                         others, and by itself.
    * `Graph.ofNode`   — the graph of a shape.
    * `Graph.fault?`   — what is wrong with a graph, level by level.
    * `Graph.document` — the document of a graph.

  A mapping takes in the entries of another one, or of each in a list, by the
  key `<<`; its own entries and earlier ones in the list go before them.  Of
  entries with one key the last counts; a list or a mapping is no key.

  Reference: `Composer` and `SafeConstructor` of the YAML reader.
-/
import Tracewright.Yaml.Node
import Tracewright.Yaml.Platform
import Tracewright.Yaml.Scalar

namespace Tracewright.Yaml

/-- What stands in a list or under a key, or is a key: a leaf, or a list or mapping by its
    place. -/
inductive Part where
  | leaf (content : Leaf)
  | at (place : Nat)
  deriving Repr

/-- A list or a mapping. -/
inductive Container where
  | list (parts : List Part)
  | map (entries : List (Part × Part))
  deriving Repr

abbrev Graph := List Container

/-! ## Shapes as graphs -/

/-- A graph that is being made, with the names that have been given. -/
structure Draft where
  graph : Graph := []
  names : List (Text × Part) := []

namespace Draft

/-- Gives a name; no name is given twice. -/
def call (name : Option Text) (p : Part) (d : Draft) : Except Fault Draft :=
  match name with
  | none => .ok d
  | some name =>
    if (d.names.lookup name).isSome then .error .malformed
    else .ok { d with names := (name, p) :: d.names }

/-- Makes room for a list or a mapping. -/
def reserve (d : Draft) : Draft := { d with graph := d.graph ++ [.list []] }

def fill (place : Nat) (c : Container) (d : Draft) : Draft :=
  { d with graph := d.graph.set place c }

end Draft

mutual
/-- The part that a node is.  A list or a mapping has its name before its own parts are read. -/
def Node.lay (name : Option Text) (d : Draft) : Node → Except Fault (Part × Draft)
  | .leaf content => do
    let p := Part.leaf content
    pure (p, ← d.call name p)
  | .list items => do
    let place := d.graph.length
    let d ← d.reserve.call name (.at place)
    let (parts, d) ← layAll d items
    pure (.at place, d.fill place (.list parts))
  | .map entries => do
    let place := d.graph.length
    let d ← d.reserve.call name (.at place)
    let (parts, d) ← layEntries d entries
    pure (.at place, d.fill place (.map parts))
  | .named name n => n.lay (some name) d
  | .alias name =>
    match d.names.lookup name with
    | some p => .ok (p, d)
    | none => .error .malformed

def layAll (d : Draft) : List Node → Except Fault (List Part × Draft)
  | [] => .ok ([], d)
  | n :: rest => do
    let (p, d) ← n.lay none d
    let (ps, d) ← layAll d rest
    pure (p :: ps, d)

def layEntries (d : Draft) : List (Node × Node) → Except Fault (List (Part × Part) × Draft)
  | [] => .ok ([], d)
  | (k, n) :: rest => do
    let (kp, d) ← k.lay none d
    let (p, d) ← n.lay none d
    let (ps, d) ← layEntries d rest
    pure ((kp, p) :: ps, d)
end

/-! ## Words -/

/-- What a leaf stands for as a value. -/
def Leaf.content : Leaf → Except Fault Scalar
  | .empty => .ok .null
  | .plain w => resolve w
  | .quoted t => .ok (.text t)

/-- What a part stands for as a key. -/
def Part.key : Part → Except Fault Scalar
  | .leaf (.plain w) => resolveKey w
  | .leaf content => content.content
  | .at _ => .error .malformed

/-- The key takes in the entries of its value. -/
def Part.takesIn : Part → Bool
  | .leaf (.plain w) => w = "<<"
  | _ => false

namespace Graph

/-! ## Entries that are taken in -/

/-- The entries of a mapping, those that it takes in before its own; `none` if it takes in
    something else than a mapping.  `fuel` bounds the mappings that one comes through. -/
def entries? (g : Graph) (fuel : Nat) (entries : List (Part × Part)) :
    Option (List (Part × Part)) :=
  match fuel with
  | 0 => some []
  | fuel + 1 => do
    let ofPart (p : Part) : Option (List (Part × Part)) :=
      match p with
      | .at place =>
        match g[place]? with
        | some (.map entries) => g.entries? fuel entries
        | _ => none
      | .leaf _ => none
    let takenIn (p : Part) : Option (List (Part × Part)) :=
      match p with
      | .at place =>
        match g[place]? with
        | some (.list parts) => (parts.reverse.mapM ofPart).map List.flatten
        | _ => ofPart p
      | .leaf _ => none
    let taken ← (entries.filter fun e => e.1.takesIn).mapM fun e => takenIn e.2
    some (taken.flatten ++ entries.filter fun e => !e.1.takesIn)

/-- Each mapping with the entries that it takes in; `none` stands for one that is misled. -/
def flat (g : Graph) : List (Option Container) :=
  g.map fun
    | .list parts => some (.list parts)
    | .map entries => (g.entries? (g.length + 1) entries).map .map

/-! ## Faults -/

/-- The lists and mappings among parts. -/
def places (parts : List Part) : List Nat :=
  parts.filterMap fun
    | .at place => some place
    | .leaf _ => none

def faultOf? : Except Fault Scalar → Option Fault
  | .ok _ => none
  | .error fault => some fault

/-- The fault of a part as a value. -/
def partFault? : Part → Option Fault
  | .leaf content => faultOf? content.content
  | .at _ => none

/-- What is wrong within a list or a mapping. -/
def containerFault? : Option Container → Option Fault
  | none => some .malformed
  | some (.list parts) => parts.findSome? partFault?
  | some (.map entries) =>
    entries.findSome? fun e => (faultOf? e.1.key).or (partFault? e.2)

/-- The lists and mappings that one holds. -/
def held : Option Container → List Nat
  | none => []
  | some (.list parts) => places parts
  | some (.map entries) => places (entries.map Prod.snd)

/-- What is wrong first, level by level: `queue` are the places to look at, `seen` all that have
    been on it, and `fuel` bounds their number. -/
def faultFrom? (flat : List (Option Container)) (fuel : Nat) (queue seen : List Nat) :
    Option Fault :=
  match fuel, queue with
  | 0, _ | _, [] => none
  | fuel + 1, place :: queue =>
    let c := (flat[place]?).join
    match containerFault? c with
    | some fault => some fault
    | none =>
      let fresh := ((held c).filter (· ∉ seen)).eraseDups
      faultFrom? flat fuel (queue ++ fresh) (seen ++ fresh)

/-- What is wrong with a graph that starts with a part. -/
def fault? (g : Graph) (root : Part) : Option Fault :=
  match root with
  | .leaf _ => partFault? root
  | .at place => faultFrom? g.flat (g.length + 1) [place] [place]

/-! ## Documents -/

def item : Part → Item
  | .leaf content => .scalar (content.content.toOption.getD .null)
  | .at place => .ref place

def object : Option Container → Object
  | none => .map []
  | some (.list parts) => .list (parts.map item)
  | some (.map entries) =>
    .map (Mapping.ofEntries (entries.map fun e => (e.1.key.toOption.getD .null, item e.2)))

/-- The document of a graph; of several faults the first on the highest level counts. -/
def document (g : Graph) (root : Part) : Except Fault Document :=
  match g.fault? root with
  | some fault => .error fault
  | none =>
    match Document.ofObjects? (g.flat.map object) (item root) with
    | some d => .ok d
    | none => .error .malformed

end Graph

/-- The document of a shape. -/
def Node.document (n : Node) : Except Fault Document := do
  let (root, d) ← n.lay none {}
  d.graph.document root

example :
    let n : Node := .map [(.leaf (.plain "a"), .named "x" (.list [.alias "x"]))]
    n.document.toOption.map Document.objects =
      some [.map [(.text "a", .ref 1)], .list [.ref 1]] := by
  decide +kernel

end Tracewright.Yaml
