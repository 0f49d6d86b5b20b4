/-
  Tracewright.Yaml.Node

  The shape of a YAML document: words and texts, lists, and mappings.

    * `Node`               — the shape, before words are read as values.
    * `Node.block`         — the node that starts with the next token.
    * `Node.ofDocument`    — the one document of a text.

  Every reader returns the node and the tokens after it.  Where a token does
  not fit the document is malformed, unless that token is a fault of its own.

  Reference: `Parser` of the YAML reader.
-/
import Tracewright.Yaml.Token

namespace Tracewright.Yaml

/-- The shape of a document. -/
inductive Node where
  | leaf (content : Leaf)
  | list (items : List Node)
  | map (entries : List (Node × Node))
  /-- A node with a name. -/
  | named (name : Text) (n : Node)
  /-- The node that has a name. -/
  | alias (name : Text)
  deriving Repr

namespace Node

abbrev empty : Node := .leaf .empty

/-- Why the next token does not fit. -/
def misfit : List Token → Fault
  | .fault reason :: _ => reason
  | _ => .malformed

/-- The next token ends an item of a list by indentation that is not written. -/
def endsItem : List Token → Bool
  | .item :: _ | .blockEnd :: _ => true
  | _ => false

/-- The next token ends a part of a mapping by indentation that is not written. -/
def endsPart : List Token → Bool
  | .key :: _ | .value :: _ | .blockEnd :: _ => true
  | _ => false

/-- The next token ends a part of an entry between brackets, or else braces, that is not
    written. -/
def endsEntry (brackets : Bool) : List Token → Bool
  | .comma :: _ => true
  | .bracketClose :: _ => brackets
  | .braceClose :: _ => !brackets
  | _ => false

/-- The next token starts a node that may follow a name. -/
def startsNamed (besides : Bool) : List Token → Bool
  | .leaf _ :: _ | .bracketOpen :: _ | .braceOpen :: _ | .listStart :: _ | .mapStart :: _ => true
  | .item :: _ => besides
  | _ => false

/-- The next token is the colon of a value. -/
def atValue : List Token → Bool
  | .value :: _ => true
  | _ => false

mutual
/-- The node that starts here.  `besides` says that a list may start without a column of its
    own: it is the value of an entry, and its hyphens stand in the column of the keys. -/
def block (fuel : Nat) (besides : Bool) (ts : List Token) : Except Fault (Node × List Token) :=
  match fuel with
  | 0 => .error .malformed
  | fuel + 1 =>
    match ts with
    | .leaf content :: rest => .ok (.leaf content, rest)
    | .bracketOpen :: rest => flowList fuel [] rest
    | .braceOpen :: rest => flowMap fuel [] rest
    | .listStart :: rest => blockList fuel [] rest
    | .mapStart :: rest => blockMap fuel [] rest
    | .item :: _ => if besides then bareList fuel [] ts else .error .malformed
    | .alias name :: rest => .ok (.alias name, rest)
    | .anchor name :: rest => do
      let (node, rest) ← if startsNamed besides rest then block fuel besides rest
        else pure (empty, rest)
      pure (.named name node, rest)
    | ts => .error (misfit ts)

/-- The items of a list by indentation; `items` are those before, the last one first. -/
def blockList (fuel : Nat) (items : List Node) (ts : List Token) :
    Except Fault (Node × List Token) :=
  match fuel with
  | 0 => .error .malformed
  | fuel + 1 =>
    match ts with
    | .item :: rest => do
      let (item, rest) ← if endsItem rest then pure (empty, rest) else block fuel false rest
      blockList fuel (item :: items) rest
    | .blockEnd :: rest => .ok (.list items.reverse, rest)
    | ts => .error (misfit ts)

/-- The items of a list without a column of its own. -/
def bareList (fuel : Nat) (items : List Node) (ts : List Token) :
    Except Fault (Node × List Token) :=
  match fuel with
  | 0 => .error .malformed
  | fuel + 1 =>
    match ts with
    | .item :: rest => do
      let (item, rest) ← if endsItem rest || endsPart rest then pure (empty, rest)
        else block fuel false rest
      bareList fuel (item :: items) rest
    | ts => .ok (.list items.reverse, ts)

/-- The entries of a mapping by indentation. -/
def blockMap (fuel : Nat) (entries : List (Node × Node)) (ts : List Token) :
    Except Fault (Node × List Token) :=
  match fuel with
  | 0 => .error .malformed
  | fuel + 1 =>
    match ts with
    | .key :: rest => do
      let (key, rest) ← blockPart fuel rest
      let (value, rest) ← match rest with
        | .value :: rest => blockPart fuel rest
        | rest => pure (empty, rest)
      blockMap fuel ((key, value) :: entries) rest
    | .blockEnd :: rest => .ok (.map entries.reverse, rest)
    | ts => .error (misfit ts)

/-- The key or the value of an entry by indentation; it need not be written. -/
def blockPart (fuel : Nat) (ts : List Token) : Except Fault (Node × List Token) :=
  match fuel with
  | 0 => .error .malformed
  | fuel + 1 => if endsPart ts then .ok (empty, ts) else block fuel true ts

/-- The items of a list in brackets. -/
def flowList (fuel : Nat) (items : List Node) (ts : List Token) :
    Except Fault (Node × List Token) :=
  match fuel with
  | 0 => .error .malformed
  | fuel + 1 =>
    match ts with
    | .bracketClose :: rest => .ok (.list items.reverse, rest)
    | ts => do
      let (key, value, rest) ← flowEntry fuel true ts
      let item := match value with
        | some v => .map [(key, v)]
        | none => key
      match rest with
      | .comma :: rest => flowList fuel (item :: items) rest
      | .bracketClose :: rest => .ok (.list (item :: items).reverse, rest)
      | ts => .error (misfit ts)

/-- The entries of a mapping in braces. -/
def flowMap (fuel : Nat) (entries : List (Node × Node)) (ts : List Token) :
    Except Fault (Node × List Token) :=
  match fuel with
  | 0 => .error .malformed
  | fuel + 1 =>
    match ts with
    | .braceClose :: rest => .ok (.map entries.reverse, rest)
    | ts => do
      let (key, value, rest) ← flowEntry fuel false ts
      let entry := (key, value.getD empty)
      match rest with
      | .comma :: rest => flowMap fuel (entry :: entries) rest
      | .braceClose :: rest => .ok (.map (entry :: entries).reverse, rest)
      | ts => .error (misfit ts)

/-- A node between brackets, or else braces, and its value if it is marked as a key. -/
def flowEntry (fuel : Nat) (brackets : Bool) (ts : List Token) :
    Except Fault (Node × Option Node × List Token) :=
  match fuel with
  | 0 => .error .malformed
  | fuel + 1 =>
    match ts with
    | .key :: rest => do
      let (key, rest) ← if atValue rest then pure (empty, rest) else flowPart fuel brackets rest
      let (value, rest) ← match rest with
        | .value :: rest => flowPart fuel brackets rest
        | rest => pure (empty, rest)
      pure (key, some value, rest)
    | ts => do
      let (node, rest) ← block fuel false ts
      pure (node, none, rest)

/-- The key or the value of an entry between brackets, or else braces; it need not be
    written. -/
def flowPart (fuel : Nat) (brackets : Bool) (ts : List Token) : Except Fault (Node × List Token) :=
  match fuel with
  | 0 => .error .malformed
  | fuel + 1 => if endsEntry brackets ts then .ok (empty, ts) else block fuel false ts
end

/-! ## Documents -/

/-- The tokens after the directives; `named` says that one before has named a version.  Only
    one may, and only version 1. -/
def afterDirectives (named : Bool) : List Token → Except Fault (List Token)
  | .directive none :: rest => afterDirectives named rest
  | .directive (some v) :: rest =>
    if named || v != 1 then .error .malformed else afterDirectives true rest
  | ts => .ok ts

/-- The tokens after the marks that end a document. -/
def afterEnds (ts : List Token) : List Token := ts.dropWhile (· matches .documentEnd)

/-- Nothing follows the document. -/
def alone (node : Node) (ts : List Token) : Except Fault Node :=
  match afterEnds ts with
  | .textEnd :: _ => .ok node
  | ts => do .error (misfit (← afterDirectives false ts))

/-- The one document of a text; a text without any is an empty one. -/
def ofTokens (ts : List Token) : Except Fault Node :=
  let fuel := 4 * ts.length + 8
  match ts with
  | .textEnd :: _ => .ok empty
  | .directive _ :: _ | .documentStart :: _ => do
    match ← afterDirectives false ts with
    | .documentStart :: rest =>
      match rest with
      | .directive _ :: _ | .documentStart :: _ | .documentEnd :: _ | .textEnd :: _ =>
        alone empty rest
      | rest => do
        let (node, rest) ← block fuel false rest
        alone node rest
    | ts => .error (misfit ts)
  | ts => do
    let (node, rest) ← block fuel false ts
    alone node rest

end Node

end Tracewright.Yaml
