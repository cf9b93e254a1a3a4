import LayeredConfig.Yaml.Lexer
import LayeredConfig.Yaml.Node
import LayeredConfig.Yaml.Scalar
import LayeredConfig.Json.Basic

/-! # Reading YAML

A document as JSON.  Aliases are numbered in document order and followed by number; how often and
how deep is limited, so documents that contain themselves are refused.

* `Node.number`   anchors and aliases by number
* `Node.value`    the JSON document of a node
* `Yaml.read`     the JSON document that a text holds -/

namespace LayeredConfig.Yaml

/-! ## Anchors -/

/-- The numbers of the anchors so far, by name. -/
abbrev Anchors : Type := SortedMap String Nat

/-- Give an anchor the next number: that of anchor names in use.  An anchor defined again gets
another number and does not count as a new name. -/
def Anchors.define (a : Anchors) : Option String → Option Nat × Anchors
  | some name => (some a.size, a.insert name a.size)
  | none => (none, a)

namespace Node

mutual

/-- Replace the names of anchors and aliases by numbers, in document order. -/
def number (a : Anchors) : Node String → Except Fault (Node Nat × Anchors)
  | .scalar anchor tag plain text =>
    let (id, a) := a.define anchor
    .ok (.scalar id tag plain text, a)
  | .sequence anchor tag items => do
    let (id, a) := a.define anchor
    let (items, a) ← numberItems a items
    return (.sequence id tag items, a)
  | .mapping anchor tag members => do
    let (id, a) := a.define anchor
    let (members, a) ← numberMembers a members
    return (.mapping id tag members, a)
  | .alias name =>
    match a.find? name with
    | some id => .ok (.alias id, a)
    | none => .error .unknownAnchor

def numberItems (a : Anchors) : List (Node String) → Except Fault (List (Node Nat) × Anchors)
  | [] => .ok ([], a)
  | item :: rest => do
    let (item, a) ← number a item
    let (rest, a) ← numberItems a rest
    return (item :: rest, a)

def numberMembers (a : Anchors) :
    List (Node String × Node String) → Except Fault (List (Node Nat × Node Nat) × Anchors)
  | [] => .ok ([], a)
  | (key, value) :: rest => do
    let (key, a) ← number a key
    let (value, a) ← number a value
    let (rest, a) ← numberMembers a rest
    return ((key, value) :: rest, a)

end

mutual

/-- The nodes with anchors, in document order. -/
def anchored : Node Nat → List (Nat × Node Nat)
  | .scalar anchor tag plain text => anchor.toList.map fun id => (id, .scalar anchor tag plain text)
  | .sequence anchor tag items =>
    (anchor.toList.map fun id => (id, .sequence anchor tag items)) ++ anchoredItems items
  | .mapping anchor tag members =>
    (anchor.toList.map fun id => (id, .mapping anchor tag members)) ++ anchoredMembers members
  | .alias _ => []

def anchoredItems : List (Node Nat) → List (Nat × Node Nat)
  | [] => []
  | item :: rest => anchored item ++ anchoredItems rest

def anchoredMembers : List (Node Nat × Node Nat) → List (Nat × Node Nat)
  | [] => []
  | (key, value) :: rest => anchored key ++ anchored value ++ anchoredMembers rest

end

mutual

/-- The number of events in the serial form of a node: one for scalars and aliases, and two around
the content of the others. -/
def events : Node Nat → Nat
  | .scalar .. => 1
  | .sequence _ _ items => eventsItems items + 2
  | .mapping _ _ members => eventsMembers members + 2
  | .alias _ => 1

def eventsItems : List (Node Nat) → Nat
  | [] => 0
  | item :: rest => events item + eventsItems rest

def eventsMembers : List (Node Nat × Node Nat) → Nat
  | [] => 0
  | (key, value) :: rest => events key + events value + eventsMembers rest

end

/-! ## Values -/

/-- The document of a plain scalar's meaning. -/
def ofScalar : Scalar → Except Fault Json
  | .null => .ok .null
  | .bool b => .ok (.bool b)
  | .integer i =>
    if h : -9223372036854775808 ≤ i ∧ i < 18446744073709551616 then .ok (.number (.integer i h))
    else .error .wideInteger
  | .float x => .ok (.ofBinary64 x)
  | .string s => .ok (.string (.ofList s))

/-- The document of a scalar.  The tags of the scalar types ask for that type, other tags for a
string.  Without a tag plain scalars are understood, and so they are behind a local tag that is no
text. -/
def scalarValue (tag : Option Tag) (plain : Bool) (s : List Char) : Except Fault Json :=
  match tag.bind Tag.name? with
  | some "tag:yaml.org,2002:bool" =>
    match bool? s with
    | some b => .ok (.bool b)
    | none => .error .tagMismatch
  | some "tag:yaml.org,2002:int" =>
    match integer? s with
    | some i => ofScalar (.integer i)
    | none => .error .tagMismatch
  | some "tag:yaml.org,2002:float" =>
    match float? s with
    | some x => .ok (.ofBinary64 x)
    | none => .error .tagMismatch
  | some "tag:yaml.org,2002:null" => if isNullWord s then .ok .null else .error .tagMismatch
  | _ =>
    if plain && tag.all Tag.isLocal then ofScalar (.ofPlain s) else .ok (.string (.ofList s))

/-- What aliases refer to, and how often they may be followed. -/
structure Context where
  nodes : List (Nat × Node Nat)
  limit : Nat

/-- The node that a node stands for: of several with the number of an alias, the last.  The count
of aliases followed goes up by one. -/
def follow (cx : Context) (jumps : Nat) : Node Nat → Except Fault (Node Nat × Nat)
  | .alias id =>
    if cx.limit ≤ jumps then .error .repetitionLimit
    else match cx.nodes.reverse.lookup id with
      | some node => .ok (node, jumps + 1)
      -- Every alias got its number from an anchor before it.
      | none => .error .unknownAnchor
  | node => .ok (node, jumps)

/-- The key that a node is: the text of a scalar, whatever it means. -/
def key (cx : Context) (jumps : Nat) (node : Node Nat) : Except Fault (String × Nat) := do
  let (node, jumps) ← follow cx jumps node
  match node with
  | .scalar _ _ _ s => return (.ofList s, jumps)
  | _ => .error .keyNotScalar

/-- The document of a node with at most `depth` levels of collections. -/
def value (cx : Context) : Nat → Nat → Node Nat → Except Fault (Json × Nat)
  | depth, jumps, node => do
    let (node, jumps) ← follow cx jumps node
    match node, depth with
    | .scalar _ tag plain s, _ =>
      if tag.any Tag.isCustom then .error .customTag
      else return (← scalarValue tag plain s, jumps)
    | .sequence _ tag items, depth + 1 =>
      if tag.any Tag.isCustom then .error .customTag
      else
        let (items, jumps) ← items.foldlM (fun (acc, jumps) item => do
          let (v, jumps) ← value cx depth jumps item
          return (v :: acc, jumps)) ([], jumps)
        return (.array items.reverse, jumps)
    | .mapping _ tag members, depth + 1 =>
      if tag.any Tag.isCustom then .error .customTag
      else
        let (members, jumps) ← members.foldlM (fun (acc, jumps) member => do
          let (k, jumps) ← key cx jumps member.1
          let (v, jumps) ← value cx depth jumps member.2
          return (Entries.insert acc k v, jumps)) (Entries.nil, jumps)
        return (.object members, jumps)
    | .sequence .., 0 => .error .recursionLimit
    | .mapping .., 0 => .error .recursionLimit
    | .alias _, _ => .error .unknownAnchor

end Node

/-! ## Documents -/

/-- The deepest nesting of collections. -/
def depthLimit : Nat := 128

/-- The document that a text holds; `null` if it holds none. -/
def read (s : RawText) : Except Fault Json := do
  match s.chars? with
  | none => .error .invalidCharacter
  | some text =>
    if !text.all isAllowed then .error .invalidCharacter
    else
      match ← Document.ofTokens (← tokens text) with
      | none => return .null
      | some node =>
        let (node, _) ← node.number .nil
        let (json, _) ← node.value ⟨node.anchored, 100 * node.events⟩ depthLimit 0
        return json

end LayeredConfig.Yaml
