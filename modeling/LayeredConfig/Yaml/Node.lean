import LayeredConfig.Yaml.Token

/-! # Nodes of a document

The tree that the tokens of a document form.  Entries, keys and values may be missing, and stand for
empty plain scalars.

* `Node`              the tree, with names for anchors and aliases
* `Node.ofTokens`     the grammar
* `Document.ofTokens` the node of a text that holds at most one document -/

namespace LayeredConfig.Yaml

/-- The tree of a document.  Anchors and aliases carry names of type `ν`. -/
inductive Node (ν : Type)
  | scalar (anchor : Option ν) (tag : Option Tag) (plain : Bool) (text : List Char)
  | sequence (anchor : Option ν) (tag : Option Tag) (items : List (Node ν))
  | mapping (anchor : Option ν) (tag : Option Tag) (members : List (Node ν × Node ν))
  | alias (name : ν)

namespace Node

/-- The empty plain scalar. -/
def empty : Node String := .scalar none none true []

/-- The whole of a tag; a handle stands for the start of it. -/
def resolveTag (handles : List (String × Tag)) (handle : String) (suffix : Tag) :
    Except Fault Tag :=
  if handle.isEmpty then .ok suffix
  else match handles.lookup handle with
    | some start => .ok (start.append suffix)
    | none => .error .undefinedTagHandle

/-- An anchor and a tag, in any order, in front of a node. -/
def properties (handles : List (String × Tag)) :
    List Token → Except Fault ((Option String × Option Tag) × List Token)
  | .anchor a :: .tag h s :: rest => do return ((some a, some (← resolveTag handles h s)), rest)
  | .tag h s :: .anchor a :: rest => do return ((some a, some (← resolveTag handles h s)), rest)
  | .anchor a :: rest => .ok ((some a, none), rest)
  | .tag h s :: rest => do return ((none, some (← resolveTag handles h s)), rest)
  | ts => .ok ((none, none), ts)

/-- Whether the token after a block sequence entry shows that the entry is missing. -/
def missingEntry : List Token → Bool
  | .blockEntry :: _ => true
  | .blockEnd :: _ => true
  | _ => false

/-- Whether the token after a key or colon shows that the node is missing. -/
def missingInMapping : List Token → Bool
  | .key :: _ => true
  | .value :: _ => true
  | .blockEnd :: _ => true
  | _ => false

/-- Whether the token after a colon in a flow mapping shows that the value is missing. -/
def missingInFlow : List Token → Bool
  | .flowEntry :: _ => true
  | .mappingEnd :: _ => true
  | _ => false

mutual

/-- The node in front of the tokens.  Blocks are admitted if `block` says so, and block sequences
without indentation of their own if `indentless` does. -/
def ofTokens (handles : List (String × Tag)) (block indentless : Bool) :
    Nat → List Token → Except Fault (Node String × List Token)
  | 0, _ => .error .recursionLimit
  | n + 1, ts =>
    match ts with
    | .alias name :: rest => .ok (.alias name, rest)
    | ts => do
      let ((anchor, tag), ts) ← properties handles ts
      match ts with
      | .blockEntry :: _ =>
        if indentless then
          let (items, rest) ← indentlessItems handles n ts
          return (.sequence anchor tag items, rest)
        else if anchor.isSome || tag.isSome then return (.scalar anchor tag true [], ts)
        else .error .unexpectedToken
      | .scalar plain s :: rest =>
        return (.scalar anchor tag plain s, rest)
      | .sequenceStart :: rest =>
        let (items, rest) ← flowItems handles true n rest
        return (.sequence anchor tag items, rest)
      | .mappingStart :: rest =>
        let (members, rest) ← flowMembers handles true n rest
        return (.mapping anchor tag members, rest)
      | .blockSequenceStart :: rest =>
        if block then
          let (items, rest) ← blockItems handles n rest
          return (.sequence anchor tag items, rest)
        else if anchor.isSome || tag.isSome then return (.scalar anchor tag true [], ts)
        else .error .unexpectedToken
      | .blockMappingStart :: rest =>
        if block then
          let (members, rest) ← blockMembers handles n rest
          return (.mapping anchor tag members, rest)
        else if anchor.isSome || tag.isSome then return (.scalar anchor tag true [], ts)
        else .error .unexpectedToken
      | _ =>
        if anchor.isSome || tag.isSome then return (.scalar anchor tag true [], ts)
        else .error .unexpectedToken

/-- The entries of a block sequence that are left, and its end. -/
def blockItems (handles : List (String × Tag)) :
    Nat → List Token → Except Fault (List (Node String) × List Token)
  | 0, _ => .error .recursionLimit
  | n + 1, ts =>
    match ts with
    | .blockEnd :: rest => .ok ([], rest)
    | .blockEntry :: rest => do
      let (item, rest) ←
        if missingEntry rest then .ok (empty, rest) else ofTokens handles true false n rest
      let (items, rest) ← blockItems handles n rest
      return (item :: items, rest)
    | _ => .error .unexpectedToken

/-- The entries that are left of a block sequence without indentation of its own. -/
def indentlessItems (handles : List (String × Tag)) :
    Nat → List Token → Except Fault (List (Node String) × List Token)
  | 0, _ => .error .recursionLimit
  | n + 1, ts =>
    match ts with
    | .blockEntry :: rest => do
      let (item, rest) ←
        if missingEntry rest || missingInMapping rest then .ok (empty, rest)
        else ofTokens handles true false n rest
      let (items, rest) ← indentlessItems handles n rest
      return (item :: items, rest)
    | ts => .ok ([], ts)

/-- The members of a block mapping that are left, and its end. -/
def blockMembers (handles : List (String × Tag)) :
    Nat → List Token → Except Fault (List (Node String × Node String) × List Token)
  | 0, _ => .error .recursionLimit
  | n + 1, ts =>
    match ts with
    | .blockEnd :: rest => .ok ([], rest)
    | .key :: rest => do
      let (key, rest) ←
        if missingInMapping rest then .ok (empty, rest) else ofTokens handles true true n rest
      let (value, rest) ← match rest with
        | .value :: rest =>
          if missingInMapping rest then .ok (empty, rest) else ofTokens handles true true n rest
        | rest => .ok (empty, rest)
      let (members, rest) ← blockMembers handles n rest
      return ((key, value) :: members, rest)
    | _ => .error .unexpectedToken

/-- The entries of a flow sequence that are left, and its end.  A key opens a mapping with one
member. -/
def flowItems (handles : List (String × Tag)) (first : Bool) :
    Nat → List Token → Except Fault (List (Node String) × List Token)
  | 0, _ => .error .recursionLimit
  | n + 1, ts =>
    match ts with
    | .sequenceEnd :: rest => .ok ([], rest)
    | ts => do
      let ts ← match first, ts with
        | true, ts => .ok ts
        | false, .flowEntry :: rest => .ok rest
        | false, _ => .error .unexpectedToken
      match ts with
      | .sequenceEnd :: rest => return ([], rest)
      | .key :: rest =>
        -- Behind a key without content the next token is passed over, whichever it is.
        let (key, rest) ← match rest with
          | .value :: rest => .ok (empty, rest)
          | .flowEntry :: rest => .ok (empty, rest)
          | .sequenceEnd :: rest => .ok (empty, rest)
          | rest => ofTokens handles false false n rest
        let (value, rest) ← match rest with
          | .value :: .flowEntry :: rest => .ok (empty, .flowEntry :: rest)
          | .value :: .sequenceEnd :: rest => .ok (empty, .sequenceEnd :: rest)
          | .value :: rest => ofTokens handles false false n rest
          | rest => .ok (empty, rest)
        let (items, rest) ← flowItems handles false n rest
        return (.mapping none none [(key, value)] :: items, rest)
      | ts =>
        let (item, rest) ← ofTokens handles false false n ts
        let (items, rest) ← flowItems handles false n rest
        return (item :: items, rest)

/-- The members of a flow mapping that are left, and its end. -/
def flowMembers (handles : List (String × Tag)) (first : Bool) :
    Nat → List Token → Except Fault (List (Node String × Node String) × List Token)
  | 0, _ => .error .recursionLimit
  | n + 1, ts =>
    match ts with
    | .mappingEnd :: rest => .ok ([], rest)
    | ts => do
      let ts ← match first, ts with
        | true, ts => .ok ts
        | false, .flowEntry :: rest => .ok rest
        | false, _ => .error .unexpectedToken
      match ts with
      | .mappingEnd :: rest => return ([], rest)
      | .key :: rest =>
        let noKey := missingInFlow rest || rest.head? == some .value
        let (key, rest) ←
          if noKey then .ok (empty, rest) else ofTokens handles false false n rest
        let (value, rest) ← match rest with
          | .value :: rest =>
            if missingInFlow rest then .ok (empty, rest) else ofTokens handles false false n rest
          | rest => .ok (empty, rest)
        let (members, rest) ← flowMembers handles false n rest
        return ((key, value) :: members, rest)
      | ts =>
        let (key, rest) ← ofTokens handles false false n ts
        let (members, rest) ← flowMembers handles false n rest
        return ((key, empty) :: members, rest)

end

end Node

namespace Document

/-- The handles that the directives in front of a document define, and the tokens behind them. -/
def directives (version : Bool) (handles : List (String × Tag)) :
    List Token → Except Fault (List (String × Tag) × List Token)
  | .version major minor :: rest =>
    if version then .error .duplicateDirective
    else if major = 1 ∧ (minor = 1 ∨ minor = 2) then directives true handles rest
    else .error .incompatibleVersion
  | .tagHandle h start :: rest =>
    if (handles.lookup h).isSome then .error .duplicateDirective
    else directives version (handles ++ [(h, start)]) rest
  | ts => .ok (handles, ts)

/-- The handles that need no directive. -/
def defaultHandles : List (String × Tag) := [("!", .bare), ("!!", .core)]

/-- Whether the token shows that a document has no content. -/
def isEmpty : List Token → Bool
  | [] => true
  | .version .. :: _ => true
  | .tagHandle .. :: _ => true
  | .documentStart :: _ => true
  | .documentEnd :: _ => true
  | _ => false

/-- Nothing may follow the document but its end. -/
def atEnd : List Token → Bool
  | [] => true
  | .documentEnd :: rest => atEnd rest
  | _ => false

/-- The node of a text that holds one document; nothing if it holds none. -/
def ofTokens (ts : List Token) : Except Fault (Option (Node String)) := do
  let fuel := 4 * ts.length + 8
  let explicit := match ts with
    | .version .. :: _ => true
    | .tagHandle .. :: _ => true
    | .documentStart :: _ => true
    | _ => false
  if ts.isEmpty then return none
  else
    let (node, rest) ←
      if explicit then do
        let (handles, ts) ← directives false [] ts
        match ts with
        | .documentStart :: rest =>
          if isEmpty rest then .ok (Node.empty, rest)
          else Node.ofTokens (handles ++ defaultHandles) true false fuel rest
        | _ => .error .unexpectedToken
      else Node.ofTokens defaultHandles true false fuel ts
    if atEnd rest then return some node else .error .severalDocuments

end Document
end LayeredConfig.Yaml
