import LayeredConfig.Yaml.Token

/-! # Tokens of a text

The lexer turns indentation into tokens that open and close blocks.  A scalar that may turn out to
be a key is remembered by its place among the tokens, and the tokens that make it a key are put in
front of it when its colon is found.

* `Lexer`         the state
* `Lexer.next`    the next token, with the block tokens that come with it
* `tokens`        the tokens of a text -/

namespace LayeredConfig.Yaml

/-- A token that may turn out to be a key. -/
structure PossibleKey where
  /-- Whether nothing else may stand there. -/
  required : Bool
  /-- The number of tokens before it. -/
  number : Nat
  index : Nat
  line : Nat
  column : Nat

/-- The state of the lexer. -/
structure Lexer where
  cursor : Cursor
  /-- The tokens so far, the last first. -/
  tokens : List Token
  /-- How many there are. -/
  count : Nat
  /-- The columns of the open blocks, the innermost first. -/
  blocks : List Nat
  /-- The possible keys: of the innermost flow collection first, of the block context last. -/
  keys : List (Option PossibleKey)
  /-- Whether a key may start here. -/
  keyAllowed : Bool

namespace Lexer

/-- The state at the start of a text. -/
def start (text : List Char) : Lexer := ⟨⟨text, 0, 0, 0⟩, [], 0, [], [none], true⟩

/-- Whether the lexer is inside a flow collection. -/
def inFlow (lx : Lexer) : Bool := 1 < lx.keys.length

/-- Whether the innermost block stands at a column to the left of `column`. -/
def indentBelow (lx : Lexer) (column : Nat) : Bool := lx.blocks.head?.all (· < column)

def push (lx : Lexer) (t : Token) : Lexer :=
  { lx with tokens := t :: lx.tokens, count := lx.count + 1 }

/-- Put a token before the `number`th. -/
def pushAt (lx : Lexer) (number : Nat) (t : Token) : Lexer :=
  let later := lx.count - number
  { lx with
    tokens := lx.tokens.take later ++ t :: lx.tokens.drop later
    count := lx.count + 1 }

/-! ## Blocks -/

/-- Open a block at a column to the right of the innermost one; its first token goes before the
`number`th. -/
def openBlock (lx : Lexer) (column number : Nat) (t : Token) : Lexer :=
  if !lx.inFlow && lx.indentBelow column then
    { lx.pushAt number t with blocks := column :: lx.blocks }
  else lx

/-- Close the blocks to the right of `column`; all of them if it is absent. -/
def closeBlocks (lx : Lexer) (column : Option Nat) : Lexer :=
  if lx.inFlow then lx
  else
    let closed := lx.blocks.takeWhile fun b => column.all (· < b)
    { lx with
      tokens := closed.map (fun _ => .blockEnd) ++ lx.tokens
      count := lx.count + closed.length
      blocks := lx.blocks.drop closed.length }

/-! ## Possible keys -/

/-- Forget the possible key of the innermost context. -/
def dropKey (lx : Lexer) : Except Fault Lexer :=
  match lx.keys with
  | some k :: rest =>
    if k.required then .error .unfinishedKey else .ok { lx with keys := none :: rest }
  | _ => .ok lx

/-- Remember the next token as a possible key, if a key may start here. -/
def saveKey (lx : Lexer) : Except Fault Lexer := do
  if lx.keyAllowed then
    let lx ← lx.dropKey
    let c := lx.cursor
    -- At the column of an open block there can be nothing but the next key.
    let key : PossibleKey :=
      { required := !lx.inFlow && lx.blocks.head? == some c.column
        number := lx.count
        index := c.index
        line := c.line
        column := c.column }
    return { lx with keys := some key :: lx.keys.tail }
  else return lx

/-- Whether a possible key can no longer be one: keys stand on one line and are not long. -/
def isStale (k : PossibleKey) (c : Cursor) : Bool := k.line < c.line || k.index + 1024 < c.index

/-- Forget the possible keys that can no longer be keys. -/
def dropStaleKeys (lx : Lexer) : Except Fault Lexer :=
  let stale (k : Option PossibleKey) : Bool := k.any (isStale · lx.cursor)
  if lx.keys.any fun k => stale k && k.any PossibleKey.required then .error .unfinishedKey
  else .ok { lx with keys := lx.keys.map fun k => if stale k then none else k }

/-! ## White space -/

/-- Over white space, comments and breaks.  A break outside flow collections lets a key start; tabs
are white space only where none may. -/
def skipSpace : Nat → Lexer → Lexer
  | 0, lx => lx
  | n + 1, lx =>
    let c := lx.cursor
    -- A byte order mark may start any line.
    let c := if c.column == 0 && c.head == '\ufeff' then c.skip 1 else c
    let tabs := lx.inFlow || !lx.keyAllowed
    let c := c.skipWhile fun x => x == ' ' || (tabs && x == '\t')
    let c := if c.head = '#' then c.skipWhile fun x => !isBreak x else c
    if isBreak c.head then
      skipSpace n { lx with cursor := c.skipLine, keyAllowed := lx.keyAllowed || !lx.inFlow }
    else { lx with cursor := c }

/-! ## Tags, anchors, directives -/

/-- The tag at the cursor: verbatim, with a named handle, or with the primary one. -/
def tag (c : Cursor) : Except Fault (Token × Cursor) :=
  if c.ahead 1 = '<' then do
    let (bytes, c) ← Tag.read (c.skip 2) true
    if bytes.isEmpty || c.head ≠ '>' then .error .malformedTag
    else return (.tag "" (.ofBytes bytes), c.skip 1)
  else
    let name := (c.rest.drop 1).takeWhile isWord
    let behind := c.skip (1 + name.length)
    if behind.head = '!' then do
      let (bytes, c) ← Tag.read (behind.skip 1) false
      if bytes.isEmpty then .error .malformedTag
      else return (.tag (.ofList ('!' :: name ++ ['!'])) (.ofBytes bytes), c)
    else do
      -- What looked like the name of a handle belongs to the tag.
      let (bytes, c) ← Tag.read (c.skip 1) false
      let suffix := Tag.ofBytes bytes
      return (if suffix.isEmpty then .tag "" .bare else .tag "!" suffix, c)

/-- The name of an anchor or alias, behind its indicator. -/
def anchorName (c : Cursor) : Except Fault (String × Cursor) :=
  let name := c.rest.takeWhile isWord
  let behind := c.skip name.length
  if name.isEmpty || !(behind.blankAhead 0 || "?:,]\x7d%@`".toList.contains behind.head) then
    .error .malformedAnchor
  else .ok (.ofList name, behind)

/-- A number of at most nine digits. -/
def versionNumber (c : Cursor) : Except Fault (Nat × Cursor) :=
  let ds := c.rest.takeWhile isDigit
  if ds.isEmpty || 9 < ds.length then .error .malformedDirective
  else .ok (ds.foldl (fun n d => 10 * n + (d.toNat - 48)) 0, c.skip ds.length)

/-- The value of a version directive. -/
def versionDirective (c : Cursor) : Except Fault (Token × Cursor) := do
  let (major, c) ← versionNumber (c.skipWhile isBlank)
  if c.head ≠ '.' then .error .malformedDirective
  else
    let (minor, c) ← versionNumber (c.skip 1)
    return (.version major minor, c)

/-- The value of a tag directive: a handle and what it stands for. -/
def tagDirective (c : Cursor) : Except Fault (Token × Cursor) := do
  let c := c.skipWhile isBlank
  let name := (c.rest.drop 1).takeWhile isWord
  let behind := c.skip (1 + name.length)
  let closed := behind.head == '!'
  if c.head ≠ '!' || (!closed && !name.isEmpty) then .error .malformedDirective
  else
    let handle := if closed then '!' :: name ++ ['!'] else ['!']
    let c := if closed then behind.skip 1 else behind
    if !isBlank c.head then .error .malformedDirective
    else
      let (bytes, c) ← Tag.read (c.skipWhile isBlank) true
      if bytes.isEmpty || !c.blankAhead 0 then .error .malformedDirective
      else return (.tagHandle (.ofList handle) (.ofBytes bytes), c)

/-- The directive at the cursor, up to the end of its line. -/
def directive (c : Cursor) : Except Fault (Token × Cursor) := do
  let name := (c.rest.drop 1).takeWhile isWord
  let behind := c.skip (1 + name.length)
  if name.isEmpty || !behind.blankAhead 0 then .error .malformedDirective
  else
    let (t, c) ← match String.ofList name with
      | "YAML" => versionDirective behind
      | "TAG" => tagDirective behind
      | _ => .error .malformedDirective
    let c := c.skipComment
    if c.atLineEnd then return (t, c.skipLine) else .error .malformedDirective

/-! ## Tokens -/

/-- A one-character token, after which a key may start or not. -/
def single (lx : Lexer) (t : Token) (keyAllowed : Bool) : Lexer :=
  { lx.push t with cursor := lx.cursor.skip 1, keyAllowed }

/-- A token read from the cursor, which may be a key. -/
def keyToken (lx : Lexer) (read : Cursor → Except Fault (Token × Cursor)) : Except Fault Lexer := do
  let lx ← lx.saveKey
  let (t, c) ← read lx.cursor
  return { lx.push t with cursor := c, keyAllowed := false }

/-- The start of a flow collection. -/
def openFlow (lx : Lexer) (t : Token) : Except Fault Lexer := do
  let lx ← lx.saveKey
  return { lx.single t true with keys := none :: lx.keys }

/-- The end of a flow collection. -/
def closeFlow (lx : Lexer) (t : Token) : Except Fault Lexer := do
  let lx ← lx.dropKey
  return { lx.single t false with keys := if lx.inFlow then lx.keys.tail else lx.keys }

/-- An entry of a block sequence. -/
def blockEntry (lx : Lexer) : Except Fault Lexer :=
  if !lx.inFlow && !lx.keyAllowed then .error .misplacedIndicator
  else do
    let lx ← (lx.openBlock lx.cursor.column lx.count .blockSequenceStart).dropKey
    return lx.single .blockEntry true

/-- An explicit key. -/
def explicitKey (lx : Lexer) : Except Fault Lexer :=
  if !lx.inFlow && !lx.keyAllowed then .error .misplacedIndicator
  else do
    let lx ← (lx.openBlock lx.cursor.column lx.count .blockMappingStart).dropKey
    return lx.single .key !lx.inFlow

/-- A value: of the possible key, which thereby becomes one, or of an explicit or missing key. -/
def value (lx : Lexer) : Except Fault Lexer :=
  match lx.keys with
  | some k :: rest =>
    -- The key turns out to be one: its tokens, and the block it opens, go in front of it.
    let lx := { lx.pushAt k.number .key with keys := none :: rest }
    .ok ((lx.openBlock k.column k.number .blockMappingStart).single .value false)
  | _ =>
    if !lx.inFlow && !lx.keyAllowed then .error .misplacedIndicator
    else
      let lx := lx.openBlock lx.cursor.column lx.count .blockMappingStart
      .ok (lx.single .value !lx.inFlow)

/-- A plain scalar.  A break after it lets a key start. -/
def plainScalar (lx : Lexer) : Except Fault Lexer := do
  let lx ← lx.saveKey
  let limit := match lx.blocks.head? with
    | some b => b + 1
    | none => 0
  let (s, broken, c) ← lx.cursor.plain lx.inFlow limit
  return { lx.push (.scalar true s) with cursor := c, keyAllowed := broken }

/-- A block scalar. -/
def blockScalar (lx : Lexer) (literal : Bool) : Except Fault Lexer := do
  let lx ← lx.dropKey
  let (s, c) ← lx.cursor.block literal lx.blocks.head?
  return { lx.push (.scalar false s) with cursor := c, keyAllowed := true }

/-- A token that stands between blocks. -/
def topLevel (lx : Lexer) : Except Fault Lexer := do
  let lx ← (lx.closeBlocks none).dropKey
  return { lx with keyAllowed := false }

/-- Whether a plain scalar may start at the cursor. -/
def startsPlain (c : Cursor) (flow : Bool) : Bool :=
  (!c.blankAhead 0 && !"-?:,[]\x7b\x7d#&*!|>'\"%@`".toList.contains c.head) ||
    (c.head == '-' && !isBlank (c.ahead 1)) ||
    (!flow && (c.head == '?' || c.head == ':') && !c.blankAhead 1)

/-- The token that starts at the cursor. -/
def token (lx : Lexer) : Except Fault Lexer :=
  let c := lx.cursor
  let flow := lx.inFlow
  if c.column == 0 && c.head == '%' then do
    let lx ← lx.topLevel
    let (t, c) ← directive c
    return { lx.push t with cursor := c }
  else if c.atMarker '-' then do
    let lx ← lx.topLevel
    return { lx.push .documentStart with cursor := c.skip 3 }
  else if c.atMarker '.' then do
    let lx ← lx.topLevel
    return { lx.push .documentEnd with cursor := c.skip 3 }
  else match c.head with
    | '[' => lx.openFlow .sequenceStart
    | '\x7b' => lx.openFlow .mappingStart
    | ']' => lx.closeFlow .sequenceEnd
    | '\x7d' => lx.closeFlow .mappingEnd
    | ',' => do return (← lx.dropKey).single .flowEntry true
    | '*' => lx.keyToken fun c => do
        let (name, c) ← anchorName (c.skip 1)
        return (.alias name, c)
    | '&' => lx.keyToken fun c => do
        let (name, c) ← anchorName (c.skip 1)
        return (.anchor name, c)
    | '!' => lx.keyToken fun c => do
        let (t, c) ← tag c
        if c.blankAhead 0 || (flow && c.head == ',') then return (t, c) else .error .malformedTag
    | '\'' => lx.keyToken fun c => do
        let (s, c) ← c.quoted true
        return (.scalar false s, c)
    | '"' => lx.keyToken fun c => do
        let (s, c) ← c.quoted false
        return (.scalar false s, c)
    | x =>
      if x = '-' && c.blankAhead 1 then lx.blockEntry
      else if x = '?' && (flow || c.blankAhead 1) then lx.explicitKey
      else if x = ':' && (flow || c.blankAhead 1) then lx.value
      else if x = '|' && !flow then lx.blockScalar true
      else if x = '>' && !flow then lx.blockScalar false
      else if startsPlain c flow then lx.plainScalar
      else .error .unexpectedCharacter

/-- The next token.  At the end of the text all blocks are closed, and the result is `true`. -/
def next (lx : Lexer) : Except Fault (Bool × Lexer) := do
  let lx ← (lx.skipSpace (lx.cursor.rest.length + 1)).dropStaleKeys
  -- The column of the next token tells which blocks have ended.
  let lx := lx.closeBlocks (some lx.cursor.column)
  if lx.cursor.atEnd then
    return (true, ← lx.topLevel)
  else return (false, ← lx.token)

/-- Read tokens until the text ends.  Each takes at least one character. -/
def run : Nat → Lexer → Except Fault Lexer
  | 0, lx => .ok lx
  | n + 1, lx => do
    let (done, lx) ← lx.next
    if done then return lx else run n lx

end Lexer

/-- The tokens of a text. -/
def tokens (text : List Char) : Except Fault (List Token) := do
  let lx ← (Lexer.start text).run (text.length + 1)
  return lx.tokens.reverse

end LayeredConfig.Yaml
