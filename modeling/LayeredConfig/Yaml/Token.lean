import LayeredConfig.Yaml.Tag

/-! # Scalar tokens

The tokens of YAML, and how the scalars among them are read: quoted, in blocks and plain.

* `Token`              the tokens
* `Gap`                white space inside a scalar, which is folded when text follows
* `Cursor.quoted`      scalars in single or double quotes
* `Cursor.block`       literal and folded blocks
* `Cursor.plain`       scalars without quotes -/

namespace LayeredConfig.Yaml

/-- A token. -/
inductive Token
  | version (major minor : Nat)
  | tagHandle (handle : String) (start : Tag)
  | documentStart
  | documentEnd
  | blockSequenceStart
  | blockMappingStart
  | blockEnd
  | sequenceStart
  | sequenceEnd
  | mappingStart
  | mappingEnd
  | blockEntry
  | flowEntry
  | key
  | value
  | alias (name : String)
  | anchor (name : String)
  | tag (handle : String) (suffix : Tag)
  | scalar (plain : Bool) (text : List Char)
deriving DecidableEq, Repr

/-- White space inside a scalar. -/
structure Gap where
  /-- The blanks before any break. -/
  blanks : List Char
  /-- The first break. -/
  first : List Char
  /-- The breaks after the first. -/
  more : List Char
  /-- Whether there was a break. -/
  broken : Bool

namespace Gap

def empty : Gap := ⟨[], [], [], false⟩

/-- What the white space becomes when text follows: a single line feed folds to a space, more of
them lose the first. -/
def fold (g : Gap) : List Char :=
  if g.broken then
    if g.first = ['\n'] then if g.more.isEmpty then [' '] else g.more
    else g.first ++ g.more
  else g.blanks

end Gap

namespace Cursor

/-- Read blanks and breaks.  Tabs may not stand at the start of a line in a column below `limit`. -/
def gap (limit : Nat) : Nat → Gap → Cursor → Except Fault (Gap × Cursor)
  | 0, g, c => .ok (g, c)
  | n + 1, g, c =>
    if isBlank c.head then
      if g.broken then
        if c.head = '\t' && c.column < limit then .error .tabIndentation
        else gap limit n g (c.skip 1)
      else gap limit n { g with blanks := g.blanks ++ [c.head] } (c.skip 1)
    else if isBreak c.head then
      let (l, c) := c.readLine
      if g.broken then gap limit n { g with more := g.more ++ l } c
      else gap limit n ⟨[], l, g.more, true⟩ c
    else .ok (g, c)

/-! ## Quoted scalars -/

/-- The character of a one-letter escape. -/
def escape? : Char → Option Char
  | '0' => some '\x00'
  | 'a' => some '\x07'
  | 'b' => some '\x08'
  | 't' => some '\t'
  | '\t' => some '\t'
  | 'n' => some '\n'
  | 'v' => some '\x0b'
  | 'f' => some '\x0c'
  | 'r' => some '\r'
  | 'e' => some '\x1b'
  | ' ' => some ' '
  | '"' => some '"'
  | '/' => some '/'
  | '\\' => some '\\'
  | 'N' => some '\x85'
  | '_' => some '\xa0'
  | 'L' => some '\u2028'
  | 'P' => some '\u2029'
  | _ => none

/-- The number of hexadecimal digits after an escape letter. -/
def escapeLength? : Char → Option Nat
  | 'x' => some 2
  | 'u' => some 4
  | 'U' => some 8
  | _ => none

/-- The escape at the cursor, and the cursor behind it. -/
def escaped (c : Cursor) : Except Fault (Char × Cursor) :=
  match escape? (c.ahead 1) with
  | some x => .ok (x, c.skip 2)
  | none =>
    match escapeLength? (c.ahead 1) with
    | none => .error .invalidEscape
    | some n =>
      let ds := (c.rest.drop 2).take n
      match ds.foldlM (fun v d => (hexDigit? d).map (v * 16 + ·)) 0 with
      | some v =>
        if ds.length = n && v.isValidChar then .ok (Char.ofNat v, c.skip (2 + n))
        else .error .invalidEscape
      | none => .error .invalidEscape

/-- Read a run without white space, up to the closing quote.  The text so far is `acc`, the last
character first.  The result also tells whether an escaped break ended the run. -/
def quotedRun (single : Bool) : Nat → List Char → Cursor → Except Fault (List Char × Bool × Cursor)
  | 0, acc, c => .ok (acc, false, c)
  | n + 1, acc, c =>
    if c.blankAhead 0 then .ok (acc, false, c)
    else if single && c.ahead 0 = '\'' && c.ahead 1 = '\'' then
      quotedRun single n ('\'' :: acc) (c.skip 2)
    else if c.head = (if single then '\'' else '"') then .ok (acc, false, c)
    else if !single && c.head = '\\' && isBreak (c.ahead 1) then
      .ok (acc, true, (c.skip 1).skipLine)
    else if !single && c.head = '\\' then
      match c.escaped with
      | .ok (x, c) => quotedRun single n (x :: acc) c
      | .error e => .error e
    else quotedRun single n (c.head :: acc) (c.skip 1)

/-- Read runs and white space up to the closing quote. -/
def quotedFrom (single : Bool) : Nat → List Char → Cursor → Except Fault (List Char × Cursor)
  | 0, _, _ => .error .unfinishedScalar
  | n + 1, acc, c =>
    if c.atDocumentMarker || c.atEnd then .error .unfinishedScalar
    else do
      let (acc, broken, c) ← quotedRun single n acc c
      if !broken && c.head = (if single then '\'' else '"') then .ok (acc.reverse, c.skip 1)
      else
        -- An escaped break counts as a break that leaves nothing.
        let (g, c) ← c.gap 0 n { Gap.empty with broken }
        quotedFrom single n (g.fold.reverse ++ acc) c

/-- The quoted scalar at the cursor. -/
def quoted (c : Cursor) (single : Bool) : Except Fault (List Char × Cursor) :=
  quotedFrom single (c.rest.length + 1) [] (c.skip 1)

/-! ## Block scalars -/

/-- Which breaks at the end of a block belong to it. -/
inductive Chomping
  | strip
  | clip
  | keep
deriving DecidableEq, Repr

/-- The header of a block after its indicator: chomping and explicit indentation, in any order. -/
def blockHeader (c : Cursor) : Except Fault (Chomping × Option Nat × Cursor) :=
  let chomping (c : Cursor) : Chomping × Cursor :=
    if c.head = '+' then (.keep, c.skip 1)
    else if c.head = '-' then (.strip, c.skip 1)
    else (.clip, c)
  let indentation (c : Cursor) : Except Fault (Option Nat × Cursor) :=
    if isDigit c.head then
      if c.head = '0' then .error .malformedBlockHeader
      else .ok (some (c.head.toNat - 48), c.skip 1)
    else .ok (none, c)
  if c.head = '+' || c.head = '-' then do
    let (ch, c) := chomping c
    let (i, c) ← indentation c
    return (ch, i, c)
  else do
    let (i, c) ← indentation c
    let (ch, c) := if i.isSome then chomping c else (.clip, c)
    return (ch, i, c)

/-- Over indentation and empty lines, up to a line with content.  While `indent` is absent every
space indents; the widest indentation seen is `widest`. -/
def emptyLines (indent : Option Nat) :
    Nat → Nat → List Char → Cursor → Except Fault (Nat × List Char × Cursor)
  | 0, widest, breaks, c => .ok (widest, breaks, c)
  | n + 1, widest, breaks, c =>
    let run := (c.rest.takeWhile (· == ' ')).length
    let c := c.skip (match indent with
      | some i => min run (i - c.column)
      | none => run)
    let widest := max widest c.column
    if c.head = '\t' && indent.all (c.column < ·) then .error .tabIndentation
    else if isBreak c.head then
      let (l, c) := c.readLine
      emptyLines indent n widest (breaks ++ l) c
    else .ok (widest, breaks, c)

/-- What was read of a block before a line with content. -/
structure BlockState where
  /-- The text, the last character first. -/
  text : List Char
  /-- The break at the end of the text. -/
  first : List Char
  /-- The breaks of the empty lines after it. -/
  more : List Char
  /-- Whether the last line with content starts with a blank. -/
  blank : Bool

/-- The text when another line with content follows.  A folded block joins lines by a space unless
one of them starts with a blank. -/
def BlockState.join (st : BlockState) (literal blank : Bool) : List Char :=
  let first :=
    if !literal && st.first = ['\n'] && !st.blank && !blank then
      if st.more.isEmpty then [' '] else []
    else st.first
  st.more.reverse ++ first.reverse ++ st.text

/-- Read lines with content while they stand at column `indent`. -/
def blockLines (literal : Bool) (indent : Nat) :
    Nat → BlockState → Cursor → Except Fault (BlockState × Cursor)
  | 0, st, c => .ok (st, c)
  | n + 1, st, c =>
    if c.column = indent && !c.atEnd then do
      let blank := isBlank c.head
      let text := st.join literal blank
      let run := c.rest.takeWhile fun x => !isBreak x
      let (first, c) := (c.skip run.length).readLine
      let (_, more, c) ← emptyLines (some indent) n 0 [] c
      blockLines literal indent n ⟨run.reverse ++ text, first, more, blank⟩ c
    else .ok (st, c)

/-- The block scalar at the cursor, inside a block at column `parent` or in none. -/
def block (c : Cursor) (literal : Bool) (parent : Option Nat) : Except Fault (List Char × Cursor) := do
  let fuel := c.rest.length + 1
  let (chomping, explicit, c) ← (c.skip 1).blockHeader
  let c := c.skipComment
  if !c.atLineEnd then .error .malformedBlockHeader
  else
    let c := c.skipLine
    -- An explicit width counts from the block around.
    let fixed := explicit.map (· + parent.getD 0)
    let (widest, more, c) ← emptyLines fixed fuel 0 [] c
    -- Without one the first line with content decides, but it has to stand further in.
    let indent := fixed.getD (max widest (max 1 (match parent with
      | some p => p + 1
      | none => 0)))
    let (st, c) ← blockLines literal indent fuel ⟨[], [], more, false⟩ c
    let tail := match chomping with
      | .strip => []
      | .clip => st.first
      | .keep => st.first ++ st.more
    return (st.text.reverse ++ tail, c)

/-! ## Plain scalars -/

/-- Whether a plain scalar ends before the character at the cursor. -/
def endsPlain (c : Cursor) (flow : Bool) : Bool :=
  (c.head == ':' && c.blankAhead 1) ||
    (flow && (c.head == ',' || c.head == '[' || c.head == ']' || c.head == '\x7b' ||
      c.head == '\x7d'))

/-- Whether a colon stands where flow collections admit none. -/
def badColon (c : Cursor) (flow : Bool) : Bool :=
  let x := c.ahead 1
  flow && c.head == ':' &&
    (x == ',' || x == '?' || x == '[' || x == ']' || x == '\x7b' || x == '\x7d')

/-- Read a run without white space; the gap before it becomes part of the text. -/
def plainRun (flow : Bool) : Nat → List Char → Gap → Cursor → Except Fault (List Char × Gap × Cursor)
  | 0, acc, g, c => .ok (acc, g, c)
  | n + 1, acc, g, c =>
    if c.blankAhead 0 then .ok (acc, g, c)
    else if c.badColon flow then .error .unexpectedColon
    else if c.endsPlain flow then .ok (acc, g, c)
    else plainRun flow n (c.head :: (g.fold.reverse ++ acc)) .empty (c.skip 1)

/-- Read runs and white space while the lines are indented by `limit`.  The result also tells
whether a break was read after the scalar. -/
def plainFrom (flow : Bool) (limit : Nat) :
    Nat → List Char → Gap → Cursor → Except Fault (List Char × Bool × Cursor)
  | 0, acc, g, c => .ok (acc.reverse, g.broken, c)
  | n + 1, acc, g, c =>
    if c.atDocumentMarker || c.head = '#' then .ok (acc.reverse, g.broken, c)
    else do
      let (acc, g, c) ← plainRun flow n acc g c
      if !(isBlank c.head || isBreak c.head) then .ok (acc.reverse, g.broken, c)
      else
        let (g, c) ← c.gap limit n g
        if !flow && c.column < limit then .ok (acc.reverse, g.broken, c)
        else plainFrom flow limit n acc g c

/-- The plain scalar at the cursor, whose further lines are indented by `limit`. -/
def plain (c : Cursor) (flow : Bool) (limit : Nat) : Except Fault (List Char × Bool × Cursor) :=
  plainFrom flow limit (c.rest.length + 1) [] .empty c

end Cursor
end LayeredConfig.Yaml
