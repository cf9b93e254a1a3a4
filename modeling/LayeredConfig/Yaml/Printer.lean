import LayeredConfig.Yaml.Scalar
import LayeredConfig.Json.Printer

/-! # YAML text

Documents in block style.  Strings are plain where that is safe, quoted where they would be taken
for something else, and literal blocks where they have several lines; lines are never folded.

* `Yaml.Traits`    what a string's characters allow
* `Yaml.Style`     the styles, and `Style.choose` for a string
* `Yaml.print`     the text of a document -/

namespace LayeredConfig.Yaml

/-- Floating-point numbers are positional from `0.00001` to below `10 ^ 16`, and exponents carry no
plus sign. -/
def layout : Layout := ⟨-5, 15, false⟩

/-! ## Styles -/

/-- Whether a character may be written as itself. -/
def isPrintable (c : Char) : Bool :=
  let n := c.toNat
  n == 0x0a || (0x20 ≤ n && n ≤ 0x7e) || (0xa0 ≤ n && n ≤ 0xfffd && n != 0xfeff) || 0x10000 ≤ n

/-- Whether a neighbouring character is white space, or missing. -/
def isGap (c : Option Char) : Bool := c.all fun c => isBlank c || isBreak c || c == '\x00'

/-- Whether a plain scalar may not hold `c` between `before` and `after`. -/
def isIndicator (before : Option Char) (c : Char) (after : Option Char) : Bool :=
  match before with
  | none =>
    "#,[]\x7b\x7d&*!|>'\"%@`".toList.contains c ||
      ((c == '?' || c == ':' || c == '-') && isGap after)
  | some b => (c == ':' && isGap after) || (c == '#' && isGap (some b))

/-- Whether two neighbours satisfy `p`. -/
def anyPair (p : Char → Char → Bool) : List Char → Bool
  | a :: b :: rest => p a b || anyPair p (b :: rest)
  | _ => false

/-- Whether a character with its neighbours satisfies `p`. -/
def anyTriple (p : Option Char → Char → Option Char → Bool) : Option Char → List Char → Bool
  | _, [] => false
  | before, c :: rest => p before c rest.head? || anyTriple p (some c) rest

/-- What the characters of a string allow. -/
structure Traits where
  /-- Whether the string has a break. -/
  multiline : Bool
  plain : Bool
  singleQuoted : Bool
  block : Bool

/-- The traits of a string. -/
def Traits.of (s : List Char) : Traits :=
  let breakSpace := anyPair (fun a b => isBreak a && b == ' ') s
  let spaceBreak := anyPair (fun a b => a == ' ' && isBreak b) s
  let special := s.any fun c => !isPrintable c
  let edge (c : Option Char) : Bool := c.any fun c => c == ' ' || isBreak c
  let multiline := s.any isBreak
  let marker := "---".toList.isPrefixOf s || "...".toList.isPrefixOf s
  { multiline
    plain := !(edge s.head? || edge s.getLast? || breakSpace || spaceBreak || special ||
      multiline || marker || anyTriple isIndicator none s)
    singleQuoted := !(breakSpace || spaceBreak || special)
    block := !(s.isEmpty || s.getLast? == some ' ' || spaceBreak || special) }

/-- The style of a scalar. -/
inductive Style
  | plain
  | singleQuoted
  | doubleQuoted
  | literal
deriving DecidableEq, Repr

/-- The style of a string; `key` says that it stands in front of a colon on its line. -/
def Style.choose (key : Bool) (s : List Char) : Style :=
  let t := Traits.of s
  let quoted : Style := if t.singleQuoted then .singleQuoted else .doubleQuoted
  if key && t.multiline then .doubleQuoted
  -- A line feed asks for a literal block, and for escapes where a block cannot hold the text.
  else if s.contains '\n' then if t.block && !key then .literal else .doubleQuoted
  else if isAmbiguous s then quoted
  else if t.plain then .plain
  else quoted

/-! ## Scalars -/

def spaces (n : Nat) : List Char := List.replicate n ' '

/-- The inside of a single-quoted string.  After a break the text goes on at column `indent`. -/
def singleQuotedFrom (indent : Nat) : Bool → List Char → List Char
  | broken, [] => if broken then spaces indent else []
  | broken, c :: rest =>
    if isBreak c then c :: singleQuotedFrom indent true rest
    else
      (if broken then spaces indent else []) ++ (if c = '\'' then ['\'', '\''] else [c]) ++
        singleQuotedFrom indent false rest

/-- `n` in base sixteen with `width` digits, in capitals. -/
def hex (width n : Nat) : List Char :=
  let ds := (Nat.toDigits 16 n).map Char.toUpper
  List.replicate (width - ds.length) '0' ++ ds

/-- The letter that escapes a character. -/
def escapeLetter? (c : Char) : Option Char :=
  match c with
  | '\x00' => some '0'
  | '\x07' => some 'a'
  | '\x08' => some 'b'
  | '\t' => some 't'
  | '\n' => some 'n'
  | '\x0b' => some 'v'
  | '\x0c' => some 'f'
  | '\r' => some 'r'
  | '\x1b' => some 'e'
  | '"' => some '"'
  | '\\' => some '\\'
  | '\x85' => some 'N'
  | '\xa0' => some '_'
  | '\u2028' => some 'L'
  | '\u2029' => some 'P'
  | _ => none

/-- A character of a double-quoted string. -/
def escape (c : Char) : List Char :=
  if isPrintable c && !isBreak c && c != '"' && c != '\\' then [c]
  else match escapeLetter? c with
    | some l => ['\\', l]
    | none =>
      let n := c.toNat
      if n ≤ 0xff then '\\' :: 'x' :: hex 2 n
      else if n ≤ 0xffff then '\\' :: 'u' :: hex 4 n
      else '\\' :: 'U' :: hex 8 n

/-- What the header of a literal block says about the indentation and the last breaks: an explicit
width if the text starts with white space, and whether it ends with no break, one, or more. -/
def literalHints (s : List Char) : List Char :=
  let width := match s with
    | c :: _ => if c == ' ' || isBreak c then ['2'] else []
    | [] => []
  let chomping := match s.reverse with
    | [] => ['-']
    | [c] => if isBreak c then ['+'] else ['-']
    | c :: d :: _ => if !isBreak c then ['-'] else if isBreak d then ['+'] else []
  width ++ chomping

/-- The lines of a literal block at column `indent`; empty lines are not indented. -/
def literalLines (indent : Nat) : Bool → List Char → List Char
  | _, [] => []
  | fresh, c :: rest =>
    if isBreak c then c :: literalLines indent true rest
    else (if fresh then spaces indent else []) ++ c :: literalLines indent false rest

/-- Text, and whether it ends at the start of a line. -/
structure Chunk where
  text : List Char
  fresh : Bool

/-- A string at a place whose further lines stand at column `indent`. -/
def stringChunk (key : Bool) (indent : Nat) (s : List Char) : Chunk :=
  match Style.choose key s with
  | .plain => ⟨s, false⟩
  | .singleQuoted => ⟨'\'' :: singleQuotedFrom indent false s ++ ['\''], false⟩
  | .doubleQuoted => ⟨'"' :: s.flatMap escape ++ ['"'], false⟩
  | .literal =>
    ⟨'|' :: literalHints s ++ '\n' :: literalLines indent true s, s.getLast?.any isBreak⟩

/-! ## Documents -/

/-- Go on at column `indent` of a new line. -/
def Chunk.newLine (c : Chunk) (indent : Nat) : List Char :=
  c.text ++ (if c.fresh then [] else ['\n']) ++ spaces indent

/-- A key that fits in front of a colon: one line of at most 128 bytes. -/
def isSimpleKey (k : List Char) : Bool :=
  !(Traits.of k).multiline && byteCount k ≤ 128

/-- A key of a mapping at column `indent`, with its colon.  Keys that do not fit before the colon
stand on lines of their own. -/
def keyText (indent : Nat) (k : List Char) : List Char :=
  if isSimpleKey k then (stringChunk true (indent + 2) k).text ++ [':']
  else
    let c := stringChunk false (indent + 2) k
    Chunk.newLine ⟨"? ".toList ++ c.text, c.fresh⟩ indent ++ [':']

/-- Where an entry of a collection stands. -/
structure Place where
  /-- The indicator or key in front of it. -/
  lead : List Char
  /-- Whether collections start on the same line. -/
  inline : Bool
  /-- The column of sequences. -/
  items : Nat
  /-- The column of mappings, and of further lines of scalars. -/
  members : Nat

/-- An item of a sequence at column `indent`. -/
def Place.item (indent : Nat) : Place := ⟨['-'], true, indent + 2, indent + 2⟩

/-- The value of a key in a mapping at column `indent`.  Behind a key on the same line collections
start on a new line, sequences at the column of the key. -/
def Place.member (indent : Nat) (k : String) : Place :=
  let simple := isSimpleKey k.toList
  ⟨keyText indent k.toList, !simple, if simple then indent else indent + 2, indent + 2⟩

/-- The text in front of a collection at column `indent`. -/
def Place.start (p : Place) (indent : Nat) : List Char :=
  p.lead ++ if p.inline then [' '] else '\n' :: spaces indent

/-- A scalar or an empty collection, whose further lines stand at column `indent`. -/
def leafChunk (indent : Nat) : Json → Chunk
  | .null => ⟨"null".toList, false⟩
  | .bool b => ⟨Json.boolText b, false⟩
  | .number (.integer i _) => ⟨Numeral.ofInt i, false⟩
  | .number (.real x _) => ⟨(layout.write x).toList, false⟩
  | .string s => stringChunk false indent s.toList
  | .array _ => ⟨['[', ']'], false⟩
  | .object _ => ⟨['\x7b', '\x7d'], false⟩

mutual

/-- An entry of a collection, with what stands in front of it. -/
def entryChunk (p : Place) : Json → Chunk
  | .array (item :: rest) =>
    let c := itemsChunk p.items (entryChunk (.item p.items) item) rest
    ⟨p.start p.items ++ c.text, c.fresh⟩
  | .object (.cons k v _ rest) =>
    let c := membersChunk p.members (entryChunk (.member p.members k) v) rest
    ⟨p.start p.members ++ c.text, c.fresh⟩
  | v =>
    let c := leafChunk p.members v
    ⟨p.lead ++ ' ' :: c.text, c.fresh⟩

/-- The items of a sequence at column `indent`, after those in `written`. -/
def itemsChunk (indent : Nat) (written : Chunk) : List Json → Chunk
  | [] => written
  | item :: rest =>
    let c := entryChunk (.item indent) item
    itemsChunk indent ⟨written.newLine indent ++ c.text, c.fresh⟩ rest

/-- The members of a mapping at column `indent`, after those in `written`. -/
def membersChunk (indent : Nat) (written : Chunk) {lo : Option String} :
    Entries String Json lo → Chunk
  | .nil => written
  | .cons k v _ rest =>
    let c := entryChunk (.member indent k) v
    membersChunk indent ⟨written.newLine indent ++ c.text, c.fresh⟩ rest

end

/-- A document at the first column. -/
def documentChunk : Json → Chunk
  | .array (item :: rest) => itemsChunk 0 (entryChunk (.item 0) item) rest
  | .object (.cons k v _ rest) => membersChunk 0 (entryChunk (.member 0 k) v) rest
  | v => leafChunk 2 v

/-- The text of a document, which ends at the start of a line. -/
def print (j : Json) : String := .ofList ((documentChunk j).newLine 0)

end LayeredConfig.Yaml
