import LayeredConfig.Yaml.Cursor
import LayeredConfig.Yaml.Fault

/-! # Tags

What a tag says about the node behind it.  A tag is raw text, for its escapes stand for bytes, and
bytes need not make characters.

* `Tag`             a tag, or the start or the rest of one
* `Tag.unescape`    the bytes of a written tag
* `Tag.name?`       the text of a tag
* `Tag.isCustom`    whether a document gives a tag a meaning of its own -/

namespace LayeredConfig.Yaml

/-- A tag, or the start or the rest of one. -/
structure Tag where
  text : RawText
deriving DecidableEq, Repr

namespace Tag

def ofString (s : String) : Tag := ⟨.ofString s⟩

/-- The tag that some bytes write.  It ends before the first null byte. -/
def ofBytes (bytes : List UInt8) : Tag := ⟨.decode (bytes.takeWhile (· ≠ 0))⟩

def isEmpty (t : Tag) : Bool := t.text.isEmpty

/-- The tag of which `start` is the start and `rest` is the rest. -/
def append (start rest : Tag) : Tag := ⟨start.text ++ rest.text⟩

/-- The tag `!` alone, which asks for no type. -/
def bare : Tag := .ofString "!"

/-- The start of the tags that every document knows. -/
def core : Tag := .ofString "tag:yaml.org,2002:"

/-- The text of a tag, if its bytes are characters. -/
def name? (t : Tag) : Option String := t.text.toString?

/-- Whether a tag starts like those that a document defines. -/
def isLocal (t : Tag) : Bool := t.text.head? == some (.char '!')

/-- Whether a document gives a tag a meaning of its own.  A tag that is no text has none. -/
def isCustom (t : Tag) : Bool := t.isLocal && t.name?.isSome

/-! ## Written tags -/

/-- Characters of tags besides letters and digits.  Verbatim ones may hold flow indicators. -/
def isTagChar (verbatim : Bool) (c : Char) : Bool :=
  isWord c || ";/?:@&=+$.%!~*'()".toList.contains c || (verbatim && ",[]".toList.contains c)

/-- How many bytes of a character are due after its first byte. -/
def due? (b : Nat) : Option Nat :=
  if b < 0x80 then some 0
  else if b / 32 = 6 then some 1
  else if b / 16 = 14 then some 2
  else if b / 8 = 30 then some 3
  else none

/-- The bytes of a written tag.  An escape writes one byte, and the `due` escapes after the first
byte of a character write bytes that continue one. -/
def unescape (due : Nat) : List Char → Option (List UInt8)
  | [] => if due = 0 then some [] else none
  | '%' :: a :: b :: rest => do
    let n := (← hexDigit? a) * 16 + (← hexDigit? b)
    match due with
    | 0 => return .ofNat n :: (← unescape (← due? n) rest)
    | due + 1 => if n / 64 = 2 then return .ofNat n :: (← unescape due rest) else none
  | '%' :: _ => none
  | c :: rest => if due = 0 then (unescape 0 rest).map (.ofNat c.toNat :: ·) else none

/-- The bytes of a written tag, or of the rest of one, at the cursor. -/
def read (c : Cursor) (verbatim : Bool) : Except Fault (List UInt8 × Cursor) :=
  let run := c.rest.takeWhile (isTagChar verbatim)
  match unescape 0 run with
  | some bytes => .ok (bytes, c.skip run.length)
  | none => .error .malformedTag

end Tag
end LayeredConfig.Yaml
