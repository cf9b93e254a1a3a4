import LayeredConfig.Json.Number
import LayeredConfig.Text.Raw

/-! # Reading JSON

A reader that takes one symbol at a time.  Its state is a stack of the containers that are open and
a mode that says what may come next, so reading is a fold over the text and an error is always found
at the symbol read last.

* `Json.State`       the state
* `Json.State.next`  one more symbol
* `Json.read`        the document that a text holds, or the first fault and its position -/

namespace LayeredConfig.Json

/-- Why a text is no document. -/
inductive Reason
  | endInValue
  | endInString
  | endInObject
  | endInList
  | expectedValue
  | expectedIdent
  | expectedColon
  | expectedObjectCommaOrEnd
  | expectedListCommaOrEnd
  | keyMustBeString
  | trailingComma
  | trailingCharacters
  | invalidNumber
  | numberOutOfRange
  | invalidEscape
  | unexpectedEndOfHexEscape
  | loneSurrogate
  | invalidCodePoint
  | controlCharacter
  | recursionLimit
deriving DecidableEq, Repr

def Reason.message : Reason → String
  | .endInValue => "EOF while parsing a value"
  | .endInString => "EOF while parsing a string"
  | .endInObject => "EOF while parsing an object"
  | .endInList => "EOF while parsing a list"
  | .expectedValue => "expected value"
  | .expectedIdent => "expected ident"
  | .expectedColon => "expected `:`"
  | .expectedObjectCommaOrEnd => "expected `,` or `\x7d`"
  | .expectedListCommaOrEnd => "expected `,` or `]`"
  | .keyMustBeString => "key must be a string"
  | .trailingComma => "trailing comma"
  | .trailingCharacters => "trailing characters"
  | .invalidNumber => "invalid number"
  | .numberOutOfRange => "number out of range"
  | .invalidEscape => "invalid escape"
  | .unexpectedEndOfHexEscape => "unexpected end of hex escape"
  | .loneSurrogate => "lone leading surrogate in hex escape"
  | .invalidCodePoint => "invalid unicode code point"
  | .controlCharacter => "control character (\\u0000-\\u001F) found while parsing a string"
  | .recursionLimit => "recursion limit exceeded"

/-- The reason that a fault in a number gives. -/
def Reason.ofNumber : NumberFault → Reason
  | .invalid => .invalidNumber
  | .outOfRange => .numberOutOfRange
  | .unfinished => .endInValue

/-! ## States -/

/-- A container in which a value is being read. -/
inductive Frame
  /-- An array and the items before the value, the last first. -/
  | item (before : List Json)
  /-- An object, the members before the value, and its key. -/
  | member (before : SortedMap String Json) (key : String)

/-- How far an escape in a string has been read.  `lead` is a leading surrogate that waits for its
trailing one. -/
inductive Escape
  /-- Outside escapes. -/
  | no
  /-- After a backslash. -/
  | backslash
  /-- In a code unit of which `n` bytes were read; `ok` while all were hexadecimal digits. -/
  | unit (lead : Option Nat) (n value : Nat) (ok : Bool)
  /-- After a leading surrogate. -/
  | surrogate (lead : Nat)
  /-- After a leading surrogate and a backslash. -/
  | surrogateBackslash (lead : Nat)

/-- What may come next. -/
inductive Mode
  | value
  | firstItem
  | nextItem (before : List Json)
  | afterItem (before : List Json)
  | firstKey
  | nextKey (before : SortedMap String Json)
  | afterKey (before : SortedMap String Json) (key : String)
  | afterMember (before : SortedMap String Json)
  /-- In a literal, of which `rest` is left. -/
  | word (rest : List Char) (result : Json)
  | number (negative : Bool) (state : NumberState)
  /-- In a string: a key of the object with members `key`, or a value.  `chars` are its characters
  so far, the last first, and `astray` counts the bytes of its value from the first stray byte
  on. -/
  | string (key : Option (SortedMap String Json)) (chars : List Char) (astray : Nat)
      (escape : Escape)
  /-- After the document. -/
  | done (result : Json)

/-- The state of the reader. -/
structure State where
  /-- The open containers, the innermost first. -/
  stack : List Frame
  mode : Mode

namespace State

/-- The number of containers that may not all be open at once. -/
def depthLimit : Nat := 128

/-- The state after a complete value. -/
def complete (stack : List Frame) (v : Json) : State :=
  match stack with
  | [] => ⟨[], .done v⟩
  | .item before :: stack => ⟨stack, .afterItem (v :: before)⟩
  | .member before key :: stack => ⟨stack, .afterMember (before.insert key v)⟩

/-- White space between tokens. -/
def isSpace (c : Char) : Bool := c == ' ' || c == '\n' || c == '\t' || c == '\r'

/-- Open a container, unless that makes too many. -/
def openContainer (stack : List Frame) (mode : Mode) : Except Reason State :=
  if depthLimit ≤ stack.length + 1 then .error .recursionLimit else .ok ⟨stack, mode⟩

/-- The state after the first character of a value. -/
def startValue (stack : List Frame) (c : Char) : Except Reason State :=
  match c with
  | 'n' => .ok ⟨stack, .word ['u', 'l', 'l'] .null⟩
  | 't' => .ok ⟨stack, .word ['r', 'u', 'e'] (.bool true)⟩
  | 'f' => .ok ⟨stack, .word ['a', 'l', 's', 'e'] (.bool false)⟩
  | '"' => .ok ⟨stack, .string none [] 0 .no⟩
  | '[' => openContainer stack .firstItem
  | '\x7b' => openContainer stack .firstKey
  | '-' => .ok ⟨stack, .number true .sign⟩
  | c =>
    match NumberState.digit? c with
    | some d => .ok ⟨stack, .number false (if d = 0 then .zero else .integer d)⟩
    | none => .error .expectedValue

/-- The character between tokens: what each mode makes of a character that is not white space. -/
def token (st : State) (c : Char) : Except Reason State :=
  match st.mode with
  | .value => startValue st.stack c
  | .firstItem =>
    if c = ']' then .ok (complete st.stack (.array [])) else startValue (.item [] :: st.stack) c
  | .nextItem before =>
    if c = ']' then .error .trailingComma else startValue (.item before :: st.stack) c
  | .afterItem before =>
    if c = ']' then .ok (complete st.stack (.array before.reverse))
    else if c = ',' then .ok ⟨st.stack, .nextItem before⟩
    else .error .expectedListCommaOrEnd
  | .firstKey =>
    if c = '\x7d' then .ok (complete st.stack (.object .nil))
    else if c = '"' then .ok ⟨st.stack, .string (some .nil) [] 0 .no⟩
    else .error .keyMustBeString
  | .nextKey before =>
    if c = '"' then .ok ⟨st.stack, .string (some before) [] 0 .no⟩
    else if c = '\x7d' then .error .trailingComma
    else .error .keyMustBeString
  | .afterKey before key =>
    if c = ':' then .ok ⟨.member before key :: st.stack, .value⟩ else .error .expectedColon
  | .afterMember before =>
    if c = '\x7d' then .ok (complete st.stack (.object before))
    else if c = ',' then .ok ⟨st.stack, .nextKey before⟩
    else .error .expectedObjectCommaOrEnd
  | .done _ => .error .trailingCharacters
  | .word .. => .error .expectedIdent
  | .number .. => .error .invalidNumber
  | .string .. => .error .invalidEscape

/-- One symbol between tokens. -/
def between (st : State) : Symbol → Except Reason State
  | .char c => if isSpace c then .ok st else token st c
  | .stray _ => token st '\x00'

/-! ## Strings -/

/-- The value of a hexadecimal digit. -/
def hexDigit? (c : Char) : Option Nat :=
  if '0' ≤ c && c ≤ '9' then some (c.toNat - 48)
  else if 'a' ≤ c && c ≤ 'f' then some (c.toNat - 87)
  else if 'A' ≤ c && c ≤ 'F' then some (c.toNat - 55)
  else none

/-- The character that a one-letter escape stands for. -/
def letter? : Char → Option Char
  | '"' => some '"'
  | '\\' => some '\\'
  | '/' => some '/'
  | 'b' => some '\x08'
  | 'f' => some '\x0c'
  | 'n' => some '\n'
  | 'r' => some '\r'
  | 't' => some '\t'
  | _ => none

/-- The state after a complete string. -/
def completeString (stack : List Frame) (key : Option (SortedMap String Json)) (chars : List Char) :
    State :=
  let s := String.ofList chars.reverse
  match key with
  | some before => ⟨stack, .afterKey before s⟩
  | none => complete stack (.string s)

/-- What follows from a complete code unit: a character, or a surrogate to wait for. -/
def codeUnit (lead : Option Nat) (n : Nat) : Except Reason (Char ⊕ Nat) :=
  let trailing := 0xdc00 ≤ n && n ≤ 0xdfff
  match lead with
  | some l =>
    if trailing then .ok (.inl (Char.ofNat (0x10000 + (l - 0xd800) * 0x400 + (n - 0xdc00))))
    else .error .loneSurrogate
  | none =>
    if trailing then .error .loneSurrogate
    else if 0xd800 ≤ n && n ≤ 0xdbff then .ok (.inr n)
    else .ok (.inl (Char.ofNat n))

/-- One symbol inside a string.  An error comes with the bytes to count before its place, from the
start of the symbol.  A string with stray bytes is refused at its end; the place is counted back
from there by the bytes of its value, so it is that of the first stray byte unless escapes follow,
which are longer than what they stand for. -/
def inString (stack : List Frame) (key : Option (SortedMap String Json)) (chars : List Char)
    (astray : Nat) (escape : Escape) (x : Symbol) : Except (Reason × Int) State :=
  let stay (escape : Escape) : State := ⟨stack, .string key chars astray escape⟩
  let add (c : Char) : State :=
    ⟨stack, .string key (c :: chars) (if astray = 0 then 0 else astray + c.utf8Size) .no⟩
  match escape with
  | .no =>
    match x with
    -- The string goes on, for only its end decides that it is no text.
    | .stray _ => .ok ⟨stack, .string key chars (astray + 1) .no⟩
    | .char c =>
      if c = '"' then
        if astray = 0 then .ok (completeString stack key chars)
        else .error (.invalidCodePoint, 1 - astray)
      else if c = '\\' then .ok (stay .backslash)
      else if c.toNat < 0x20 then .error (.controlCharacter, 1)
      else .ok (add c)
  | .backslash =>
    match x with
    | .char 'u' => .ok (stay (.unit none 0 0 true))
    | .char c =>
      match letter? c with
      | some c => .ok (add c)
      | none => .error (.invalidEscape, 1)
    | .stray _ => .error (.invalidEscape, 1)
  | .unit lead n value good =>
    let digit := match x with
      | .char c => hexDigit? c
      | .stray _ => none
    let value := value * 16 + digit.getD 0
    let good := good && digit.isSome
    if n + x.size < 4 then .ok (stay (.unit lead (n + x.size) value good))
    else if !good then .error (.invalidEscape, 4 - n)
    else
      match codeUnit lead value with
      | .ok (.inl c) => .ok (add c)
      | .ok (.inr l) => .ok (stay (.surrogate l))
      | .error e => .error (e, 1)
  | .surrogate lead =>
    if x = .char '\\' then .ok (stay (.surrogateBackslash lead))
    else .error (.unexpectedEndOfHexEscape, 1)
  | .surrogateBackslash lead =>
    if x = .char 'u' then .ok (stay (.unit (some lead) 0 0 true))
    else .error (.unexpectedEndOfHexEscape, 1)

/-! ## Reading -/

/-- One more symbol.  An error comes with the bytes to count before its place, from the start of the
symbol. -/
def next (st : State) (x : Symbol) : Except (Reason × Int) State :=
  let atFirst (r : Except Reason State) : Except (Reason × Int) State := r.mapError fun e => (e, 1)
  match st.mode with
  | .string key chars astray escape => inString st.stack key chars astray escape x
  | .word [] result => atFirst (between (complete st.stack result) x)
  | .word (c :: rest) result =>
    if x = .char c then
      if rest.isEmpty then .ok (complete st.stack result) else .ok ⟨st.stack, .word rest result⟩
    else .error (.expectedIdent, 1)
  | .number negative digits =>
    let c := match x with
      | .char c => c
      | .stray _ => '\x00'
    match digits.next c with
    | .error e => .error (.ofNumber e, 1)
    | .ok (some digits) => .ok ⟨st.stack, .number negative digits⟩
    | .ok none =>
      -- The number ends before this symbol, which is the next token's.
      match digits.finish negative with
      | .error e => .error (.ofNumber e, 1)
      | .ok n => atFirst (between (complete st.stack (.number n)) x)
  | _ => atFirst (between st x)

/-- What the end of the text means between tokens. -/
def atEnd (st : State) : Except Reason Json :=
  match st.mode with
  | .done v => .ok v
  | .value => .error .endInValue
  | .firstItem => .error .endInList
  | .nextItem _ => .error .endInValue
  | .afterItem _ => .error .endInList
  | .firstKey => .error .endInObject
  | .nextKey _ => .error .endInValue
  | .afterKey .. => .error .endInObject
  | .afterMember _ => .error .endInObject
  | .word .. => .error .endInValue
  | .number .. => .error .endInValue
  | .string .. => .error .endInString

/-- The document, if the text may end here. -/
def finish (st : State) : Except Reason Json :=
  match st.mode with
  | .number negative digits =>
    match digits.finish negative with
    | .error e => .error (.ofNumber e)
    | .ok n => atEnd (complete st.stack (.number n))
  | _ => atEnd st

end State

/-- A place in a text: the line, from one, and the bytes taken from it. -/
structure Position where
  line : Nat
  column : Nat
deriving DecidableEq, Repr

/-- The place `n` bytes from the start of a symbol. -/
def Position.advance (p : Position) (x : Symbol) (n : Int) : Position :=
  if x = .char '\n' then ⟨p.line + 1, 0⟩ else { p with column := (p.column + n).toNat }

/-- Why and where a text is no document. -/
structure ReadError where
  reason : Reason
  position : Position
deriving DecidableEq, Repr

/-- The wording of an error, with its place. -/
def ReadError.message (e : ReadError) : String :=
  e.reason.message ++ " at line " ++ toString e.position.line ++ " column " ++
    toString e.position.column

/-- Read the symbols that are left. -/
def readFrom (st : State) (p : Position) : RawText → Except ReadError Json
  | [] => st.finish.mapError fun r => ⟨r, p⟩
  | x :: rest =>
    match st.next x with
    | .ok st => readFrom st (p.advance x x.size) rest
    | .error (r, n) => .error ⟨r, p.advance x n⟩

/-- The document that a text holds. -/
def read (s : RawText) : Except ReadError Json := readFrom ⟨[], .value⟩ ⟨1, 0⟩ s

end LayeredConfig.Json
