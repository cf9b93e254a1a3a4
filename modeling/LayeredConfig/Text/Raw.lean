/-! # Raw text

What a file may hold: characters in UTF-8, and bytes that are part of no character.

* `Symbol`             a character or a stray byte
* `RawText.decode`      bytes as symbols
* `RawText.ofString`    the symbols of a text
* `RawText.toString?`   the text, if no byte is astray
* `RawText.display`     the text as far as it is one -/

namespace LayeredConfig

/-- A unit of raw text. -/
inductive Symbol
  /-- A character. -/
  | char (c : Char)
  /-- A byte that belongs to no well-formed character. -/
  | stray (b : UInt8)
deriving DecidableEq, Repr

/-- The bytes that a symbol takes. -/
def Symbol.size : Symbol → Nat
  | .char c => c.utf8Size
  | .stray _ => 1

/-- Raw text as a list of symbols. -/
abbrev RawText : Type := List Symbol

namespace RawText

/-- The character with the given code point, unless a shorter encoding exists. -/
def scalar? (least n size : Nat) : Option (Char × Nat) :=
  if h : least ≤ n ∧ n.isValidChar then some (Char.ofNatAux n h.2, size) else none

/-- The low six bits of a continuation byte. -/
def continuation? (b : UInt8) : Option Nat :=
  if b.toNat / 64 = 2 then some (b.toNat % 64) else none

/-- The character that starts with byte `b`, and the number of its bytes. -/
def first? (b : UInt8) (rest : List UInt8) : Option (Char × Nat) :=
  let n := b.toNat
  let next (i : Nat) : Option Nat := rest[i]?.bind continuation?
  if n < 0x80 then scalar? 0 n 1
  else if n / 32 = 6 then do
    let x ← next 0
    scalar? 0x80 (n % 32 * 64 + x) 2
  else if n / 16 = 14 then do
    let x ← next 0
    let y ← next 1
    scalar? 0x800 ((n % 16 * 64 + x) * 64 + y) 3
  else if n / 8 = 30 then do
    let x ← next 0
    let y ← next 1
    let z ← next 2
    scalar? 0x10000 (((n % 8 * 64 + x) * 64 + y) * 64 + z) 4
  else none

/-- Decode bytes after leaving out the first `skip`, which belong to a character already decoded. -/
def decodeFrom (skip : Nat) : List UInt8 → RawText
  | [] => []
  | b :: rest =>
    match skip with
    | skip + 1 => decodeFrom skip rest
    | 0 =>
      match first? b rest with
      | some (c, size) => .char c :: decodeFrom (size - 1) rest
      | none => .stray b :: decodeFrom 0 rest

/-- The symbols of a sequence of bytes. -/
def decode (bytes : List UInt8) : RawText := decodeFrom 0 bytes

/-- The symbols of characters. -/
def ofChars (s : List Char) : RawText := s.map .char

/-- The symbols of a text. -/
def ofString (s : String) : RawText := ofChars s.toList

/-- The characters of a text, if no byte is astray. -/
def chars? : RawText → Option (List Char)
  | [] => some []
  | .char c :: rest => (chars? rest).map (c :: ·)
  | .stray _ :: _ => none

/-- The text, if no byte is astray. -/
def toString? (s : RawText) : Option String := s.chars?.map String.ofList

/-- Whether some character of three or more bytes starts with `b` and `x`. -/
def canStart (b x : UInt8) : Bool :=
  match continuation? x with
  | none => false
  | some x =>
    let n := b.toNat
    (n / 16 = 14 && (scalar? 0x800 ((n % 16 * 64 + x) * 64) 3).isSome) ||
      (n / 8 = 30 && (scalar? 0x10000 ((n % 8 * 64 + x) * 4096) 4).isSome)

/-- How many of the symbols behind a stray byte `b` go on with a character that starts with it and
breaks off. -/
def brokenOff (b : UInt8) : RawText → Nat
  | .stray x :: rest =>
    if canStart b x then
      match rest with
      -- Only a character of four bytes can break off behind its third one.
      | .stray y :: _ => if b.toNat / 8 = 30 && (continuation? y).isSome then 2 else 1
      | _ => 1
    else 0
  | _ => 0

/-- The characters after leaving out the first `skip` stray bytes, which were shown already. -/
def displayFrom (skip : Nat) : RawText → List Char
  | [] => []
  | .char c :: rest => c :: displayFrom 0 rest
  | .stray b :: rest =>
    match skip with
    | skip + 1 => displayFrom skip rest
    | 0 => '\ufffd' :: displayFrom (brokenOff b rest) rest

/-- The text with a replacement character for each stray byte, but only one for a character that
breaks off. -/
def display (s : RawText) : String := .ofList (displayFrom 0 s)

@[simp] theorem chars?_ofChars (s : List Char) : (ofChars s).chars? = some s := by
  induction s with
  | nil => rfl
  | cons c s ih => simp only [ofChars, List.map_cons, chars?] at ih ⊢; simp [ih]

@[simp] theorem toString?_ofString (s : String) : (ofString s).toString? = some s := by
  simp [toString?, ofString]

theorem displayFrom_ofChars (s : List Char) (skip : Nat) : displayFrom skip (ofChars s) = s := by
  induction s generalizing skip with
  | nil => rfl
  | cons c s ih => exact congrArg (c :: ·) (ih 0)

/-- Text without stray bytes is shown as it is. -/
@[simp] theorem display_ofString (s : String) : (ofString s).display = s := by
  simp [display, ofString, displayFrom_ofChars]

end RawText
end LayeredConfig
