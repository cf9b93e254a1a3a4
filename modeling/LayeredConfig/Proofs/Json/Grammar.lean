import LayeredConfig.Json.Reader

/-!
# The grammar of documents

Which texts may be documents, and which text stands at which path in them.  The grammar is that of
JSON in all that decides about structure: white space, strings with their escapes, arrays and
objects.  It does not say how words and numbers are spelled, and so it holds more texts than a
reader takes.

## Key definitions

- `Spells`: the text of a string between its quotes
- `Piece`: values, items of arrays and members of objects
- `Stands`: a text that is the value at a path
-/

namespace LayeredConfig.Json

/-- White space between tokens. -/
def Blank (s : List Char) : Prop := s.all State.isSpace = true

theorem Blank.nil : Blank [] := rfl

theorem Blank.space : Blank [' '] := rfl

/-- The characters of words and numbers. -/
def isPlain (c : Char) : Bool := c.isAlphanum || c == '+' || c == '-' || c == '.'

/-- The code unit that four hexadecimal digits write. -/
def codeUnit? (a b c d : Char) : Option Nat := do
  let a ← State.hexDigit? a
  let b ← State.hexDigit? b
  let c ← State.hexDigit? c
  let d ← State.hexDigit? d
  return ((a * 16 + b) * 16 + c) * 16 + d

/-- `Spells t s`: between quotes the text `t` stands for the characters `s`. -/
inductive Spells : List Char → List Char → Prop
  | nil : Spells [] []
  | plain {c : Char} {t s : List Char} : c ≠ '"' → c ≠ '\\' → Spells t s → Spells (c :: t) (c :: s)
  | letter {c d : Char} {t s : List Char} : State.letter? c = some d → Spells t s →
      Spells ('\\' :: c :: t) (d :: s)
  | unit {a b c d : Char} {n : Nat} {t s : List Char} : codeUnit? a b c d = some n →
      n < 0xd800 ∨ 0xdfff < n → Spells t s →
      Spells ('\\' :: 'u' :: a :: b :: c :: d :: t) (.ofNat n :: s)
  | surrogates {a b c d a' b' c' d' : Char} {l n : Nat} {t s : List Char} :
      codeUnit? a b c d = some l → 0xd800 ≤ l ∧ l ≤ 0xdbff →
      codeUnit? a' b' c' d' = some n → 0xdc00 ≤ n ∧ n ≤ 0xdfff → Spells t s →
      Spells ('\\' :: 'u' :: a :: b :: c :: d :: '\\' :: 'u' :: a' :: b' :: c' :: d' :: t)
        (.ofNat (0x10000 + (l - 0xd800) * 0x400 + (n - 0xdc00)) :: s)

/-- A key of an object with its colon. -/
inductive KeyText (key : String) : List Char → Prop
  | intro {before t after : List Char} : Blank before → Spells t key.toList → Blank after →
      KeyText key (before ++ '"' :: (t ++ '"' :: (after ++ [':'])))

/-- Characters that need no escape spell themselves. -/
theorem Spells.self {s : List Char} (h : s.all (fun c => c != '"' && c != '\\') = true) :
    Spells s s := by
  -- Each character is a plain one.
  induction s with
  | nil => exact .nil
  | cons c s ih =>
    rw [List.all_cons, Bool.and_eq_true, Bool.and_eq_true, bne_iff_ne, bne_iff_ne] at h
    exact .plain h.1.1 h.1.2 (ih h.2)

/-- A key without characters that need an escape is written as it is. -/
theorem KeyText.self {key : String} {before : List Char} (hbefore : Blank before)
    (h : key.toList.all (fun c => c != '"' && c != '\\') = true) :
    KeyText key (before ++ '"' :: (key.toList ++ ['"', ':'])) :=
  .intro hbefore (.self h) .nil

/-- What a piece of a document is. -/
inductive Part
  | value
  /-- At least one item of an array. -/
  | items
  /-- At least one member of an object; the keys, the last first. -/
  | members (keys : List String)

/-- The texts that may be a part of a document. -/
inductive Piece : Part → List Char → Prop
  | plain {s : List Char} : s ≠ [] → s.all isPlain = true → Piece .value s
  | string {t s : List Char} : Spells t s → Piece .value ('"' :: (t ++ ['"']))
  | emptyArray {s : List Char} : Blank s → Piece .value ('[' :: (s ++ [']']))
  | array {s : List Char} : Piece .items s → Piece .value ('[' :: (s ++ [']']))
  | emptyObject {s : List Char} : Blank s → Piece .value ('\x7b' :: (s ++ ['\x7d']))
  | object {keys : List String} {s : List Char} : Piece (.members keys) s →
      Piece .value ('\x7b' :: (s ++ ['\x7d']))
  | spaced {before s after : List Char} : Blank before → Piece .value s → Blank after →
      Piece .value (before ++ (s ++ after))
  | item {s : List Char} : Piece .value s → Piece .items s
  | nextItem {s t : List Char} : Piece .items s → Piece .value t → Piece .items (s ++ ',' :: t)
  | member {key : String} {k s : List Char} : KeyText key k → Piece .value s →
      Piece (.members [key]) (k ++ s)
  | nextMember {keys : List String} {key : String} {s k t : List Char} : Piece (.members keys) s →
      KeyText key k → Piece .value t → Piece (.members (key :: keys)) (s ++ ',' :: (k ++ t))

/-- The members of an object before one of them. -/
inductive MembersBefore : List Char → Prop
  | none : MembersBefore []
  | some {keys : List String} {s : List Char} : Piece (.members keys) s → MembersBefore (s ++ [','])

/-- The members of an object behind the last one with a given key. -/
inductive MembersAfter (key : String) : List Char → Prop
  | none : MembersAfter key []
  | some {keys : List String} {s : List Char} : Piece (.members keys) s → key ∉ keys →
      MembersAfter key (',' :: s)

/-- `Stands literal path s`: in the document `s` the text `literal` is the value at `path`, which
leads through objects.  Of two members with the same key the later one counts. -/
inductive Stands (literal : List Char) : List String → List Char → Prop
  | root : Stands literal [] literal
  | spaced {path : List String} {before s after : List Char} : Blank before →
      Stands literal path s → Blank after → Stands literal path (before ++ (s ++ after))
  | member {key : String} {path : List String} {before k s after : List Char} :
      MembersBefore before → KeyText key k → Stands literal path s → MembersAfter key after →
      Stands literal (key :: path) ('\x7b' :: (before ++ (k ++ (s ++ (after ++ ['\x7d'])))))

end LayeredConfig.Json
