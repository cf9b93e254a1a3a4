import LayeredConfig.Json.Printer
import LayeredConfig.Json.Reader
import Mathlib.Tactic.IntervalCases

/-!
# What the reader makes of single tokens

Reading a text from a state of the reader leads to another state, whatever follows the text.  Such
steps compose, so what is read of a document is put together from what is read of its tokens.

## Key results

- `State.Reads.trans`: one text after the other
- `State.reads_newline`: white space between tokens
- `State.reads_string`: the characters of strings and keys
- `State.reads_integer`: integers
-/

namespace LayeredConfig.Json.State

/-! ## Texts -/

/-- Reading a text from a state leads to another one, whatever follows. -/
def Reads (st : State) (s : List Char) (st' : State) : Prop :=
  ∀ rest p, ∃ p', readFrom st p (RawText.ofChars s ++ rest) = readFrom st' p' rest

variable {st st' st'' : State} {s t : List Char} {stack : List Frame}

/-- To read no text changes nothing. -/
theorem Reads.refl (st : State) : st.Reads [] st := fun _ p => ⟨p, rfl⟩

/-- One text is read after the other. -/
theorem Reads.trans (h : st.Reads s st') (h' : st'.Reads t st'') : st.Reads (s ++ t) st'' := by
  intro rest p
  obtain ⟨p', hp⟩ := h (RawText.ofChars t ++ rest) p
  obtain ⟨p'', hp'⟩ := h' rest p'
  refine ⟨p'', ?_⟩
  rw [RawText.ofChars, List.map_append, List.append_assoc]
  exact hp.trans hp'

/-- A text is read from its first character on. -/
theorem Reads.cons {c : Char} (h : st.next (.char c) = .ok st') (h' : st'.Reads s st'') :
    st.Reads (c :: s) st'' := by
  intro rest p
  obtain ⟨p', hp⟩ := h' rest (p.advance (.char c) (Symbol.char c).size)
  refine ⟨p', ?_⟩
  rw [RawText.ofChars, List.map_cons, List.cons_append, readFrom, h]
  exact hp

/-- A text of one character. -/
theorem Reads.char {c : Char} (h : st.next (.char c) = .ok st') : st.Reads [c] st' :=
  .cons h (.refl st')

/-! ## Between tokens -/

/-- Whether a token may begin. -/
def isBetween (st : State) : Bool :=
  match st.mode with
  | .word .. => false
  | .number .. => false
  | .string .. => false
  | _ => true

/-- Between tokens the character decides about the next token. -/
theorem next_of_isBetween (h : st.isBetween = true) (x : Symbol) :
    st.next x = (between st x).mapError fun e => (e, 1) := by
  obtain ⟨stack, mode⟩ := st
  cases mode <;> first | rfl | exact nomatch h

/-- Behind a value a token may begin. -/
theorem isBetween_complete (stack : List Frame) (v : Json) :
    (complete stack v).isBetween = true := by
  match stack with
  | [] => rfl
  | .item _ :: _ => rfl
  | .member _ _ :: _ => rfl

/-- White space changes nothing between tokens. -/
theorem next_space (h : st.isBetween = true) {c : Char} (hc : isSpace c = true) :
    st.next (.char c) = .ok st := by
  rw [next_of_isBetween h, between, if_pos hc]
  rfl

/-- So spaces change nothing, however many. -/
theorem reads_spaces (h : st.isBetween = true) (n : Nat) :
    st.Reads (List.replicate n ' ') st := by
  induction n with
  | zero => exact .refl st
  | succ n ih => exact .cons (next_space h rfl) ih

/-- So does the start of a new line. -/
theorem reads_newline (h : st.isBetween = true) (level : Nat) : st.Reads (newline level) st :=
  .cons (next_space h rfl) (reads_spaces h _)

/-- A value has been read, for all that may follow it: the state is the one behind the value, or at
the end of a number. -/
def Completes (stack : List Frame) (v : Json) (st : State) : Prop :=
  ∀ c, c = ',' ∨ c = '\n' → st.next (.char c) = (complete stack v).next (.char c)

/-- The state behind a value is one of those in which the value has been read. -/
theorem Completes.refl (stack : List Frame) (v : Json) : Completes stack v (complete stack v) :=
  fun _ _ => rfl

/-- A new line ends the value. -/
theorem Completes.newline {v : Json} (h : Completes stack v st) (level : Nat) :
    st.Reads (newline level) (complete stack v) :=
  .cons ((h '\n' (.inr rfl)).trans (next_space (isBetween_complete stack v) rfl))
    (reads_spaces (isBetween_complete stack v) _)

/-- A value may begin, in the given containers. -/
def Expects (stack : List Frame) (st : State) : Prop :=
  ∀ c, isSpace c = false → c ≠ ']' →
    st.next (.char c) = (startValue stack c).mapError fun e => (e, 1)

/-- A value may begin where one has to. -/
theorem expects_value (stack : List Frame) : Expects stack ⟨stack, .value⟩ := by
  intro c hc _
  rw [next_of_isBetween rfl, between, hc]
  rfl

/-- A value may begin in an array that is still empty. -/
theorem expects_firstItem (stack : List Frame) :
    Expects (.item [] :: stack) ⟨stack, .firstItem⟩ := by
  intro c hc hne
  rw [next_of_isBetween rfl, between, hc]
  exact congrArg _ (if_neg hne)

/-- A value may begin behind a comma in an array. -/
theorem expects_nextItem (stack : List Frame) (before : List Json) :
    Expects (.item before :: stack) ⟨stack, .nextItem before⟩ := by
  intro c hc hne
  rw [next_of_isBetween rfl, between, hc]
  exact congrArg _ (if_neg hne)

/-- The first character of a value. -/
theorem Expects.next (h : Expects stack st) {c : Char} (hc : isSpace c = false) (hne : c ≠ ']')
    (hstart : startValue stack c = .ok st') : st.next (.char c) = .ok st' := by
  rw [h c hc hne, hstart]
  rfl

/-! ## Literals -/

/-- The rest of a word is read character by character. -/
theorem reads_word (stack : List Frame) (c : Char) (rest : List Char) (v : Json) :
    Reads ⟨stack, .word (c :: rest) v⟩ (c :: rest) (complete stack v) := by
  induction rest generalizing c with
  | nil => exact .char (if_pos rfl)
  | cons d rest ih => exact .cons (if_pos rfl) (ih d)

theorem Expects.reads_null (h : Expects stack st) :
    st.Reads "null".toList (complete stack .null) := by
  have htext : "null".toList = ['n', 'u', 'l', 'l'] := rfl
  exact htext ▸ .cons (h.next rfl (by decide) rfl) (reads_word stack 'u' ['l', 'l'] .null)

theorem Expects.reads_bool (h : Expects stack st) (b : Bool) :
    st.Reads (boolText b) (complete stack (.bool b)) := by
  have htrue : boolText true = ['t', 'r', 'u', 'e'] := rfl
  have hfalse : boolText false = ['f', 'a', 'l', 's', 'e'] := rfl
  cases b with
  | true => exact htrue ▸ .cons (h.next rfl (by decide) rfl) (reads_word stack 'r' ['u', 'e'] _)
  | false => exact hfalse ▸ .cons (h.next rfl (by decide) rfl) (reads_word stack 'a' ['l', 's', 'e'] _)

/-! ## Strings -/

/-- A hexadecimal digit is read back. -/
theorem hexDigit?_hexDigit (n : Nat) : hexDigit? (hexDigit n) = some (n % 16) := by
  have hall : ∀ d : Fin 16, hexDigit? (Nat.digitChar d) = some d.val := by decide
  exact hall ⟨n % 16, Nat.mod_lt n (by decide)⟩

variable {key : Option (SortedMap String Json)} {chars : List Char} {c : Char}

/-- Hexadecimal digits are characters of one byte. -/
theorem utf8Size_of_hexDigit? {d : Nat} (h : hexDigit? c = some d) : c.utf8Size = 1 := by
  -- The greatest of them is a small letter.
  have hle : c.val ≤ 'f'.val := by
    unfold hexDigit? at h
    simp only [Bool.and_eq_true, decide_eq_true_eq, Char.le_def] at h
    split at h
    · next hdigit => exact UInt32.le_trans hdigit.2 (by decide)
    split at h
    · next hlower => exact hlower.2
    split at h
    · next hupper => exact UInt32.le_trans hupper.2 (by decide)
    · exact nomatch h
  exact Char.utf8Size_eq_one_iff.mpr (UInt32.le_trans hle (by decide))

/-- One more digit of a code unit. -/
theorem next_unit {lead : Option Nat} {n value d : Nat} (hn : n < 3)
    (h : hexDigit? c = some d) :
    State.next ⟨stack, .string key chars 0 (.unit lead n value true)⟩ (.char c) =
      .ok ⟨stack, .string key chars 0 (.unit lead (n + 1) (value * 16 + d) true)⟩ := by
  have hlt : n + 1 < 4 := by omega
  simp only [State.next, inString, Symbol.size, utf8Size_of_hexDigit? h, h, Option.getD_some,
    Option.isSome_some, Bool.and_true, if_pos hlt]

/-- What the last digit of a code unit leads to. -/
def afterUnit (stack : List Frame) (key : Option (SortedMap String Json)) (chars : List Char) :
    Char ⊕ Nat → State
  | .inl c => ⟨stack, .string key (c :: chars) 0 .no⟩
  | .inr l => ⟨stack, .string key chars 0 (.surrogate l)⟩

/-- The last of four digits gives the code unit. -/
theorem next_lastUnit {lead : Option Nat} {value d : Nat} {r : Char ⊕ Nat}
    (h : hexDigit? c = some d) (hunit : codeUnit lead (value * 16 + d) = .ok r) :
    State.next ⟨stack, .string key chars 0 (.unit lead 3 value true)⟩ (.char c) =
      .ok (afterUnit stack key chars r) := by
  cases r <;> simp [State.next, inString, Symbol.size, utf8Size_of_hexDigit? h, h, hunit, afterUnit]

/-- A code unit that is no surrogate is a character. -/
theorem codeUnit_of_plain {n : Nat} (h : n < 0xd800 ∨ 0xdfff < n) :
    codeUnit none n = .ok (.inl (.ofNat n)) := by
  have htrailing : (0xdc00 ≤ n && n ≤ 0xdfff) = false := by
    rw [Bool.and_eq_false_iff, decide_eq_false_iff_not, decide_eq_false_iff_not]
    omega
  have hleading : (0xd800 ≤ n && n ≤ 0xdbff) = false := by
    rw [Bool.and_eq_false_iff, decide_eq_false_iff_not, decide_eq_false_iff_not]
    omega
  simp [codeUnit, htrailing, hleading]

/-- An escaped character is that character. -/
theorem reads_escape (stack : List Frame) (key : Option (SortedMap String Json))
    (chars : List Char) (c : Char) :
    Reads ⟨stack, .string key chars 0 .no⟩ (escape c) ⟨stack, .string key (c :: chars) 0 .no⟩ := by
  unfold escape
  -- Seven characters have letters for their escapes, the other control characters have code units,
  -- and any other character stands for itself.
  split
  · next h =>
    subst h
    exact .cons rfl (.char rfl)
  split
  · next h =>
    subst h
    exact .cons rfl (.char rfl)
  split
  · next h =>
    subst h
    exact .cons rfl (.char rfl)
  split
  · next h =>
    subst h
    exact .cons rfl (.char rfl)
  split
  · next h =>
    subst h
    exact .cons rfl (.char rfl)
  split
  · next h =>
    subst h
    exact .cons rfl (.char rfl)
  split
  · next h =>
    subst h
    exact .cons rfl (.char rfl)
  split
  · next hcontrol =>
    -- Two zeros come before the two digits of the code point.
    have hvalue : (((0 * 16 + 0 % 16) * 16 + 0 % 16) * 16 + c.toNat / 16 % 16) * 16 +
        c.toNat % 16 = c.toNat := by omega
    have hlast : State.next ⟨stack, .string key chars 0 (.unit none 3
        (((0 * 16 + 0 % 16) * 16 + 0 % 16) * 16 + c.toNat / 16 % 16) true)⟩
          (.char (hexDigit c.toNat)) = .ok ⟨stack, .string key (c :: chars) 0 .no⟩ := by
      have hunit := codeUnit_of_plain (n := c.toNat) (.inl (by omega))
      rw [← hvalue] at hunit
      rw [next_lastUnit (hexDigit?_hexDigit _) hunit, hvalue, Char.ofNat_toNat]
      rfl
    have hzero : hexDigit 0 = '0' := rfl
    rw [← hzero]
    have hdigit (d : Nat) := hexDigit?_hexDigit d
    exact .cons rfl (.cons rfl (.cons (next_unit (by decide) (hdigit 0))
      (.cons (next_unit (by decide) (hdigit 0)) (.cons (next_unit (by decide) (hdigit _))
        (.char hlast)))))
  · next hquote hbackslash _ _ _ _ _ hcontrol =>
    refine .char ?_
    simp only [State.next, inString, if_neg hquote, if_neg hbackslash, if_neg hcontrol, if_pos]

/-- Escaped characters are those characters, one after the other. -/
theorem reads_escapes (stack : List Frame) (key : Option (SortedMap String Json))
    (chars cs : List Char) :
    Reads ⟨stack, .string key chars 0 .no⟩ (cs.flatMap escape)
      ⟨stack, .string key (cs.reverse ++ chars) 0 .no⟩ := by
  induction cs generalizing chars with
  | nil => exact .refl _
  | cons c cs ih =>
    rw [List.flatMap_cons, List.reverse_cons, List.append_assoc]
    exact (reads_escape stack key chars c).trans (ih (c :: chars))

/-- The characters of a string and the quote behind them. -/
theorem reads_string (stack : List Frame) (key : Option (SortedMap String Json)) (s : String) :
    Reads ⟨stack, .string key [] 0 .no⟩ (s.toList.flatMap escape ++ ['"'])
      (completeString stack key s.toList.reverse) := by
  have hchars := reads_escapes stack key [] s.toList
  rw [List.append_nil] at hchars
  exact hchars.trans (.char rfl)

/-- A string is read where a value may begin. -/
theorem Expects.reads_quote (h : Expects stack st) (s : String) :
    st.Reads (quote s) (complete stack (.string s)) := by
  have hstring := reads_string stack none s
  rw [completeString, List.reverse_reverse, String.ofList_toList] at hstring
  exact .cons (h.next rfl (by decide) rfl) hstring

/-- A key and its colon, where a key may begin. -/
theorem reads_key {before : SortedMap String Json}
    (h : st.next (.char '"') = .ok ⟨stack, .string (some before) [] 0 .no⟩) (k : String) :
    st.Reads (quote k ++ ": ".toList) ⟨.member before k :: stack, .value⟩ := by
  have hstring := reads_string stack (some before) k
  rw [completeString, List.reverse_reverse, String.ofList_toList] at hstring
  have hcolon : ": ".toList = [':', ' '] := rfl
  rw [hcolon]
  exact (Reads.cons h hstring).trans (.cons rfl (.char rfl))

/-! ## Integers -/

variable {negative : Bool}

/-- A decimal digit is read back. -/
theorem digit?_digitChar {d : Nat} (h : d < 10) :
    NumberState.digit? (Nat.digitChar d) = some d := by
  have hall : ∀ d : Fin 10, NumberState.digit? (Nat.digitChar d) = some d.val := by decide
  exact hall ⟨d, h⟩

/-- One more digit, as long as 64 bits hold the number. -/
theorem reads_digit {s d : Nat} (hd : d < 10) (h : s * 10 + d < 2 ^ 64) :
    Reads ⟨stack, .number negative (.integer s)⟩ [Nat.digitChar d]
      ⟨stack, .number negative (.integer (s * 10 + d))⟩ := by
  have happend : NumberState.append? s d = some (s * 10 + d) := if_pos (by omega)
  refine .char ?_
  simp only [State.next, NumberState.next, digit?_digitChar hd, happend]

/-- The digits of a number that is not zero, where its first digit is read. -/
theorem reads_digits {n : Nat} (hpos : 0 < n) (hn : n < 2 ^ 64)
    (hfirst : ∀ d, 0 < d → d < 10 →
      st.Reads [Nat.digitChar d] ⟨stack, .number negative (.integer d)⟩) :
    st.Reads (Numeral.ofNat n) ⟨stack, .number negative (.integer n)⟩ := by
  -- On the number, whose last digit is read behind those of a tenth of it.
  induction n using Nat.strongRecOn with
  | ind n ih =>
    rw [Numeral.ofNat]
    by_cases hlt : n < 10
    · rw [Nat.toDigits_of_lt_base hlt]
      exact hfirst n hpos hlt
    · have hlast : Reads ⟨stack, .number negative (.integer (n / 10))⟩ [Nat.digitChar (n % 10)]
          ⟨stack, .number negative (.integer (n / 10 * 10 + n % 10))⟩ :=
        reads_digit (Nat.mod_lt n (by decide)) (by omega)
      rw [Nat.div_add_mod' n 10] at hlast
      rw [Nat.toDigits_of_base_le (by decide) (by omega)]
      exact (ih (n / 10) (by omega) (by omega) (by omega)).trans hlast

/-- A number is complete where no more characters belong to it. -/
theorem completes_number {digits : NumberState} {n : Number}
    (hend : ∀ c, c = ',' ∨ c = '\n' → digits.next c = .ok none)
    (hfinish : digits.finish negative = .ok n) :
    Completes stack (.number n) ⟨stack, .number negative digits⟩ := by
  intro c hc
  rw [next_of_isBetween (isBetween_complete stack _)]
  simp only [State.next, hend c hc, hfinish]

/-- So it is with an integer. -/
theorem completes_integer {s : Nat} {i : Int}
    (range : -9223372036854775808 ≤ i ∧ i < 18446744073709551616)
    (hi : i = if negative then -(s : Int) else s) (hzero : ¬ (negative = true ∧ s = 0)) :
    Completes stack (.number (.integer i range)) ⟨stack, .number negative (.integer s)⟩ := by
  subst hi
  refine completes_number ?_ (dif_pos ⟨range, hzero⟩)
  rintro c (rfl | rfl) <;> rfl

/-- A digit begins a number where a value may begin. -/
theorem Expects.reads_digit (h : Expects stack st) {d : Nat} (hd : d < 10) :
    st.Reads [Nat.digitChar d]
      ⟨stack, .number false (if d = 0 then .zero else .integer d)⟩ := by
  have hdigit : startValue stack (Nat.digitChar d) =
        .ok ⟨stack, .number false (if d = 0 then .zero else .integer d)⟩ ∧
      isSpace (Nat.digitChar d) = false ∧ Nat.digitChar d ≠ ']' := by
    interval_cases d <;> exact ⟨rfl, rfl, by decide⟩
  obtain ⟨hstart, hspace, hne⟩ := hdigit
  exact .char (h.next hspace hne hstart)

/-- The first digit behind a minus sign. -/
theorem reads_digit_of_sign {d : Nat} (hpos : 0 < d) (hd : d < 10) :
    Reads ⟨stack, .number true .sign⟩ [Nat.digitChar d] ⟨stack, .number true (.integer d)⟩ := by
  have hne : d ≠ 0 := by omega
  refine .char ?_
  simp only [State.next, NumberState.next, digit?_digitChar hd, if_neg hne]

/-- An integer is read, up to what may follow it. -/
theorem Expects.reads_integer (h : Expects stack st) {i : Int}
    (range : -9223372036854775808 ≤ i ∧ i < 18446744073709551616) :
    ∃ st', st.Reads (Numeral.ofInt i) st' ∧ Completes stack (.number (.integer i range)) st' := by
  rw [Numeral.ofInt]
  -- A minus sign comes before the digits of a negative integer, and zero is a digit of its own
  -- kind.
  rcases Int.lt_trichotomy i 0 with hneg | rfl | hpos
  · have habs : 0 < i.natAbs ∧ i.natAbs < 2 ^ 64 := by omega
    rw [if_pos hneg]
    refine ⟨_, .cons (h.next rfl (by decide) rfl)
      (reads_digits habs.1 habs.2 fun d hd hlt => reads_digit_of_sign hd hlt), ?_⟩
    exact completes_integer range (by rw [if_pos rfl]; omega) (by omega)
  · refine ⟨_, h.reads_digit (d := 0) (by decide), ?_⟩
    refine completes_number ?_ rfl
    rintro c (rfl | rfl) <;> rfl
  · have habs : 0 < i.natAbs ∧ i.natAbs < 2 ^ 64 := by omega
    rw [if_neg (by omega)]
    refine ⟨⟨stack, .number false (.integer i.natAbs)⟩,
      reads_digits habs.1 habs.2 fun d hd hlt => ?_, ?_⟩
    · have hfirst := h.reads_digit hlt
      rwa [if_neg (by omega)] at hfirst
    · exact completes_integer range (by rw [if_neg Bool.false_ne_true]; omega) (by simp)

end LayeredConfig.Json.State
