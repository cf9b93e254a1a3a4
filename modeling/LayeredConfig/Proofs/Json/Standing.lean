import LayeredConfig.Proofs.Json.Grammar
import LayeredConfig.Proofs.Json.Reading
import LayeredConfig.SortedMap.Lemmas

/-!
# What is read where a text stands

A text that is read without an error leads the reader through one state per character.  Behind the
text of a value the reader is in a state that only the next character settles, since a number may go
on; the value is known as far as something is known of every value that may be complete there.

## Key results

- `State.run_spells`: the characters of a string
- `State.known`: what the reader holds behind a piece of a document
- `State.run_stands`: what it holds behind a document with a literal at a path
- `read_stands`: what stands at a path of a text is found at that path of the document
-/

namespace LayeredConfig.Json

namespace State

variable {st st' st'' : State} {stack : List Frame} {s t : List Char} {c : Char} {v : Json}
  {Q : Json → Prop}

/-! ## Runs -/

/-- The state behind a text, if no character of it is at fault. -/
def run (st : State) : List Char → Option State
  | [] => some st
  | c :: rest =>
    match st.next (.char c) with
    | .ok st => run st rest
    | .error _ => none

/-- A run over a text begins with its first character. -/
theorem run_cons_eq_some (h : st.run (c :: s) = some st') :
    ∃ st₁, st.next (.char c) = .ok st₁ ∧ st₁.run s = some st' := by
  simp only [run] at h
  split at h
  · next st₁ hnext => exact ⟨st₁, hnext, h⟩
  · exact nomatch h

/-- A run over two texts is a run over one and then over the other. -/
theorem run_append_eq_some (h : st.run (s ++ t) = some st') :
    ∃ st₁, st.run s = some st₁ ∧ st₁.run t = some st' := by
  induction s generalizing st with
  | nil => exact ⟨st, rfl, h⟩
  | cons c s ih =>
    obtain ⟨st₁, hnext, hrest⟩ := run_cons_eq_some h
    obtain ⟨st₂, hs, ht⟩ := ih hrest
    exact ⟨st₂, by simp only [run, hnext, hs], ht⟩

/-- The last character of a text. -/
theorem run_snoc_eq_some (h : st.run (s ++ [c]) = some st') :
    ∃ st₁, st.run s = some st₁ ∧ st₁.next (.char c) = .ok st' := by
  obtain ⟨st₁, hs, hc⟩ := run_append_eq_some h
  obtain ⟨st₂, hnext, hend⟩ := run_cons_eq_some hc
  cases hend
  exact ⟨st₁, hs, hnext⟩

/-- A text that holds a document is read to the end. -/
theorem run_of_readFrom {p : Position} {j : Json}
    (h : readFrom st p (RawText.ofChars s) = .ok j) :
    ∃ st', st.run s = some st' ∧ st'.finish = .ok j := by
  induction s generalizing st p with
  | nil =>
    rw [RawText.ofChars, List.map_nil, readFrom] at h
    cases hfinish : st.finish with
    | ok j' =>
      rw [hfinish] at h
      cases h
      exact ⟨st, rfl, hfinish⟩
    | error r =>
      rw [hfinish] at h
      cases h
  | cons c s ih =>
    rw [RawText.ofChars, List.map_cons, readFrom] at h
    split at h
    · next st₁ hnext =>
      obtain ⟨st', hrun, hfinish⟩ := ih h
      exact ⟨st', by simp only [run, hnext, hrun], hfinish⟩
    -- A step that fails ends the reading with its error.
    · cases h

/-! ## Between tokens -/

/-- White space leads nowhere between tokens. -/
theorem run_blank (hbetween : st.isBetween = true) (hs : Blank s) (h : st.run s = some st') :
    st' = st := by
  induction s generalizing st with
  | nil => exact (Option.some.inj h).symm
  | cons c s ih =>
    rw [Blank, List.all_cons, Bool.and_eq_true] at hs
    obtain ⟨st₁, hnext, hrest⟩ := run_cons_eq_some h
    rw [next_space hbetween hs.1] at hnext
    cases hnext
    exact ih hbetween hs.2 hrest

/-- A value may begin in the given containers, after white space. -/
def Starts (stack : List Frame) (st : State) : Prop := st.isBetween = true ∧ Expects stack st

/-- A value may begin where one has to. -/
theorem starts_value (stack : List Frame) : Starts stack ⟨stack, .value⟩ :=
  ⟨rfl, expects_value stack⟩

/-- A value may begin in an array that is still empty. -/
theorem starts_firstItem (stack : List Frame) : Starts (.item [] :: stack) ⟨stack, .firstItem⟩ :=
  ⟨rfl, expects_firstItem stack⟩

/-- A value may begin behind a comma in an array. -/
theorem starts_nextItem (stack : List Frame) (before : List Json) :
    Starts (.item before :: stack) ⟨stack, .nextItem before⟩ := ⟨rfl, expects_nextItem stack before⟩

/-- The first character of a value decides how the value is read. -/
theorem Starts.next_eq_ok (h : Starts stack st) (hspace : isSpace c = false) (hne : c ≠ ']')
    (hnext : st.next (.char c) = .ok st') : startValue stack c = .ok st' := by
  rw [h.2 c hspace hne] at hnext
  cases hstart : startValue stack c with
  | ok st₁ =>
    rw [hstart] at hnext
    exact congrArg _ (Except.ok.inj hnext)
  | error r =>
    rw [hstart] at hnext
    exact nomatch hnext

/-- A container that is opened is empty. -/
theorem openContainer_eq_ok {mode : Mode} (h : openContainer stack mode = .ok st) :
    st = ⟨stack, mode⟩ := by
  unfold openContainer at h
  split at h
  · exact nomatch h
  · exact (Except.ok.inj h).symm

/-! ## Strings -/

variable {key : Option (SortedMap String Json)} {chars : List Char}

/-- Four digits are read as their code unit. -/
theorem run_unit {lead : Option Nat} {a b d e : Char} {n : Nat} {r : Char ⊕ Nat}
    (h : codeUnit? a b d e = some n) (hunit : codeUnit lead n = .ok r) :
    run ⟨stack, .string key chars 0 (.unit lead 0 0 true)⟩ (a :: b :: d :: e :: t) =
      (afterUnit stack key chars r).run t := by
  unfold codeUnit? at h
  simp only [Option.bind_eq_bind, Option.bind_eq_some_iff, Option.pure_def, Option.some.injEq] at h
  obtain ⟨a', ha, b', hb, d', hd, e', he, rfl⟩ := h
  -- The reader starts from zero.
  have hzero : (((0 * 16 + a') * 16 + b') * 16 + d') * 16 + e' =
      ((a' * 16 + b') * 16 + d') * 16 + e' := by omega
  rw [← hzero] at hunit
  simp only [run, next_unit (n := 0) (by decide) ha, next_unit (n := 1) (by decide) hb,
    next_unit (n := 2) (by decide) hd, next_lastUnit he hunit]

/-- A letter behind a backslash stands for a character. -/
theorem next_letter {d : Char} (h : letter? c = some d) :
    State.next ⟨stack, .string key chars 0 .backslash⟩ (.char c) =
      .ok ⟨stack, .string key (d :: chars) 0 .no⟩ := by
  have hne : c ≠ 'u' := by
    rintro rfl
    exact nomatch h
  simp only [State.next, inString, h, if_pos]

/-- A leading surrogate waits for a trailing one. -/
theorem codeUnit_of_leading {n : Nat} (h : 0xd800 ≤ n ∧ n ≤ 0xdbff) :
    codeUnit none n = .ok (.inr n) := by
  have htrailing : (0xdc00 ≤ n && n ≤ 0xdfff) = false := by
    rw [Bool.and_eq_false_iff, decide_eq_false_iff_not, decide_eq_false_iff_not]
    omega
  simp [codeUnit, htrailing, h]

/-- A leading and a trailing surrogate together are a character. -/
theorem codeUnit_of_trailing {l n : Nat} (h : 0xdc00 ≤ n ∧ n ≤ 0xdfff) :
    codeUnit (some l) n = .ok (.inl (.ofNat (0x10000 + (l - 0xd800) * 0x400 + (n - 0xdc00)))) := by
  simp [codeUnit, h]

/-- The text of a string, up to its end quote. -/
theorem run_spells (hs : Spells t s) (h : run ⟨stack, .string key chars 0 .no⟩ t = some st') :
    st' = ⟨stack, .string key (s.reverse ++ chars) 0 .no⟩ := by
  -- For any characters read before, since each one is put before them.
  induction hs generalizing chars with
  | nil => exact (Option.some.inj h).symm
  | @plain c t s hquote hbackslash _ ih =>
    obtain ⟨st₁, hnext, hrest⟩ := run_cons_eq_some h
    simp only [State.next, inString, if_neg hquote, if_neg hbackslash] at hnext
    split at hnext
    · cases hnext
    · cases hnext
      rw [List.reverse_cons, List.append_assoc]
      exact ih hrest
  | @letter c d t s hletter _ ih =>
    obtain ⟨st₁, hnext, hrest⟩ := run_cons_eq_some h
    cases hnext
    simp only [run, next_letter hletter] at hrest
    rw [List.reverse_cons, List.append_assoc]
    exact ih hrest
  | unit hn hrange _ ih =>
    obtain ⟨st₁, hnext, hrest⟩ := run_cons_eq_some h
    cases hnext
    obtain ⟨st₂, hnext, hrest⟩ := run_cons_eq_some hrest
    cases hnext
    rw [run_unit hn (codeUnit_of_plain hrange)] at hrest
    rw [List.reverse_cons, List.append_assoc]
    exact ih hrest
  -- The leading surrogate is kept until its trailing one has been read.
  | surrogates hl hlead hn htrail _ ih =>
    obtain ⟨st₁, hnext, hrest⟩ := run_cons_eq_some h
    cases hnext
    obtain ⟨st₂, hnext, hrest⟩ := run_cons_eq_some hrest
    cases hnext
    rw [run_unit hl (codeUnit_of_leading hlead)] at hrest
    obtain ⟨st₃, hnext, hrest⟩ := run_cons_eq_some hrest
    cases hnext
    obtain ⟨st₄, hnext, hrest⟩ := run_cons_eq_some hrest
    cases hnext
    rw [run_unit hn (codeUnit_of_trailing htrail)] at hrest
    rw [List.reverse_cons, List.append_assoc]
    exact ih hrest

/-! ## Behind a value -/

/-- The text of a value in the given containers has been read, and `Q` holds of the value, if it is
complete.  Words and numbers may go on. -/
inductive Behind (stack : List Frame) (Q : Json → Prop) : State → Prop
  | complete {v : Json} : Q v → Behind stack Q (complete stack v)
  | number {negative : Bool} {digits : NumberState} :
      (∀ n, digits.finish negative = .ok n → Q (.number n)) →
      Behind stack Q ⟨stack, .number negative digits⟩
  | word {rest : List Char} {v : Json} : rest ≠ [] → rest.all isPlain = true →
      Behind stack Q ⟨stack, .word rest v⟩

/-- What is known of the value may be weakened. -/
theorem Behind.mono {Q' : Json → Prop} (h : Behind stack Q st) (hQ : ∀ v, Q v → Q' v) :
    Behind stack Q' st := by
  cases h with
  | complete hv => exact .complete (hQ _ hv)
  | number hn => exact .number fun n hfinish => hQ _ (hn n hfinish)
  | word hne hplain => exact .word hne hplain

/-- White space is no part of words and numbers. -/
theorem isPlain_of_isSpace (h : isSpace c = true) : isPlain c = false := by
  simp only [isSpace, Bool.or_eq_true, beq_iff_eq] at h
  rcases h with ((rfl | rfl) | rfl) | rfl <;> rfl

theorem isSpace_eq_false (hc : isPlain c = true) : isSpace c = false := by
  rw [← Bool.not_eq_true]
  intro hspace
  rw [isPlain_of_isSpace hspace] at hc
  cases hc

/-- A plain character differs from every character of another kind. -/
theorem ne_of_isPlain {d : Char} (hc : isPlain c = true) (hd : isPlain d = false) : c ≠ d := by
  rintro rfl
  rw [hc] at hd
  cases hd

/-- Digits are characters of numbers. -/
theorem digit?_eq_none (hc : isPlain c = false) : NumberState.digit? c = none := by
  unfold NumberState.digit?
  split
  · next hdigit =>
    have hdec : c.isDigit = true := by
      simpa [Char.isDigit, Char.le_def] using hdigit
    simp [isPlain, Char.isAlphanum, hdec] at hc
  · rfl

/-- Only the characters of numbers belong to a number. -/
theorem next_number_ne_some {digits digits' : NumberState} (hc : isPlain c = false) :
    digits.next c ≠ .ok (some digits') := by
  have hdigit := digit?_eq_none hc
  have hne {d : Char} (hd : isPlain d = true) : c ≠ d := (ne_of_isPlain hd hc).symm
  have hplus : c ≠ '+' := hne rfl
  have hminus : c ≠ '-' := hne rfl
  have hpoint : c ≠ '.' := hne rfl
  have hmark : c ≠ 'e' ∧ c ≠ 'E' := ⟨hne rfl, hne rfl⟩
  have hafter (s : Nat) (e : Int) (points : Bool) :
      NumberState.afterDigits s e points c = none := by
    simp [NumberState.afterDigits, hpoint, hmark]
  cases digits <;> simp [NumberState.next, hdigit, hafter, hplus, hminus]

/-- Any other character ends the value. -/
theorem Behind.next (h : Behind stack Q st) (hc : isPlain c = false)
    (hnext : st.next (.char c) = .ok st') :
    ∃ v, Q v ∧ (State.complete stack v).next (.char c) = .ok st' := by
  cases h with
  | complete hv => exact ⟨_, hv, hnext⟩
  | @number negative digits hn =>
    simp only [State.next] at hnext
    split at hnext
    · cases hnext
    · next digits' hdigits => exact absurd hdigits (next_number_ne_some hc)
    · split at hnext
      · cases hnext
      · next n hfinish =>
        refine ⟨_, hn n hfinish, ?_⟩
        rw [next_of_isBetween (isBetween_complete stack _)]
        exact hnext
  | @word rest v hne hplain =>
    cases rest with
    | nil => exact absurd rfl hne
    | cons d rest =>
      rw [List.all_cons, Bool.and_eq_true] at hplain
      have hne : d ≠ c := ne_of_isPlain hplain.1 hc
      simp [State.next, hne.symm] at hnext

/-- White space settles the value behind which it stands. -/
theorem Behind.run_blank (h : Behind stack Q st) (hs : Blank s) (hrun : st.run s = some st') :
    Behind stack Q st' := by
  cases s with
  | nil =>
    cases hrun
    exact h
  | cons c s =>
    rw [Blank, List.all_cons, Bool.and_eq_true] at hs
    obtain ⟨st₁, hnext, hrest⟩ := run_cons_eq_some hrun
    obtain ⟨v, hv, hnext⟩ := h.next (isPlain_of_isSpace hs.1) hnext
    rw [next_space (isBetween_complete stack v) hs.1] at hnext
    cases hnext
    rw [State.run_blank (isBetween_complete stack v) hs.2 hrest]
    exact .complete hv

/-- Behind a complete value no word or number can begin. -/
theorem next_complete_ne_ok (hc : isPlain c = true) :
    (State.complete stack v).next (.char c) ≠ .ok st' := by
  have hcomma : c ≠ ',' := ne_of_isPlain hc rfl
  have hbracket : c ≠ ']' := ne_of_isPlain hc rfl
  have hbrace : c ≠ '\x7d' := ne_of_isPlain hc rfl
  rw [next_of_isBetween (isBetween_complete stack v), between, isSpace_eq_false hc]
  cases stack with
  | nil => simp [State.complete, token, Except.mapError]
  | cons frame stack =>
    cases frame with
    | item before => simp [State.complete, token, hbracket, hcomma, Except.mapError]
    | member before key => simp [State.complete, token, hbrace, hcomma, Except.mapError]

/-- One more character of a word or a number. -/
theorem Behind.next_plain (h : Behind stack Q st) (hc : isPlain c = true)
    (hnext : st.next (.char c) = .ok st') : Behind stack (fun _ => True) st' := by
  cases h with
  -- Behind a complete value no plain character may come.
  | complete hv => exact absurd hnext (next_complete_ne_ok hc)
  | @number negative digits hn =>
    simp only [State.next] at hnext
    split at hnext
    · cases hnext
    · cases hnext
      exact .number fun _ _ => trivial
    · split at hnext
      · cases hnext
      -- The character ends the number, and then it would have to come behind a complete value.
      · next n hfinish =>
        rw [← next_of_isBetween (isBetween_complete stack _)] at hnext
        exact absurd hnext (next_complete_ne_ok hc)
  | @word rest v hne hplain =>
    cases rest with
    | nil => exact absurd rfl hne
    | cons d rest =>
      rw [List.all_cons, Bool.and_eq_true] at hplain
      simp only [State.next] at hnext
      split at hnext
      · split at hnext
        · cases hnext
          exact .complete trivial
        · next hrest =>
          cases hnext
          exact .word (by simpa using hrest) hplain.2
      · cases hnext

/-- The first character of a word or a number. -/
theorem Starts.next_plain (h : Starts stack st) (hc : isPlain c = true)
    (hnext : st.next (.char c) = .ok st') : Behind stack (fun _ => True) st' := by
  have hstart := h.next_eq_ok (isSpace_eq_false hc) (ne_of_isPlain hc rfl) hnext
  -- The words, then the marks that are not plain, and last the two ways in which a number begins.
  unfold startValue at hstart
  split at hstart
  · cases hstart
    exact .word (List.cons_ne_nil _ _) rfl
  · cases hstart
    exact .word (List.cons_ne_nil _ _) rfl
  · cases hstart
    exact .word (List.cons_ne_nil _ _) rfl
  · cases hc
  · cases hc
  · cases hc
  · cases hstart
    exact .number fun _ _ => trivial
  · split at hstart
    · cases hstart
      exact .number fun _ _ => trivial
    · cases hstart

/-- The other characters of a word or a number. -/
theorem Behind.run_plain (h : Behind stack Q st) (hs : s.all isPlain = true)
    (hrun : st.run s = some st') : Behind stack (fun _ => True) st' := by
  induction s generalizing st Q with
  | nil =>
    cases hrun
    exact h.mono fun _ _ => trivial
  | cons c s ih =>
    rw [List.all_cons, Bool.and_eq_true] at hs
    obtain ⟨st₁, hnext, hrest⟩ := run_cons_eq_some hrun
    exact ih (h.next_plain hs.1 hnext) hs.2 hrest

/-! ## Keys -/

/-- A key may begin behind the members `before` of an object. -/
inductive AtKey (stack : List Frame) : SortedMap String Json → State → Prop
  | first : AtKey stack .nil ⟨stack, .firstKey⟩
  | next {before : SortedMap String Json} : AtKey stack before ⟨stack, .nextKey before⟩

/-- Where a key may begin, white space may stand. -/
theorem AtKey.isBetween {before : SortedMap String Json} (h : AtKey stack before st) :
    st.isBetween = true := by
  cases h with
  | first => rfl
  | next => rfl

/-- Behind a key and its colon its value begins. -/
theorem AtKey.run_keyText {before : SortedMap String Json} {key : String}
    (h : AtKey stack before st) (hs : KeyText key s) (hrun : st.run s = some st') :
    st' = ⟨.member before key :: stack, .value⟩ := by
  obtain ⟨hbefore, ht, hafter⟩ := hs
  obtain ⟨st₁, hrun₁, hrest⟩ := run_append_eq_some hrun
  rw [run_blank h.isBetween hbefore hrun₁] at hrest
  -- The text is gone through piece by piece, and each piece leaves one state only.
  obtain ⟨st₂, hquote, hrest⟩ := run_cons_eq_some hrest
  have hst₂ : st₂ = ⟨stack, .string (some before) [] 0 .no⟩ := by
    cases h with
    | first => exact (Except.ok.inj hquote).symm
    | next => exact (Except.ok.inj hquote).symm
  subst hst₂
  obtain ⟨st₃, hrun₃, hrest⟩ := run_append_eq_some hrest
  rw [run_spells ht hrun₃, List.append_nil] at hrest
  obtain ⟨st₄, hend, hrest⟩ := run_cons_eq_some hrest
  have hst₄ : st₄ = ⟨stack, .afterKey before key⟩ := by
    cases hend
    simp [completeString]
  subst hst₄
  obtain ⟨st₅, hrun₅, hcolon⟩ := run_snoc_eq_some hrest
  rw [run_blank rfl hafter hrun₅] at hcolon
  exact (Except.ok.inj hcolon).symm

/-! ## Containers -/

theorem Starts.next_quote (h : Starts stack st) (hnext : st.next (.char '"') = .ok st') :
    st' = ⟨stack, .string none [] 0 .no⟩ :=
  (Except.ok.inj (h.next_eq_ok rfl (by decide) hnext)).symm

theorem Starts.next_bracket (h : Starts stack st) (hnext : st.next (.char '[') = .ok st') :
    st' = ⟨stack, .firstItem⟩ :=
  openContainer_eq_ok (h.next_eq_ok rfl (by decide) hnext)

theorem Starts.next_brace (h : Starts stack st) (hnext : st.next (.char '\x7b') = .ok st') :
    st' = ⟨stack, .firstKey⟩ :=
  openContainer_eq_ok (h.next_eq_ok rfl (by decide) hnext)

variable {items : List Json} {before : SortedMap String Json} {key : String}

/-- A comma puts an item to those before it. -/
theorem Behind.item_comma (h : Behind (.item items :: stack) Q st)
    (hnext : st.next (.char ',') = .ok st') :
    ∃ v, Q v ∧ st' = ⟨stack, .nextItem (v :: items)⟩ := by
  obtain ⟨v, hv, hnext⟩ := h.next rfl hnext
  exact ⟨v, hv, (Except.ok.inj hnext).symm⟩

/-- A bracket makes an array of the item and those before it. -/
theorem Behind.item_end (h : Behind (.item items :: stack) Q st)
    (hnext : st.next (.char ']') = .ok st') :
    ∃ v, Q v ∧ st' = State.complete stack (.array (v :: items).reverse) := by
  obtain ⟨v, hv, hnext⟩ := h.next rfl hnext
  exact ⟨v, hv, (Except.ok.inj hnext).symm⟩

/-- A comma puts a member to those before it. -/
theorem Behind.member_comma (h : Behind (.member before key :: stack) Q st)
    (hnext : st.next (.char ',') = .ok st') :
    ∃ v, Q v ∧ st' = ⟨stack, .nextKey (before.insert key v)⟩ := by
  obtain ⟨v, hv, hnext⟩ := h.next rfl hnext
  exact ⟨v, hv, (Except.ok.inj hnext).symm⟩

/-- A brace makes an object of the member and those before it. -/
theorem Behind.member_end (h : Behind (.member before key :: stack) Q st)
    (hnext : st.next (.char '\x7d') = .ok st') :
    ∃ v, Q v ∧ st' = State.complete stack (.object (before.insert key v)) := by
  obtain ⟨v, hv, hnext⟩ := h.next rfl hnext
  exact ⟨v, hv, (Except.ok.inj hnext).symm⟩

/-! ## Pieces -/

/-- What is known behind a piece of a document, read where it may begin: there is a value.  Members
only change what stands at their own keys. -/
def Known : Part → List Char → Prop
  | .value, s => ∀ {stack st st'}, Starts stack st → st.run s = some st' →
      Behind stack (fun _ => True) st'
  | .items, s => ∀ {stack items st st'}, Starts (.item items :: stack) st →
      st.run s = some st' → ∃ items', Behind (.item items' :: stack) (fun _ => True) st'
  | .members keys, s => ∀ {stack before st st'}, AtKey stack before st → st.run s = some st' →
      ∃ before' key, key ∈ keys ∧ (∀ k ∉ keys, before'.find? k = before.find? k) ∧
        Behind (.member before' key :: stack) (fun _ => True) st'

/-- What is known behind a piece of a document. -/
theorem known {part : Part} (h : Piece part s) : Known part s := by
  -- On the piece, as the reader meets it: what is known of its parts is known behind each of them.
  induction h with
  | @plain s hne hplain =>
    intro stack st st' hst hrun
    cases s with
    | nil => exact absurd rfl hne
    | cons c s =>
      rw [List.all_cons, Bool.and_eq_true] at hplain
      obtain ⟨st₁, hnext, hrest⟩ := run_cons_eq_some hrun
      exact (hst.next_plain hplain.1 hnext).run_plain hplain.2 hrest
  | string ht =>
    intro stack st st' hst hrun
    obtain ⟨st₁, hquote, hrest⟩ := run_cons_eq_some hrun
    obtain ⟨st₂, hrun₂, hend⟩ := run_snoc_eq_some hrest
    rw [hst.next_quote hquote] at hrun₂
    rw [run_spells ht hrun₂] at hend
    cases hend
    exact .complete trivial
  | emptyArray hs =>
    intro stack st st' hst hrun
    obtain ⟨st₁, hbracket, hrest⟩ := run_cons_eq_some hrun
    obtain ⟨st₂, hrun₂, hend⟩ := run_snoc_eq_some hrest
    rw [hst.next_bracket hbracket] at hrun₂
    rw [run_blank rfl hs hrun₂] at hend
    cases hend
    exact .complete trivial
  | array _ ih =>
    intro stack st st' hst hrun
    obtain ⟨st₁, hbracket, hrest⟩ := run_cons_eq_some hrun
    obtain ⟨st₂, hrun₂, hend⟩ := run_snoc_eq_some hrest
    rw [hst.next_bracket hbracket] at hrun₂
    obtain ⟨items, hitems⟩ := ih (starts_firstItem stack) hrun₂
    obtain ⟨v, -, rfl⟩ := hitems.item_end hend
    exact .complete trivial
  | emptyObject hs =>
    intro stack st st' hst hrun
    obtain ⟨st₁, hbrace, hrest⟩ := run_cons_eq_some hrun
    obtain ⟨st₂, hrun₂, hend⟩ := run_snoc_eq_some hrest
    rw [hst.next_brace hbrace] at hrun₂
    rw [run_blank rfl hs hrun₂] at hend
    cases hend
    exact .complete trivial
  | object _ ih =>
    intro stack st st' hst hrun
    obtain ⟨st₁, hbrace, hrest⟩ := run_cons_eq_some hrun
    obtain ⟨st₂, hrun₂, hend⟩ := run_snoc_eq_some hrest
    rw [hst.next_brace hbrace] at hrun₂
    obtain ⟨before, key, -, -, hmembers⟩ := ih .first hrun₂
    obtain ⟨v, -, rfl⟩ := hmembers.member_end hend
    exact .complete trivial
  | spaced hbefore _ hafter ih =>
    intro stack st st' hst hrun
    obtain ⟨st₁, hrun₁, hrest⟩ := run_append_eq_some hrun
    rw [run_blank hst.1 hbefore hrun₁] at hrest
    obtain ⟨st₂, hrun₂, hrest⟩ := run_append_eq_some hrest
    exact (ih hst hrun₂).run_blank hafter hrest
  | item _ ih =>
    intro stack items st st' hst hrun
    exact ⟨items, ih hst hrun⟩
  | nextItem _ _ ihs iht =>
    intro stack items st st' hst hrun
    obtain ⟨st₁, hrun₁, hrest⟩ := run_append_eq_some hrun
    obtain ⟨items', hitems⟩ := ihs hst hrun₁
    obtain ⟨st₂, hcomma, hrun₂⟩ := run_cons_eq_some hrest
    obtain ⟨v, -, rfl⟩ := hitems.item_comma hcomma
    exact ⟨v :: items', iht (starts_nextItem stack _) hrun₂⟩
  | @member key k s hk _ ih =>
    intro stack before st st' hst hrun
    obtain ⟨st₁, hrun₁, hrest⟩ := run_append_eq_some hrun
    rw [hst.run_keyText hk hrun₁] at hrest
    exact ⟨before, key, List.mem_singleton_self key, fun _ _ => rfl, ih (starts_value _) hrest⟩
  | @nextMember keys key s k t _ hk _ ihs iht =>
    intro stack before st st' hst hrun
    obtain ⟨st₁, hrun₁, hrest⟩ := run_append_eq_some hrun
    obtain ⟨before', key', hmem, hothers, hmembers⟩ := ihs hst hrun₁
    obtain ⟨st₂, hcomma, hrest⟩ := run_cons_eq_some hrest
    obtain ⟨v, -, rfl⟩ := hmembers.member_comma hcomma
    obtain ⟨st₃, hrun₃, hrest⟩ := run_append_eq_some hrest
    rw [AtKey.next.run_keyText hk hrun₃] at hrest
    refine ⟨before'.insert key' v, key, List.mem_cons_self, fun k' hk' => ?_,
      iht (starts_value _) hrest⟩
    obtain ⟨-, hk'⟩ := not_or.mp (mt List.mem_cons.mpr hk')
    -- The member before this one was inserted under one of its own keys.
    have hne : k' ≠ key' := by
      rintro rfl
      exact hk' hmem
    rw [Entries.find?_insert, if_neg hne, hothers k' hk']

/-! ## Where a text stands -/

/-- `Q` holds of the value to which a path leads through the objects of a document. -/
def Found (Q : Json → Prop) : List String → Json → Prop
  | [], v => Q v
  | key :: path, .object members => ∃ v, members.find? key = some v ∧ Found Q path v
  | _ :: _, _ => False

/-- Behind the members before it a key may begin. -/
theorem AtKey.run_membersBefore (hs : MembersBefore s)
    (hrun : State.run ⟨stack, .firstKey⟩ s = some st') : ∃ before, AtKey stack before st' := by
  cases hs with
  | none =>
    cases hrun
    exact ⟨.nil, .first⟩
  | some hmembers =>
    obtain ⟨st₁, hrun₁, hcomma⟩ := run_snoc_eq_some hrun
    obtain ⟨before, key, -, -, hbehind⟩ := known hmembers .first hrun₁
    obtain ⟨v, -, rfl⟩ := hbehind.member_comma hcomma
    exact ⟨before.insert key v, .next⟩

/-- The members behind a value leave it in its place, up to the end of the object. -/
theorem Behind.run_membersAfter (h : Behind (.member before key :: stack) Q st)
    (hs : MembersAfter key s) (hrun : st.run (s ++ ['\x7d']) = some st') :
    ∃ members v, st' = State.complete stack (.object members) ∧ members.find? key = some v ∧
      Q v := by
  obtain ⟨st₁, hrun₁, hend⟩ := run_snoc_eq_some hrun
  cases hs with
  | none =>
    cases hrun₁
    obtain ⟨v, hv, rfl⟩ := h.member_end hend
    exact ⟨_, v, rfl, by rw [Entries.find?_insert, if_pos rfl], hv⟩
  | some hmembers hkey =>
    obtain ⟨st₂, hcomma, hrun₂⟩ := run_cons_eq_some hrun₁
    obtain ⟨v, hv, rfl⟩ := h.member_comma hcomma
    obtain ⟨before', key', hmem, hothers, hbehind⟩ := known hmembers .next hrun₂
    obtain ⟨v', -, rfl⟩ := hbehind.member_end hend
    -- No later member has the key, so none takes the place of the value.
    have hne : key ≠ key' := by
      rintro rfl
      exact hkey hmem
    refine ⟨_, v, rfl, ?_, hv⟩
    rw [Entries.find?_insert, if_neg hne, hothers key hkey, Entries.find?_insert, if_pos rfl]

/-- Behind a document the value at a path is as it was behind the text that stands there. -/
theorem run_stands {literal : List Char} {path : List String}
    (hliteral : ∀ {stack st st'}, Starts stack st → st.run literal = some st' → Behind stack Q st')
    (hs : Stands literal path s) (hst : Starts stack st) (hrun : st.run s = some st') :
    Behind stack (Found Q path) st' := by
  -- On where the text stands: inside one more object the reader has one more frame.
  induction hs generalizing stack st st' with
  | root => exact hliteral hst hrun
  | spaced hbefore _ hafter ih =>
    obtain ⟨st₁, hrun₁, hrest⟩ := run_append_eq_some hrun
    rw [run_blank hst.1 hbefore hrun₁] at hrest
    obtain ⟨st₂, hrun₂, hrest⟩ := run_append_eq_some hrest
    exact (ih hst hrun₂).run_blank hafter hrest
  | member hbefore hk _ hafter ih =>
    obtain ⟨st₁, hbrace, hrest⟩ := run_cons_eq_some hrun
    rw [hst.next_brace hbrace] at hrest
    obtain ⟨st₂, hrun₂, hrest⟩ := run_append_eq_some hrest
    obtain ⟨before, hat⟩ := AtKey.run_membersBefore hbefore hrun₂
    obtain ⟨st₃, hrun₃, hrest⟩ := run_append_eq_some hrest
    rw [hat.run_keyText hk hrun₃] at hrest
    obtain ⟨st₄, hrun₄, hrest⟩ := run_append_eq_some hrest
    obtain ⟨members, v, rfl, hfind, hv⟩ :=
      (ih (starts_value _) hrun₄).run_membersAfter hafter hrest
    exact .complete ⟨v, hfind, hv⟩

/-- Where the text ends, the value is complete. -/
theorem Behind.finish (h : Behind [] Q st) {j : Json} (hfinish : st.finish = .ok j) : Q j := by
  cases h with
  | complete hv =>
    cases hfinish
    exact hv
  | @number negative digits hn =>
    simp only [State.finish] at hfinish
    split at hfinish
    · exact nomatch hfinish
    · next n hn' =>
      cases hfinish
      exact hn n hn'
  | word => exact nomatch hfinish

end State

/-- What stands at a path of a text that is read is found at that path of the document. -/
theorem read_stands {literal text : List Char} {path : List String} {Q : Json → Prop} {j : Json}
    (hliteral : ∀ {stack st st'}, State.Starts stack st → st.run literal = some st' →
      State.Behind stack Q st')
    (hs : Stands literal path text) (hread : read (RawText.ofChars text) = .ok j) :
    State.Found Q path j := by
  obtain ⟨st, hrun, hfinish⟩ := State.run_of_readFrom hread
  exact (State.run_stands hliteral hs (State.starts_value []) hrun).finish hfinish

end LayeredConfig.Json
