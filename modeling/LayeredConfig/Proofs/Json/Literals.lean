import LayeredConfig.Parser
import LayeredConfig.Proofs.Json.Integers
import LayeredConfig.Proofs.Json.Standing

/-!
# Integer literals in documents

What the integer view gives at the path of an integer literal, from the literal's digits through the
document to the bag.

## Key results

- `Json.State.run_literal`: the number behind an integer literal
- `Json.State.Found.getAt`: what is found in a document is found in its bag
- `Parser.int?_json`: the integer view of an integer literal
- `Parser.int?_json_misread`: an integer below the range is read as the least one in it
-/

namespace LayeredConfig

/-- An integer literal is at least one digit behind its sign. -/
theorem Numeral.int?_eq_some {s : List Char} {n : Int} (h : int? s = some n) :
    ∃ negative c ds, takeSign s = (negative, c :: ds) ∧ (∀ d ∈ c :: ds, isDigit d = true) ∧
      n = if negative then -(ofDigits (c :: ds) : Int) else ofDigits (c :: ds) := by
  unfold int? at h
  generalize takeSign s = r at h ⊢
  obtain ⟨negative, ds⟩ := r
  cases ds with
  | nil => exact nomatch h
  | cons c ds =>
    simp only [List.isEmpty_cons, Bool.false_or] at h
    split at h
    · exact nomatch h
    · next hall =>
      rw [Bool.not_eq_true', Bool.not_eq_false] at hall
      exact ⟨negative, c, ds, rfl, List.all_eq_true.mp hall, (Option.some.inj h).symm⟩

namespace Json.State

variable {st st' : State} {stack : List Frame} {s literal : List Char} {c : Char} {d m : Nat}
  {n : Int} {negative : Bool} {digits : NumberState}

/-! ## Digits -/

/-- A digit is a digit of numbers, too. -/
theorem digit?_of_isDigit (h : Numeral.isDigit c = true) :
    NumberState.digit? c = some (c.toNat - 48) := if_pos h

/-- A digit goes on with the digits before it. -/
theorem next_digit (h : NumberState.Tallies m digits) (hd : NumberState.digit? c = some d)
    (hnext : State.next ⟨stack, .number negative digits⟩ (.char c) = .ok st') :
    ∃ digits', st' = ⟨stack, .number negative digits'⟩ ∧
      NumberState.Tallies (m * 10 + d) digits' := by
  simp only [State.next] at hnext
  split at hnext
  · cases hnext
  · next digits' hdigits =>
    cases hnext
    exact ⟨digits', rfl, h.next hd hdigits⟩
  · next hnone => exact absurd hnone (h.next_ne_none hd)

/-- All digits of a literal go on with those before them. -/
theorem run_digits (h : NumberState.Tallies m digits)
    (hs : ∀ c ∈ s, Numeral.isDigit c = true)
    (hrun : State.run ⟨stack, .number negative digits⟩ s = some st') :
    ∃ digits', st' = ⟨stack, .number negative digits'⟩ ∧
      NumberState.Tallies (s.foldl (fun m c => 10 * m + (c.toNat - 48)) m) digits' := by
  -- The tally of the digits so far is what the first digit goes on from.
  induction s generalizing m digits with
  | nil =>
    cases hrun
    exact ⟨digits, rfl, h⟩
  | cons c s ih =>
    obtain ⟨st₁, hnext, hrest⟩ := run_cons_eq_some hrun
    obtain ⟨digits', rfl, h'⟩ :=
      next_digit h (digit?_of_isDigit (hs c List.mem_cons_self)) hnext
    rw [Nat.mul_comm] at h'
    exact ih h' (fun d hd => hs d (List.mem_cons_of_mem c hd)) hrest

/-- The first digit of a number, where its sign or nothing was read. -/
theorem tallies_first (d : Nat) (hd : d < 10) :
    NumberState.Tallies d (if d = 0 then .zero else .integer d) := by
  split
  · next hzero =>
    subst hzero
    exact .zero
  · exact .integer (by omega) (by omega)

/-- The first digit behind a sign begins the integer of the number. -/
theorem next_sign (hd : NumberState.digit? c = some d)
    (hnext : State.next ⟨stack, .number negative .sign⟩ (.char c) = .ok st') :
    st' = ⟨stack, .number negative (if d = 0 then .zero else .integer d)⟩ := by
  simp only [State.next, NumberState.next, hd] at hnext
  exact (Except.ok.inj hnext).symm

/-- A digit where a value may begin begins a number without a sign. -/
theorem Starts.next_digit (h : Starts stack st) (hd : NumberState.digit? c = some d)
    (hnext : st.next (.char c) = .ok st') :
    st' = ⟨stack, .number false (if d = 0 then .zero else .integer d)⟩ := by
  have hplain : isPlain c = true := by
    by_contra hplain
    rw [digit?_eq_none (eq_false_of_ne_true hplain)] at hd
    cases hd
  have hstart := h.next_eq_ok (isSpace_eq_false hplain) (ne_of_isPlain hplain rfl) hnext
  unfold startValue at hstart
  -- None of the characters with a meaning of their own is a digit.
  split at hstart
  · cases hd
  · cases hd
  · cases hd
  · cases hd
  · cases hd
  · cases hd
  · cases hd
  · rw [hd] at hstart
    exact (Except.ok.inj hstart).symm

/-! ## Literals -/

/-- What is known of a value that an integer literal writes. -/
def IsLiteral (n : Int) (v : Json) : Prop := (Value.ofJson v).int?.map Int64.toInt = literalView n

/-- The digits of a literal behind its first one. -/
theorem behind_digits (hs : ∀ d ∈ c :: s, Numeral.isDigit d = true)
    (hrun : State.run ⟨stack, .number negative
      (if c.toNat - 48 = 0 then .zero else .integer (c.toNat - 48))⟩ s = some st') :
    Behind stack (IsLiteral (if negative then -(Numeral.ofDigits (c :: s) : Int)
      else Numeral.ofDigits (c :: s))) st' := by
  have hd := digit?_of_isDigit (hs c List.mem_cons_self)
  obtain ⟨digits, rfl, hdigits⟩ := run_digits (tallies_first _ (NumberState.digit?_lt hd))
    (fun d hd => hs d (List.mem_cons_of_mem c hd)) hrun
  have hvalue : Numeral.ofDigits (c :: s) =
      s.foldl (fun m c => 10 * m + (c.toNat - 48)) (c.toNat - 48) := by
    rw [Numeral.ofDigits, List.foldl_cons, Nat.mul_zero, Nat.zero_add]
  rw [hvalue]
  exact .number fun _ hfinish => NumberState.int?_finish hdigits hfinish

/-- An integer literal has a minus sign or none.  The reader takes no plus sign. -/
theorem run_literal (hliteral : Numeral.int? literal = some n) (hst : Starts stack st)
    (hrun : st.run literal = some st') : Behind stack (IsLiteral n) st' := by
  obtain ⟨negative, c, s, hsign, hs, rfl⟩ := Numeral.int?_eq_some hliteral
  have hd := digit?_of_isDigit (hs c List.mem_cons_self)
  unfold Numeral.takeSign at hsign
  -- A minus sign, a plus sign or none: the reader takes no plus sign, so the text was not read.
  split at hsign
  · cases hsign
    obtain ⟨st₁, hminus, hrest⟩ := run_cons_eq_some hrun
    have hst₁ : ⟨stack, .number true .sign⟩ = st₁ :=
      Except.ok.inj (hst.next_eq_ok rfl (by decide) hminus)
    subst hst₁
    obtain ⟨st₂, hnext, hrest⟩ := run_cons_eq_some hrest
    rw [next_sign hd hnext] at hrest
    exact behind_digits hs hrest
  · obtain ⟨st₁, hplus, -⟩ := run_cons_eq_some hrun
    exact nomatch hst.next_eq_ok rfl (by decide) hplus
  · cases hsign
    obtain ⟨st₁, hnext, hrest⟩ := run_cons_eq_some hrun
    rw [hst.next_digit hd hnext] at hrest
    exact behind_digits hs hrest

end Json.State

/-! ## Bags -/

/-- The members of an object become the entries of a bag. -/
theorem Value.find?_ofJsonMembers {lo : Option String} (members : Entries String Json lo)
    (key : String) : (ofJsonMembers members).find? key = (members.find? key).map ofJson := by
  induction members with
  | nil => rfl
  | cons k v above rest ih =>
    simp only [ofJsonMembers, Entries.find?]
    cases compare key k <;> simp [ih]

namespace Json.State

variable {Q : Json → Prop} {j : Json}

/-- What is found in an object is found in its bag. -/
theorem Found.getAt {members : SortedMap String Json} {key : String} {tail : List String}
    (h : Found Q (key :: tail) (.object members)) :
    ∃ v, Bag.getAt (Value.ofJsonMembers members) key tail = some (Value.ofJson v) ∧ Q v := by
  -- On the path: each segment leads from an object to the value of a member.
  induction tail generalizing members key with
  | nil =>
    obtain ⟨v, hfind, hv⟩ := h
    refine ⟨v, ?_, hv⟩
    rw [Bag.getAt, Value.find?_ofJsonMembers, hfind]
    rfl
  | cons next tail ih =>
    obtain ⟨v, hfind, hv⟩ := h
    cases v with
    | object inner =>
      obtain ⟨w, hget, hw⟩ := ih hv
      refine ⟨w, ?_, hw⟩
      rw [Bag.getAt, Value.find?_ofJsonMembers, hfind]
      exact hget
    | null => exact hv.elim
    | bool => exact hv.elim
    | number => exact hv.elim
    | string => exact hv.elim
    | array => exact hv.elim

/-- What is found in a document is found in the bag that it gives. -/
theorem Found.get? {p : Path} {path : String} {b : Bag} (h : Found Q p.segments j)
    (hpath : Path.parse? path = some p) (hbag : Bag.ofJson j = .ok b) :
    ∃ v, b.get? path = some (Value.ofJson v) ∧ Q v := by
  cases j with
  | object members =>
    cases hbag
    obtain ⟨v, hget, hv⟩ := h.getAt
    refine ⟨v, ?_, hv⟩
    rw [Bag.get?, hpath]
    exact hget
  | null => exact h.elim
  | bool => exact h.elim
  | number => exact h.elim
  | string => exact h.elim
  | array => exact h.elim

end Json.State

/-- The integer view at the path of an integer literal.  It is the integer where 64 signed bits hold
it and nothing where they do not, but integers just below `-2 ^ 63` are rounded to it. -/
theorem Parser.int?_json {text literal : List Char} {n : Int} {p : Path} {path : String} {b : Bag}
    (hliteral : Numeral.int? literal = some n) (hpath : Path.parse? path = some p)
    (hstands : Json.Stands literal p.segments text)
    (hparse : Parser.json.parse (.file (.ofChars text)) = .ok b) :
    (b.int? path).map Int64.toInt = Json.literalView n := by
  simp only [Parser.json, Opened.read] at hparse
  split at hparse
  · exact nomatch hparse
  · next j hread =>
    have hfound := Json.read_stands
      (fun hst hrun => Json.State.run_literal hliteral hst hrun) hstands hread
    obtain ⟨v, hget, hv⟩ := hfound.get? hpath hparse
    rw [Bag.int?, hget]
    exact hv

/-- A literal just below the range, in an object inside the later one of two members. -/
theorem Parser.int?_json_nested :
    let text := "\x7b\"a\": 1, \"a\": \x7b\"b\": -9223372036854775809\x7d\x7d".toList
    let literal := "-9223372036854775809".toList
    ∃ b, Numeral.int? literal = some (-9223372036854775809) ∧
      Path.parse? "a.b" = some ⟨"a", ["b"]⟩ ∧ Json.Stands literal ["a", "b"] text ∧
      Parser.json.parse (.file (.ofChars text)) = .ok b ∧
      (b.int? "a.b").map Int64.toInt = some (-9223372036854775808) := by
  intro text literal
  have hliteral : Numeral.int? literal = some (-9223372036854775809) := by decide
  have hpath : Path.parse? "a.b" = some ⟨"a", ["b"]⟩ := by decide
  have hlast (key : String) : Json.MembersAfter key [] := .none
  have hinner : Json.Stands literal ["b"] ('\x7b' :: ("\"b\": ".toList ++ literal ++ ['\x7d'])) :=
    .member Json.MembersBefore.none (.self .nil rfl) (.spaced .space .root .nil) (hlast "b")
  have hkey : Json.KeyText "a" "\"a\":".toList := .self .nil rfl
  -- The earlier member has the same key, and the later one counts.
  have hfirst : Json.MembersBefore "\"a\": 1,".toList :=
    .some (.member hkey
      (.spaced .space (.plain (s := ['1']) (List.cons_ne_nil _ _) rfl) .nil))
  have hstands : Json.Stands literal ["a", "b"] text :=
    .member hfirst (.self .space rfl) (.spaced .space hinner .nil) (hlast "a")
  have hread : (Parser.json.parse (.file (.ofChars text))).toOption.isSome = true := by
    decide +kernel
  cases hparse : Parser.json.parse (.file (.ofChars text)) with
  | error e =>
    rw [hparse] at hread
    exact nomatch hread
  | ok b =>
    exact ⟨b, hliteral, hpath, hstands, rfl,
      (int?_json hliteral hpath hstands hparse).trans (by decide)⟩

/-- So the view does not tell all integers beyond 64 signed bits from those within. -/
theorem Parser.int?_json_misread :
    ¬∀ (text literal : List Char) (n : Int) (p : Path) (path : String) (b : Bag),
      Numeral.int? literal = some n → Path.parse? path = some p →
      Json.Stands literal p.segments text → Parser.json.parse (.file (.ofChars text)) = .ok b →
      (b.int? path).map Int64.toInt =
        if -9223372036854775808 ≤ n ∧ n < 9223372036854775808 then some n else none := by
  intro hclaim
  let text := "\x7b\"a\": -9223372036854775809\x7d".toList
  have hlast : Json.MembersAfter "a" [] := .none
  have hstands : Json.Stands "-9223372036854775809".toList ["a"] text :=
    .member Json.MembersBefore.none (.self .nil rfl) (.spaced .space .root .nil) hlast
  -- The reader gives the least integer in place of one that is out of range.
  have hview : (Parser.json.parse (.file (.ofChars text))).toOption.bind
      (fun b => (b.int? "a").map Int64.toInt) = some (-9223372036854775808) := by
    decide +kernel
  cases hparse : Parser.json.parse (.file (.ofChars text)) with
  | error e =>
    rw [hparse] at hview
    exact nomatch hview
  | ok b =>
    have hout := hclaim text _ (-9223372036854775809) ⟨"a", []⟩ "a" b (by decide) (by decide)
      hstands hparse
    rw [hparse] at hview
    exact nomatch hview.symm.trans hout

end LayeredConfig
