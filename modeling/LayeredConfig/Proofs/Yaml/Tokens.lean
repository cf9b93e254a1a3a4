import LayeredConfig.Proofs.Yaml.Lexing
import LayeredConfig.Proofs.Yaml.Literal
import LayeredConfig.Proofs.Yaml.Plain
import LayeredConfig.Proofs.Yaml.Quoted

/-!
# Tokens one by one

What the lexer makes of indicators, scalars, keys and empty collections.

## Key results

- `Lexer.token_entry`, `Lexer.token_explicitKey`, `Lexer.token_value`: indicators
- `Lexer.token_quoted`, `Lexer.token_plain`, `Lexer.token_literal`: scalars
- `Lexer.leads_colon`: a scalar that becomes a key
- `Lexer.leads_empty`: empty collections
-/

namespace LayeredConfig.Yaml.Lexer

variable {t : List Char} {ts : List Token} {bs : List Nat} {n m i l k count : Nat}
  {keys : List (Option PossibleKey)} {a : Bool} {lx lx' : Lexer}

@[simp] theorem cursor_between (c : Cursor) : (between c ts bs a).cursor = c := rfl

@[simp] theorem inFlow_between (c : Cursor) : (between c ts bs a).inFlow = false := rfl

@[simp] theorem keyAllowed_between (c : Cursor) : (between c ts bs a).keyAllowed = a := rfl

@[simp] theorem dropKey_between (c : Cursor) :
    (between c ts bs a).dropKey = .ok (between c ts bs a) := rfl

/-! ## Indicators -/

/-- The token that opens a block at a column, if that is right of the block around. -/
def opening (bs : List Nat) (k : Nat) (start : Token) : List Token :=
  if bs.head?.all (· < k) then [start] else []

/-- The blocks behind the opening of one. -/
def openedBlocks (bs : List Nat) (k : Nat) : List Nat :=
  if bs.head?.all (· < k) then k :: bs else bs

/-- A block is opened to the right of the others, or none is. -/
theorem openBlock_between (c : Cursor) (ts : List Token) (bs : List Nat) (k : Nat) (start : Token) :
    (between c ts bs a).openBlock k ts.length start =
      between c (opening bs k start ++ ts) (openedBlocks bs k) a := by
  by_cases h : bs.head?.all (· < k) = true
  · simp [openBlock, indentBelow, between, inFlow, pushAt, opening, openedBlocks, h]
  · simp [openBlock, indentBelow, between, inFlow, opening, openedBlocks, h]

/-- The mark of an item is one token. -/
theorem token_entry :
    (between ⟨'-' :: ' ' :: t, i, l, k⟩ ts bs true).token =
      .ok (between ⟨' ' :: t, i + 1, l, k + 1⟩
        (.blockEntry :: (opening bs k .blockSequenceStart ++ ts)) (openedBlocks bs k) true) := by
  have hblank : (⟨'-' :: ' ' :: t, i, l, k⟩ : Cursor).blankAhead 1 = true := rfl
  have hentry : (between ⟨'-' :: ' ' :: t, i, l, k⟩ ts bs true).blockEntry =
      .ok (between ⟨' ' :: t, i + 1, l, k + 1⟩
        (.blockEntry :: (opening bs k .blockSequenceStart ++ ts)) (openedBlocks bs k) true) := by
    have hopen := openBlock_between (a := true) ⟨'-' :: ' ' :: t, i, l, k⟩ ts bs k
      .blockSequenceStart
    have hcount : (between ⟨'-' :: ' ' :: t, i, l, k⟩ ts bs true).count = ts.length := rfl
    rw [blockEntry]
    simp only [inFlow_between, keyAllowed_between, cursor_between, hcount, hopen, dropKey_between]
    rfl
  simp [token, Cursor.atMarker, hblank, hentry]

/-- The mark of a key is one token. -/
theorem token_explicitKey :
    (between ⟨'?' :: ' ' :: t, i, l, k⟩ ts bs true).token =
      .ok (between ⟨' ' :: t, i + 1, l, k + 1⟩
        (.key :: (opening bs k .blockMappingStart ++ ts)) (openedBlocks bs k) true) := by
  have hblank : (⟨'?' :: ' ' :: t, i, l, k⟩ : Cursor).blankAhead 1 = true := rfl
  have hentry : (between ⟨'?' :: ' ' :: t, i, l, k⟩ ts bs true).explicitKey =
      .ok (between ⟨' ' :: t, i + 1, l, k + 1⟩
        (.key :: (opening bs k .blockMappingStart ++ ts)) (openedBlocks bs k) true) := by
    have hopen := openBlock_between (a := true) ⟨'?' :: ' ' :: t, i, l, k⟩ ts bs k
      .blockMappingStart
    have hcount : (between ⟨'?' :: ' ' :: t, i, l, k⟩ ts bs true).count = ts.length := rfl
    rw [explicitKey]
    simp only [inFlow_between, keyAllowed_between, cursor_between, hcount, hopen, dropKey_between]
    rfl
  simp [token, Cursor.atMarker, hblank, hentry]

/-- The mark of a value is one token, which opens no block at the column of its key. -/
theorem token_value (ht : isGap t.head? = true) :
    (between ⟨':' :: t, i, l, k⟩ ts (k :: bs) true).token =
      .ok (between ⟨t, i + 1, l, k + 1⟩ (.value :: ts) (k :: bs) true) := by
  have hblank : (⟨':' :: t, i, l, k⟩ : Cursor).blankAhead 1 = true := by
    rw [Cursor.blankAhead_one, ht]
  have hvalue : (between ⟨':' :: t, i, l, k⟩ ts (k :: bs) true).value =
      .ok (between ⟨t, i + 1, l, k + 1⟩ (.value :: ts) (k :: bs) true) := by
    have hopen := openBlock_between (a := true) ⟨':' :: t, i, l, k⟩ ts (k :: bs) k
      .blockMappingStart
    -- A block at this column is open already.
    have hnone : opening (k :: bs) k .blockMappingStart = [] ∧
        openedBlocks (k :: bs) k = k :: bs := by
      simp [opening, openedBlocks]
    rw [hnone.1, hnone.2] at hopen
    have hstep : (between ⟨':' :: t, i, l, k⟩ ts (k :: bs) true).value =
        (let lx := (between ⟨':' :: t, i, l, k⟩ ts (k :: bs) true).openBlock k ts.length
          .blockMappingStart
        .ok (lx.single .value !lx.inFlow)) := rfl
    rw [hstep, hopen]
    rfl
  simp [token, Cursor.atMarker, hblank, hvalue]

/-! ## Scalars -/

/-- What is remembered of the token at the cursor, if a key may start there. -/
def pendingKey (bs : List Nat) (a : Bool) (number : Nat) (c : Cursor) : Option PossibleKey :=
  if a then some ⟨bs.head? == some c.column, number, c.index, c.line, c.column⟩ else none

/-- Where a key may start, the place is remembered. -/
theorem saveKey_between (c : Cursor) :
    (between c ts bs a).saveKey =
      .ok ⟨c, ts, ts.length, bs, [pendingKey bs a ts.length c], a⟩ := by
  cases a <;> rfl

/-- A token that may become a key. -/
theorem keyToken_between {c c' : Cursor} {x : Token} (ts : List Token) (bs : List Nat)
    (read : Cursor → Except Fault (Token × Cursor)) (h : read c = .ok (x, c')) :
    (between c ts bs a).keyToken read =
      .ok ⟨c', x :: ts, ts.length + 1, bs, [pendingKey bs a ts.length c], false⟩ := by
  rw [keyToken, saveKey_between]
  simp only [bind, Except.bind, h]
  rfl

/-- A quoted scalar. -/
theorem token_quoted (ts : List Token) (bs : List Nat) (a : Bool) {single : Bool} {s : List Char}
    {c' : Cursor} (h : Cursor.quoted ⟨quoteMark single :: t, i, l, k⟩ single = .ok (s, c')) :
    (between ⟨quoteMark single :: t, i, l, k⟩ ts bs a).token =
      .ok ⟨c', .scalar false s :: ts, ts.length + 1, bs,
        [pendingKey bs a ts.length ⟨quoteMark single :: t, i, l, k⟩], false⟩ := by
  have hread : (fun x => (Token.scalar false x.1, x.2)) <$>
      Cursor.quoted ⟨quoteMark single :: t, i, l, k⟩ single = .ok (.scalar false s, c') := by
    rw [h]
    rfl
  have hkey := keyToken_between (a := a) ts bs
    (fun c => (fun x => (Token.scalar false x.1, x.2)) <$> c.quoted single) hread
  cases single with
  | false => simpa [token, Cursor.atMarker, quoteMark] using hkey
  | true => simpa [token, Cursor.atMarker, quoteMark] using hkey

/-- The column that further lines of a plain scalar have to reach. -/
def plainLimit (bs : List Nat) : Nat :=
  match bs.head? with
  | some b => b + 1
  | none => 0

/-- What stands behind the first character of a text is told by the text itself. -/
theorem blankAhead_one_append {c d : Char} {s : List Char} (h : isGap s.head? = false) :
    (⟨c :: (s ++ d :: t), i, l, k⟩ : Cursor).blankAhead 1 = false := by
  cases s with
  | nil => exact absurd h (by decide)
  | cons e s =>
    rw [Cursor.blankAhead_one]
    exact h

/-- The first character of a plain scalar is none of those that stand for something else. -/
theorem not_mem_of_isPlain {c : Char} {s : List Char} (h : IsPlain none (c :: s)) :
    c ∉ "#,[]\x7b\x7d&*!|>'\"%@`".toList := by
  have hindicator := isIndicator_eq_false h
  rw [isIndicator, Bool.or_eq_false_iff] at hindicator
  rw [← List.contains_iff_mem, hindicator.1]
  exact Bool.false_ne_true

/-- An indicator of a block that starts a plain scalar has something attached to it. -/
theorem blankAhead_of_isPlain {c d x : Char} {s : List Char} (h : IsPlain none (c :: s))
    (hx : x = '-' ∨ x = '?' ∨ x = ':') :
    ¬ (c = x ∧ (⟨c :: (s ++ d :: t), i, l, k⟩ : Cursor).blankAhead 1 = true) := by
  rintro ⟨rfl, hblank⟩
  have hindicator := isIndicator_eq_false h
  simp only [isIndicator, Bool.or_eq_false_iff, Bool.and_eq_false_imp, Bool.or_eq_true,
    beq_iff_eq] at hindicator
  rw [blankAhead_one_append (hindicator.2 (by tauto))] at hblank
  cases hblank

/-- The lexer takes the first character of a plain scalar for one. -/
theorem startsPlain_of_isPlainText {c d : Char} {s : List Char} (hs : IsPlainText (c :: s)) :
    startsPlain ⟨c :: (s ++ d :: t), i, l, k⟩ false = true := by
  have hplain := hs.toIsPlain
  have hspace : c ≠ ' ' := fun h => hs.first (congrArg some h)
  have hblank : (⟨c :: (s ++ d :: t), i, l, k⟩ : Cursor).blankAhead 0 = false := by
    simp [Cursor.blankAhead, hplain.isBlank_eq_false hspace, hplain.noBreak c List.mem_cons_self,
      (ne_of_isPrintable (hplain.isPrintable c List.mem_cons_self)).1]
  have hahead := fun x => blankAhead_of_isPlain (x := x) (d := d) (t := t) (i := i) (l := l) (k := k)
    hplain
  -- Three indicators may start it, with something attached to them.
  by_cases hminus : c = '-'
  · have hnext := hahead '-' (.inl rfl)
    simp only [hminus, true_and, Bool.not_eq_true, Cursor.blankAhead,
      Bool.or_eq_false_iff] at hnext
    simp [startsPlain, hminus, hnext.1.1]
  by_cases hquestion : c = '?'
  · have hnext := hahead '?' (.inr (.inl rfl))
    simp only [hquestion, true_and, Bool.not_eq_true] at hnext
    simp [startsPlain, hquestion, hnext]
  by_cases hcolon : c = ':'
  · have hnext := hahead ':' (.inr (.inr rfl))
    simp only [hcolon, true_and, Bool.not_eq_true] at hnext
    simp [startsPlain, hcolon, hnext]
  have hlist := not_mem_of_isPlain hplain
  simp at hlist
  simp [startsPlain, hblank, hlist, hminus, hquestion, hcolon]

/-- A plain scalar. -/
theorem token_plain (ts : List Token) (bs : List Nat) (a : Bool) {s : List Char} {d : Char}
    {broken : Bool} {c' : Cursor} (hs : IsPlainText s) (hdash : d ≠ '-') (hdot : d ≠ '.')
    (h : Cursor.plain ⟨s ++ d :: t, i, l, k⟩ false (plainLimit bs) = .ok (s, broken, c')) :
    (between ⟨s ++ d :: t, i, l, k⟩ ts bs a).token =
      .ok ⟨c', .scalar true s :: ts, ts.length + 1, bs,
        [pendingKey bs a ts.length ⟨s ++ d :: t, i, l, k⟩], broken⟩ := by
  have hdashes :=
    Cursor.atMarker_eq_false (t := t) (i := i) (l := l) (k := k) hs.dashes hs.ne_nil hdash
  have hdots := Cursor.atMarker_eq_false (t := t) (i := i) (l := l) (k := k) hs.dots hs.ne_nil hdot
  have hscalar : (between ⟨s ++ d :: t, i, l, k⟩ ts bs a).plainScalar =
      .ok ⟨c', .scalar true s :: ts, ts.length + 1, bs,
        [pendingKey bs a ts.length ⟨s ++ d :: t, i, l, k⟩], broken⟩ := by
    rw [plainScalar, saveKey_between]
    show (Cursor.plain ⟨s ++ d :: t, i, l, k⟩ false (plainLimit bs) >>= _) = _
    rw [h]
    rfl
  -- No other kind of token may begin with the first character.
  obtain ⟨c, s, rfl⟩ := List.exists_cons_of_ne_nil hs.ne_nil
  have hlist := not_mem_of_isPlain hs.toIsPlain
  simp at hlist
  have hahead := fun x => blankAhead_of_isPlain (x := x) (d := d) (t := t) (i := i) (l := l) (k := k)
    hs.toIsPlain
  have hstart := startsPlain_of_isPlainText (d := d) (t := t) (i := i) (l := l) (k := k) hs
  rw [List.cons_append] at hdashes hdots hscalar ⊢
  rw [token]
  simp [hdashes, hdots, hlist, hahead, hstart, hscalar]

/-- A literal block. -/
theorem token_literal {s : List Char} {c' : Cursor}
    (h : Cursor.block ⟨'|' :: t, i, l, k⟩ true bs.head? = .ok (s, c')) :
    (between ⟨'|' :: t, i, l, k⟩ ts bs a).token =
      .ok (between c' (.scalar false s :: ts) bs true) := by
  have hscalar : (between ⟨'|' :: t, i, l, k⟩ ts bs a).blockScalar true =
      .ok (between c' (.scalar false s :: ts) bs true) := by
    rw [blockScalar, dropKey_between]
    show (Cursor.block ⟨'|' :: t, i, l, k⟩ true bs.head? >>= _) = _
    rw [h]
    rfl
  simp [token, Cursor.atMarker, hscalar]

/-- The colon behind a scalar that thereby becomes a key. -/
theorem token_colon {s : List Char} {plain required : Bool} {i' k' : Nat}
    (ht : isGap t.head? = true) :
    token ⟨⟨':' :: t, i', l, k'⟩, .scalar plain s :: ts, ts.length + 1, bs,
        [some ⟨required, ts.length, i, l, k⟩], false⟩ =
      .ok (between ⟨t, i' + 1, l, k' + 1⟩
        (.value :: .scalar plain s :: .key :: (opening bs k .blockMappingStart ++ ts))
        (openedBlocks bs k) false) := by
  have hblank : (⟨':' :: t, i', l, k'⟩ : Cursor).blankAhead 1 = true := by
    rw [Cursor.blankAhead_one, ht]
  have hvalue : value ⟨⟨':' :: t, i', l, k'⟩, .scalar plain s :: ts, ts.length + 1, bs,
        [some ⟨required, ts.length, i, l, k⟩], false⟩ =
      .ok (between ⟨t, i' + 1, l, k' + 1⟩
        (.value :: .scalar plain s :: .key :: (opening bs k .blockMappingStart ++ ts))
        (openedBlocks bs k) false) := by
    have htwo : ts.length + 1 + 1 - ts.length = 2 := by omega
    -- The mapping opens a block in front of the key, or goes on in the one that is open.
    by_cases hopen : bs.head?.all (· < k) = true
    · simp [value, pushAt, openBlock, inFlow, indentBelow, hopen, opening, openedBlocks, single, push,
        between, htwo]
      rfl
    · simp [value, pushAt, openBlock, inFlow, indentBelow, hopen, opening, openedBlocks, single, push,
        between]
      rfl
  simp [token, Cursor.atMarker, hblank, hvalue, inFlow]

/-- So the scalar becomes a key, if it is not too long. -/
theorem leads_colon {s : List Char} {plain required : Bool} {i' k' : Nat} (ht : isGap t.head? = true)
    (hindex : i' ≤ i + 1024) (hb : ∀ b, bs.head? = some b → b ≤ k') :
    Leads ⟨⟨':' :: t, i', l, k'⟩, .scalar plain s :: ts, ts.length + 1, bs,
        [some ⟨required, ts.length, i, l, k⟩], false⟩
      (between ⟨t, i' + 1, l, k' + 1⟩
        (.value :: .scalar plain s :: .key :: (opening bs k .blockMappingStart ++ ts))
        (openedBlocks bs k) false) := by
  have hsettle : settle ⟨⟨':' :: t, i', l, k'⟩, .scalar plain s :: ts, ts.length + 1, bs,
      [some ⟨required, ts.length, i, l, k⟩], false⟩ = .ok ⟨⟨':' :: t, i', l, k'⟩,
        .scalar plain s :: ts, ts.length + 1, bs, [some ⟨required, ts.length, i, l, k⟩], false⟩ := by
    rw [settle_of_startsToken (.cons (by decide) t), dropStaleKeys_here rfl hindex]
  refine .of_next ?_ (Nat.lt_succ_self _)
  rw [next_of_settle hsettle, closeBlocks_of_le hb]
  exact congrArg (· >>= fun lx => Except.ok (false, lx)) (token_colon ht)

/-! ## Empty collections -/

/-- An empty collection in brackets or braces. -/
def emptyText (mapping : Bool) : List Char := if mapping then ['\x7b', '\x7d'] else ['[', ']']

def emptyStart (mapping : Bool) : Token := if mapping then .mappingStart else .sequenceStart

def emptyEnd (mapping : Bool) : Token := if mapping then .mappingEnd else .sequenceEnd

/-- An empty collection and all that is remembered of it. -/
theorem leads_empty (ts : List Token) (mapping : Bool) (hb : ∀ b, bs.head? = some b → b ≤ k) :
    Leads (between ⟨emptyText mapping ++ t, i, l, k⟩ ts bs a)
      ⟨⟨t, i + 2, l, k + 2⟩, emptyEnd mapping :: emptyStart mapping :: ts, ts.length + 2, bs,
        [pendingKey bs a ts.length ⟨emptyText mapping ++ t, i, l, k⟩], false⟩ := by
  let key := pendingKey bs a ts.length ⟨emptyText mapping ++ t, i, l, k⟩
  let inside : Lexer := ⟨⟨(emptyText mapping).tail ++ t, i + 1, l, k + 1⟩, emptyStart mapping :: ts,
    ts.length + 1, bs, [none, key], true⟩
  have hstart : StartsToken (emptyText mapping ++ t) := by
    cases mapping <;> exact .cons (by decide) _
  have hopen : (between ⟨emptyText mapping ++ t, i, l, k⟩ ts bs a).token = .ok inside := by
    cases mapping <;>
      (simp [token, Cursor.atMarker, emptyText, openFlow, saveKey_between]; rfl)
  -- Inside the brackets no white space stands, and a key that is remembered is on this line.
  have hinside : inside.settle = .ok inside := by
    have hbracket : StartsToken ((emptyText mapping).tail ++ t) := by
      cases mapping <;> exact .cons (by decide) _
    have hkey : ∀ x, key = some x → isStale x inside.cursor = false := by
      intro x hx
      cases a with
      | false => exact ((Option.some_ne_none x) hx.symm).elim
      | true =>
        obtain rfl := Option.some.inj hx
        simp [isStale, inside]
    have hspace : inside.skipSpace (inside.cursor.rest.length + 1) = inside :=
      skipSpace_spaces 0 hbracket
    rw [settle, hspace]
    cases h : key with
    | none => simp [dropStaleKeys, inside, h]
    | some x => simp [dropStaleKeys, inside, h, show isStale x _ = false from hkey x h]
  have hclose : inside.token = .ok ⟨⟨t, i + 2, l, k + 2⟩,
      emptyEnd mapping :: emptyStart mapping :: ts, ts.length + 2, bs, [key], false⟩ := by
    cases mapping <;>
      (simp [token, Cursor.atMarker, emptyText, closeFlow, inside]; rfl)
  have hfirst : Leads (between ⟨emptyText mapping ++ t, i, l, k⟩ ts bs a) inside := by
    refine .of_next ?_ (by cases mapping <;> simp [inside, emptyText])
    rw [next_between hstart (by cases mapping <;> simp [emptyText]) hb, hopen]
    rfl
  have hend : inside.cursor.atEnd = false := by
    cases mapping <;> rfl
  -- No block ends inside brackets.
  have hflow : inside.closeBlocks (some inside.cursor.column) = inside := rfl
  refine hfirst.trans (.of_next ?_ (by cases mapping <;> simp [inside, emptyText]))
  rw [next_of_settle hinside, hflow, finish, hend, hclose]
  rfl

end LayeredConfig.Yaml.Lexer
