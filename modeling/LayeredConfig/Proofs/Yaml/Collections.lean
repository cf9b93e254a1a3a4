import LayeredConfig.Proofs.Bag.Json
import LayeredConfig.Proofs.Yaml.Strings

/-!
# Tokens of a printed document

The text of a document becomes the tokens of its tree.  Each collection is a block at its column,
but for a sequence at the column of its key, which has no block of its own.

## Key results

- `valueTokens`: the tokens of a value
- `Chunk.yields_value`: the text of a value becomes its tokens
- `tokens_print`: so does the text of a document
-/

namespace LayeredConfig.Yaml

/-! ## Tokens of a tree -/

/-- Tokens inside a block. -/
def blockTokens (start : Token) (content : List Token) : List Token :=
  start :: (content ++ [.blockEnd])

mutual

/-- The tokens of a value.  A sequence without a block of its own is `indentless`. -/
def valueTokens (indentless : Bool) : Json → List Token
  | .null => [.scalar true "null".toList]
  | .bool b => [.scalar true (Json.boolText b)]
  | .number (.integer i _) => [.scalar true (Numeral.ofInt i)]
  | .number (.real x _) => [.scalar true (layout.write x).toList]
  | .string s => [stringToken false s.toList]
  | .array [] => [.sequenceStart, .sequenceEnd]
  | .array (item :: rest) =>
    let content := .blockEntry :: (valueTokens false item ++ itemsTokens rest)
    if indentless then content else blockTokens .blockSequenceStart content
  | .object .nil => [.mappingStart, .mappingEnd]
  | .object (.cons k v _ rest) =>
    blockTokens .blockMappingStart (.key :: stringToken (isSimpleKey k.toList) k.toList :: .value ::
      (valueTokens (isSimpleKey k.toList) v ++ membersTokens rest))

def itemsTokens : List Json → List Token
  | [] => []
  | item :: rest => .blockEntry :: (valueTokens false item ++ itemsTokens rest)

def membersTokens {lo : Option String} : Entries String Json lo → List Token
  | .nil => []
  | .cons k v _ rest =>
    .key :: stringToken (isSimpleKey k.toList) k.toList :: .value ::
      (valueTokens (isSimpleKey k.toList) v ++ membersTokens rest)

end

/-! ## Chunks put together -/

variable {k m n b d : Nat} {bs outer : List Nat} {a : Bool} {new new' : List Token}
  {s t : List Char}

namespace Chunk

/-- A chunk behind some text. -/
def behind (s : List Char) (c : Chunk) : Chunk := ⟨s ++ c.text, c.fresh⟩

variable {c c' : Chunk}

/-- The end of the line comes behind all of the text. -/
theorem newLine_behind (s : List Char) (c : Chunk) (m : Nat) :
    (c.behind s).newLine m = s ++ c.newLine m := by
  rw [newLine, newLine, behind, List.append_assoc, List.append_assoc, List.append_assoc]

theorem behind_behind (s t : List Char) (c : Chunk) :
    (c.behind t).behind s = c.behind (s ++ t) := by
  rw [behind, behind, behind, List.append_assoc]

/-- What stands before the first item stands before all of them. -/
theorem itemsChunk_behind (s : List Char) (c : Chunk) (items : List Json) :
    itemsChunk b (c.behind s) items = (itemsChunk b c items).behind s := by
  -- For any chunk, since each item makes the next one of it.
  induction items generalizing s c with
  | nil => rfl
  | cons item rest ih =>
    let next := entryChunk (.item b) item
    show itemsChunk b (next.behind ((c.behind s).newLine b)) rest =
      (itemsChunk b (next.behind (c.newLine b)) rest).behind s
    rw [ih, ih, behind_behind, newLine_behind]

/-- The items go on behind the next one. -/
theorem itemsChunk_cons (c : Chunk) (item : Json) (rest : List Json) :
    itemsChunk b c (item :: rest) =
      (itemsChunk b (entryChunk (.item b) item) rest).behind (c.newLine b) :=
  itemsChunk_behind _ _ rest

/-- What stands before the first member stands before all of them. -/
theorem membersChunk_behind {lo : Option String} (s : List Char) (c : Chunk)
    (members : Entries String Json lo) :
    membersChunk b (c.behind s) members = (membersChunk b c members).behind s := by
  induction members generalizing s c with
  | nil => rfl
  | cons k v above rest ih =>
    let next := entryChunk (.member b k) v
    show membersChunk b (next.behind ((c.behind s).newLine b)) rest =
      (membersChunk b (next.behind (c.newLine b)) rest).behind s
    rw [ih, ih, behind_behind, newLine_behind]

/-- The members go on behind the next one. -/
theorem membersChunk_cons {lo : Option String} (c : Chunk) (k : String) (v : Json)
    (above : Above lo k) (rest : Entries String Json (some k)) :
    membersChunk b c (.cons k v above rest) =
      (membersChunk b (entryChunk (.member b k) v) rest).behind (c.newLine b) :=
  membersChunk_behind _ _ rest

/-- A token starts a sequence if one starts its first item. -/
theorem startsToken_itemsChunk (hc : c.StartsToken) (items : List Json) :
    (itemsChunk b c items).StartsToken := by
  cases items with
  | nil => exact hc
  | cons item rest =>
    intro t
    rw [itemsChunk_cons, behind, List.append_assoc]
    exact hc.newLine b _

/-- A token starts a mapping if one starts its first member. -/
theorem startsToken_membersChunk {lo : Option String} (hc : c.StartsToken)
    (members : Entries String Json lo) : (membersChunk b c members).StartsToken := by
  cases members with
  | nil => exact hc
  | cons k v above rest =>
    intro t
    rw [membersChunk_cons, behind, List.append_assoc]
    exact hc.newLine b _

/-- A chunk and, on the next line, another one. -/
theorem Yields.behind (h : c.Yields k bs a new b outer) (hstart : c'.StartsToken)
    (h' : c'.Yields b (b :: outer) true new' b outer) :
    (c'.behind (c.newLine b)).Yields k bs a (new ++ new') b outer := by
  intro n t hn ht
  rw [newLine_behind, List.append_assoc]
  exact (h b _ (Nat.le_refl b) (hstart.newLine n t)).trans (h' n t hn ht)

/-- The block of a chunk ends if the next line stands to the left of it. -/
theorem Yields.blockEnd (h : c.Yields k bs a new d (b :: outer)) (hd : b < d) :
    c.Yields k bs a (new ++ [.blockEnd]) b outer := fun n t hn ht =>
  (h n t (by omega) ht).trans (Spot.yields_blockEnd ht (by omega))

/-- A chunk behind white space. -/
theorem Yields.behind_blank {k' : Nat} {bs' : List Nat} {a' : Bool} (hstart : c.StartsToken)
    (h : c.Yields k' bs' a' new b outer)
    (hs : ∀ t, Yaml.StartsToken t → Spot.Yields ⟨s ++ t, k, bs, a⟩ [] ⟨t, k', bs', a'⟩) :
    (c.behind s).Yields k bs a new b outer := by
  intro n t hn ht
  rw [newLine_behind, List.append_assoc]
  exact (hs _ (hstart.newLine n t)).trans (h n t hn ht)

end Chunk

/-! ## Entries -/

/-- What stands behind the lead of an entry. -/
def valueChunk (p : Place) : Json → Chunk
  | .array (item :: rest) =>
    (itemsChunk p.items (entryChunk (.item p.items) item) rest).behind
      (if p.inline then [' '] else '\n' :: spaces p.items)
  | .object (.cons k v _ rest) =>
    (membersChunk p.members (entryChunk (.member p.members k) v) rest).behind
      (if p.inline then [' '] else '\n' :: spaces p.members)
  | v => (leafChunk p.members v).behind [' ']

/-- An entry is its lead and its value behind it. -/
theorem entryChunk_eq (p : Place) (v : Json) : entryChunk p v = (valueChunk p v).behind p.lead := by
  unfold entryChunk
  split <;> simp [valueChunk, Chunk.behind, Place.start]

/-- White space stands behind the lead. -/
theorem valueChunk_newLine (p : Place) (v : Json) (n : Nat) (t : List Char) :
    ∃ c s, (valueChunk p v).newLine n ++ t = c :: s ∧ (c = ' ' ∨ c = '\n') ∧
      (p.inline = true → c = ' ') := by
  have hsplit : ∀ (c : Char) s (d : Chunk), (d.behind (c :: s)).newLine n ++ t =
      c :: (s ++ (d.newLine n ++ t)) := fun c s d => by
    rw [Chunk.newLine_behind, List.cons_append, List.cons_append, List.append_assoc]
  -- A collection may start on a new line, and a leaf follows on the same one.
  unfold valueChunk
  split
  · cases p.inline with
    | true => exact ⟨' ', _, hsplit _ _ _, .inl rfl, fun _ => rfl⟩
    | false => exact ⟨'\n', _, hsplit _ _ _, .inr rfl, fun h => by cases h⟩
  · cases p.inline with
    | true => exact ⟨' ', _, hsplit _ _ _, .inl rfl, fun _ => rfl⟩
    | false => exact ⟨'\n', _, hsplit _ _ _, .inr rfl, fun h => by cases h⟩
  · exact ⟨' ', _, hsplit _ _ _, .inl rfl, fun _ => rfl⟩

namespace Chunk

/-- A token starts an item. -/
theorem startsToken_item (v : Json) : (entryChunk (.item b) v).StartsToken := by
  intro t
  rw [entryChunk_eq]
  exact .cons (by decide) _

/-- A key is a simple one in front of a colon, or it is told by a question mark and has the colon on
the next line. -/
theorem keyText_eq (b : Nat) (s : List Char) : keyText b s =
    if isSimpleKey s then (stringChunk true (b + 2) s).text ++ [':']
    else '?' :: ' ' :: ((stringChunk false (b + 2) s).newLine b ++ [':']) := rfl

/-- A token starts a member. -/
theorem startsToken_member (k : String) (v : Json) : (entryChunk (.member b k) v).StartsToken := by
  intro t
  rw [entryChunk_eq, behind, Place.member, keyText_eq]
  split
  · rw [List.append_assoc, List.append_assoc]
    exact startsToken_string true (b + 2) k.toList _
  · exact .cons (by decide) _

/-- An item of a sequence. -/
theorem yields_item {v : Json} (hopen : Lexer.openedBlocks bs b = b :: outer)
    (hb : ∀ b', bs.head? = some b' → b' ≤ b)
    (h : (valueChunk (.item b) v).Yields (b + 1) (b :: outer) true new b outer) :
    (entryChunk (.item b) v).Yields b bs true
      (Lexer.opening bs b .blockSequenceStart ++ .blockEntry :: new) b outer := by
  intro n t hn ht
  have hvalue := h n t hn ht
  obtain ⟨c, s, htext, -, hspace⟩ := valueChunk_newLine (.item b) v n t
  -- An item stands behind a dash and a space.
  obtain rfl := hspace rfl
  have hentry := Spot.yields_entry hb s
  rw [hopen, ← htext] at hentry
  rw [entryChunk_eq, newLine_behind, List.append_assoc]
  simpa [Place.item] using hentry.trans hvalue

/-- A member of a mapping. -/
theorem yields_member {key : String} {v : Json} (hopen : Lexer.openedBlocks bs b = b :: outer)
    (hb : ∀ b', bs.head? = some b' → b' ≤ b)
    (h : ∀ k a, b < k → ((Place.member b key).inline = true → a = true ∧ k = b + 1) →
      (valueChunk (.member b key) v).Yields k (b :: outer) a new b outer) :
    (entryChunk (.member b key) v).Yields b bs true (Lexer.opening bs b .blockMappingStart ++
      .key :: stringToken (isSimpleKey key.toList) key.toList :: .value :: new) b outer := by
  intro n t hn ht
  obtain ⟨c, s, htext, hwhite, -⟩ := valueChunk_newLine (.member b key) v n t
  have hgap : isGap ((valueChunk (.member b key) v).newLine n ++ t).head? = true := by
    rw [htext]
    rcases hwhite with rfl | rfl <;> rfl
  have hlead : (Place.member b key).lead = keyText b key.toList := rfl
  rw [entryChunk_eq, newLine_behind, List.append_assoc, hlead, keyText_eq]
  -- Behind a simple key the value may be anywhere to the right, and behind another one it is a
  -- column further.
  cases hsimple : isSimpleKey key.toList with
  | true =>
    have hkey := Spot.yields_simpleKey hsimple hb hgap fun k hk => by
      rw [hopen]
      exact h k false hk (fun hinline => by simp [Place.member, hsimple] at hinline) n t hn ht
    simpa using hkey
  | false =>
    have hkey := (Spot.yields_explicitKey key.toList hopen hb hgap).trans
      (h (b + 1) true (Nat.lt_succ_self b) (fun _ => ⟨rfl, rfl⟩) n t hn ht)
    simpa using hkey

end Chunk

/-! ## Values -/

/-- Whether a place is that of an entry in a collection at column `b`. -/
structure Place.Stands (p : Place) (b : Nat) : Prop where
  items : p.items = if p.inline then b + 2 else b
  members : p.members = b + 2

theorem Place.stands_item (b : Nat) : (Place.item b).Stands b := ⟨rfl, rfl⟩

theorem Place.stands_member (b : Nat) (k : String) : (Place.member b k).Stands b := by
  refine ⟨?_, rfl⟩
  rw [Place.member]
  cases isSimpleKey k.toList <;> rfl

namespace Lexer

/-- A collection to the right of a block opens one inside the others. -/
theorem opening_of_lt (h : b < d) (outer : List Nat) (start : Token) :
    opening (b :: outer) d start = [start] := by
  simp [opening, h]

theorem openedBlocks_of_lt (h : b < d) (outer : List Nat) :
    openedBlocks (b :: outer) d = d :: b :: outer := by
  simp [openedBlocks, h]

/-- A collection at the column of a block goes on in it and opens none. -/
theorem opening_self (b : Nat) (outer : List Nat) (start : Token) :
    opening (b :: outer) b start = [] := by
  simp [opening]

theorem openedBlocks_self (b : Nat) (outer : List Nat) :
    openedBlocks (b :: outer) b = b :: outer := by
  simp [openedBlocks]

end Lexer

namespace Chunk

variable {c : Chunk}

/-- The innermost block is not to the right of itself. -/
theorem head?_self (b : Nat) (outer : List Nat) : ∀ b', (b :: outer).head? = some b' → b' ≤ b :=
  fun _ hb' => Nat.le_of_eq (Option.some.inj hb').symm

/-- A chunk yields its tokens behind a space. -/
theorem yields_space (hstart : c.StartsToken) (h : c.Yields (k + 1) bs a new b outer) :
    (c.behind [' ']).Yields k bs a new b outer :=
  Yields.behind_blank hstart h fun _ ht => Spot.yields_spaces 1 ht

/-- A chunk yields its tokens on a new line. -/
theorem yields_newLine (hstart : c.StartsToken) (h : c.Yields d bs true new b outer) :
    (c.behind ('\n' :: spaces d)).Yields k bs a new b outer :=
  Yields.behind_blank hstart h fun _ ht => Spot.yields_newLine d ht

/-- A collection starts behind a space or at its column on a new line. -/
theorem yields_start {inline : Bool} (hstart : c.StartsToken)
    (hinline : inline = true → a = true ∧ d = k + 1) (h : c.Yields d bs true new b outer) :
    (c.behind (if inline then [' '] else '\n' :: spaces d)).Yields k bs a new b outer := by
  cases inline with
  | true =>
    obtain ⟨rfl, rfl⟩ := hinline rfl
    exact yields_space hstart h
  | false => exact yields_newLine hstart h

/-- A word. -/
theorem yields_word (hs : IsPlainText s) (hb : b < k) :
    ((⟨s, false⟩ : Chunk).behind [' ']).Yields k (b :: outer) a [.scalar true s] b outer := by
  refine yields_space (Spot.startsToken_of_isPlainText hs) fun n t hn ht => ?_
  rw [newLine_line]
  exact Spot.yields_word hs (by omega) hn ht

/-- An empty collection. -/
theorem yields_empty (mapping : Bool) (hb : b < k) :
    ((⟨Lexer.emptyText mapping, false⟩ : Chunk).behind [' ']).Yields k (b :: outer) a
      [Lexer.emptyStart mapping, Lexer.emptyEnd mapping] b outer := by
  refine yields_space (fun t => ?_) fun n t hn ht => ?_
  · cases mapping <;> exact .cons (by decide) _
  · rw [newLine_line]
    exact Spot.yields_empty mapping (Spot.head?_lt (by omega)) n ht

mutual

/-- A value behind the lead of its entry. -/
theorem yields_value : ∀ {j : Json} {p : Place} {b k : Nat} {outer : List Nat} {a : Bool},
    j.hasReal = false → p.Stands b → b < k → (p.inline = true → a = true ∧ k = b + 1) →
    (valueChunk p j).Yields k (b :: outer) a (valueTokens (!p.inline) j) b outer
  | .null, _, _, _, _, _, _, _, hb, _ => yields_word isPlainText_null hb
  | .bool v, _, _, _, _, _, _, _, hb, _ => yields_word (isPlainText_boolText v) hb
  | .number (.integer i _), _, _, _, _, _, _, _, hb, _ => yields_word (isPlainText_ofInt i) hb
  | .string s, p, b, k, outer, a, _, hp, hb, _ => by
    have hstring : (stringChunk false (b + 2) s.toList).Yields (k + 1) (b :: outer) a
        [stringToken false s.toList] b outer := yields_string s.toList (Nat.lt_succ_of_lt hb)
    rw [← hp.members] at hstring
    exact yields_space (startsToken_string false _ s.toList) hstring
  -- An empty collection is a leaf, too.
  | .array [], _, _, _, _, _, _, _, hb, _ => yields_empty false hb
  | .array (item :: rest), p, b, k, outer, a, hwhole, hp, hb, hinline => by
    rw [Json.hasReal, Json.itemsHaveReal, Bool.or_eq_false_iff] at hwhole
    have hvalue : ∀ d outer, (valueChunk (.item d) item).Yields (d + 1) (d :: outer) true
        (valueTokens false item) d outer := fun d outer =>
      yields_value hwhole.1 (Place.stands_item d) (Nat.lt_succ_self d) fun _ => ⟨rfl, rfl⟩
    refine yields_start (startsToken_itemsChunk (startsToken_item item) rest)
      (fun h => ⟨(hinline h).1, by rw [hp.items, h, (hinline h).2]; rfl⟩) ?_
    rw [hp.items]
    cases p.inline with
    | true =>
      -- The sequence opens a block of its own, which ends with it.
      have hd : b < b + 2 := by omega
      have hitem := yields_item (Lexer.openedBlocks_of_lt hd outer) (Spot.head?_le hd)
        (hvalue _ (b :: outer))
      rw [Lexer.opening_of_lt hd] at hitem
      simpa [valueTokens, blockTokens] using (yields_items hwhole.2 hitem).blockEnd hd
    | false =>
      -- The sequence stands at the column of its key, so it has no block of its own.
      have hitem := yields_item (Lexer.openedBlocks_self b outer) (head?_self b outer) (hvalue _ _)
      rw [Lexer.opening_self] at hitem
      simpa [valueTokens] using yields_items hwhole.2 hitem
  | .object .nil, _, _, _, _, _, _, _, hb, _ => yields_empty true hb
  | .object (.cons key v above rest), p, b, k, outer, a, hwhole, hp, hb, hinline => by
    rw [Json.hasReal, Json.membersHaveReal, Bool.or_eq_false_iff] at hwhole
    have hd : b < b + 2 := by omega
    have hmember := yields_member (Lexer.openedBlocks_of_lt hd outer) (Spot.head?_le hd)
      fun k a hk h => yields_value hwhole.1 (Place.stands_member (b + 2) key) hk h
    rw [Lexer.opening_of_lt hd] at hmember
    refine yields_start (startsToken_membersChunk (startsToken_member key v) rest)
      (fun h => ⟨(hinline h).1, by rw [hp.members, (hinline h).2]⟩) ?_
    rw [hp.members]
    simpa [valueTokens, blockTokens, Place.member]
      using (yields_members hwhole.2 hmember).blockEnd hd

/-- The items behind others. -/
theorem yields_items : ∀ {items : List Json} {c : Chunk} {b k : Nat} {bs outer : List Nat}
    {a : Bool} {new : List Token}, Json.itemsHaveReal items = false → c.Yields k bs a new b outer →
    (itemsChunk b c items).Yields k bs a (new ++ itemsTokens items) b outer
  | [], c, b, k, bs, outer, a, new, _, h => by
    rw [itemsTokens, List.append_nil]
    exact h
  | item :: rest, c, b, k, bs, outer, a, new, hwhole, h => by
    rw [Json.itemsHaveReal, Bool.or_eq_false_iff] at hwhole
    have hvalue : (valueChunk (.item b) item).Yields (b + 1) (b :: outer) true
        (valueTokens false item) b outer :=
      yields_value hwhole.1 (Place.stands_item b) (Nat.lt_succ_self b) fun _ => ⟨rfl, rfl⟩
    have hitem := yields_item (Lexer.openedBlocks_self b outer) (head?_self b outer) hvalue
    rw [Lexer.opening_self, List.nil_append] at hitem
    have hrest := yields_items hwhole.2 hitem
    rw [List.cons_append] at hrest
    rw [itemsChunk_cons, itemsTokens]
    exact h.behind (startsToken_itemsChunk (startsToken_item item) rest) hrest

/-- The members behind others. -/
theorem yields_members : ∀ {lo : Option String} {members : Entries String Json lo} {c : Chunk}
    {b k : Nat} {bs outer : List Nat} {a : Bool} {new : List Token},
    Json.membersHaveReal members = false → c.Yields k bs a new b outer →
    (membersChunk b c members).Yields k bs a (new ++ membersTokens members) b outer
  | _, .nil, c, b, k, bs, outer, a, new, _, h => by
    rw [membersTokens, List.append_nil]
    exact h
  | _, .cons key v _ rest, c, b, k, bs, outer, a, new, hwhole, h => by
    rw [Json.membersHaveReal, Bool.or_eq_false_iff] at hwhole
    have hmember := yields_member (Lexer.openedBlocks_self b outer) (head?_self b outer)
      fun k a hk h => yields_value hwhole.1 (Place.stands_member b key) hk h
    have htokens : valueTokens (!(Place.member b key).inline) v =
        valueTokens (isSimpleKey key.toList) v := by
      simp [Place.member]
    rw [Lexer.opening_self, List.nil_append, htokens] at hmember
    have hrest := yields_members hwhole.2 hmember
    simp only [List.cons_append] at hrest
    rw [membersChunk_cons, membersTokens]
    exact h.behind (startsToken_membersChunk (startsToken_member key v) rest) hrest

end

end Chunk

/-! ## Documents -/

/-- The end of the text ends all blocks. -/
theorem Lexer.next_end {i l : Nat} {ts : List Token} (hb : ∀ b, bs.head? = some b → b ≤ k) :
    ∃ lx, (between ⟨[], i, l, k⟩ ts bs a).next = .ok (true, lx) ∧
      lx.tokens = bs.map (fun _ => .blockEnd) ++ ts := by
  -- Nothing stands to the left of no token.
  have hclosed : bs.takeWhile (fun b => (none : Option Nat).all (· < b)) = bs :=
    List.takeWhile_eq_self_iff.mpr fun _ _ => rfl
  have hstart : StartsToken [] := fun _ h => by cases h
  rw [next_of_settle (settle_between hstart), cursor_between, between, closeBlocks_of_le hb]
  refine ⟨⟨⟨[], i, l, k⟩, bs.map (fun _ => .blockEnd) ++ ts, ts.length + bs.length, [], [none],
    false⟩, ?_, rfl⟩
  simp only [finish, Cursor.atEnd, topLevel, closeBlocks, hclosed]
  simp [inFlow, dropKey, bind, Except.bind, pure, Except.pure]

/-- The tokens of a text that the lexer reads to its end. -/
theorem tokens_of_yields (h : Spot.Yields ⟨s, 0, [], true⟩ new ⟨[], 0, bs, true⟩)
    (hb : ∀ b, bs.head? = some b → b ≤ 0) :
    tokens s = .ok (new ++ bs.map fun _ => .blockEnd) := by
  obtain ⟨i, l, steps, hlength, hrun⟩ := h 0 0 []
  obtain ⟨lx, hnext, htokens⟩ := Lexer.next_end (a := true) (i := i) (l := l) hb
  have hsteps : s.length + 1 = (s.length - steps) + steps + 1 := by
    have : steps + 0 ≤ s.length := hlength
    omega
  -- There are no more steps than characters, so the lexer has enough of them.
  have hend : (Lexer.start s).run (s.length + 1) = .ok lx := by
    rw [hsteps]
    refine (hrun _).trans ?_
    rw [Lexer.run]
    show ((Lexer.between ⟨[], i, l, 0⟩ (new.reverse ++ []) bs true).next >>= _) = _
    rw [hnext]
    rfl
  have hmap : (bs.map fun _ => Token.blockEnd).reverse = bs.map fun _ => .blockEnd := by
    rw [List.map_const', List.reverse_replicate]
  rw [tokens, hend]
  show Except.ok lx.tokens.reverse = _
  rw [htokens, List.reverse_append, List.reverse_append, List.reverse_reverse, hmap]
  rfl

/-- The text of an object becomes its tokens. -/
theorem tokens_print {members : SortedMap String Json}
    (hwhole : Json.membersHaveReal members = false) :
    tokens (print (.object members)).toList = .ok (valueTokens false (.object members)) := by
  rw [print, String.toList_ofList, ← List.append_nil (Chunk.newLine _ 0)]
  have hstart : StartsToken [] := fun _ h => by cases h
  have hnone : ∀ b, ([] : List Nat).head? = some b → b < 0 := fun _ h => by cases h
  cases members with
  -- An empty object opens no block.
  | nil =>
    exact tokens_of_yields (Spot.yields_empty (a := true) true hnone 0 hstart)
      fun _ h => by cases h
  | cons key v above rest =>
    rw [Json.membersHaveReal, Bool.or_eq_false_iff] at hwhole
    have hmember := Chunk.yields_member (show Lexer.openedBlocks [] 0 = [0] from rfl)
      (fun _ h => by cases h) fun k a hk h =>
        Chunk.yields_value hwhole.1 (Place.stands_member 0 key) hk h
    have hopening : Lexer.opening [] 0 .blockMappingStart = [.blockMappingStart] := rfl
    rw [hopening] at hmember
    have hyields := Chunk.yields_members hwhole.2 hmember 0 [] (Nat.le_refl 0) hstart
    refine (tokens_of_yields hyields (Chunk.head?_self 0 [])).trans ?_
    simp [valueTokens, blockTokens, Place.member]

end LayeredConfig.Yaml
