import LayeredConfig.Proofs.Yaml.Tokens

/-!
# From spot to spot

A spot says what is left of a text and what the lexer knows there.  Going from one spot to another
yields tokens, whatever came before, so the tokens of a text are put together from those of its
pieces.

## Key results

- `Spot.Yields.trans`: one piece after the other
- `Spot.yields_spaces`, `Spot.yields_newLine`, `Spot.yields_blockEnd`: white space
- `Spot.yields_entry`, `Spot.yields_question`, `Spot.yields_colon`: indicators
- `Spot.yields_word`, `Spot.yields_quoted`, `Spot.yields_literal`: scalars up to the next line
-/

namespace LayeredConfig.Yaml

/-- What is left of a text, and what the lexer knows there when no key is pending. -/
structure Spot where
  text : List Char
  column : Nat
  /-- The columns of the open blocks, the innermost first. -/
  blocks : List Nat
  /-- Whether a key may start here. -/
  keyAllowed : Bool

namespace Spot

/-- The lexer at a spot, behind some tokens. -/
def lexer (p : Spot) (i l : Nat) (ts : List Token) : Lexer :=
  .between ⟨p.text, i, l, p.column⟩ ts p.blocks p.keyAllowed

/-- The lexer gets from one spot to another, which yields tokens. -/
def Yields (p : Spot) (new : List Token) (q : Spot) : Prop :=
  ∀ i l ts, ∃ i' l', Lexer.Leads (p.lexer i l ts) (q.lexer i' l' (new.reverse ++ ts))

variable {p q r : Spot} {new new' : List Token} {s t text : List Char} {k m b : Nat} {bs : List Nat}
  {a : Bool}

/-- One piece after the other. -/
theorem Yields.trans (h : p.Yields new q) (h' : q.Yields new' r) : p.Yields (new ++ new') r := by
  intro i l ts
  obtain ⟨i', l', hleads⟩ := h i l ts
  obtain ⟨i'', l'', hleads'⟩ := h' i' l' (new.reverse ++ ts)
  -- The lexer holds its tokens in reverse, the last one first.
  rw [← List.append_assoc, ← List.reverse_append] at hleads'
  exact ⟨i'', l'', hleads.trans hleads'⟩

/-! ## White space -/

/-- Spaces in front of a token yield nothing. -/
theorem yields_spaces (m : Nat) (ht : StartsToken t) :
    Yields ⟨spaces m ++ t, k, bs, a⟩ [] ⟨t, k + m, bs, a⟩ := fun _ l _ =>
  ⟨_, l, Lexer.leads_spaces m ht⟩

/-- The end of a line and the indentation of the next one yield nothing. -/
theorem yields_newLine (m : Nat) (ht : StartsToken t) :
    Yields ⟨'\n' :: (spaces m ++ t), k, bs, a⟩ [] ⟨t, m, bs, true⟩ := fun _ l _ =>
  ⟨_, l + 1, Lexer.leads_newLine ht fun _ hx => by cases hx⟩

/-- A token to the left of a block yields the end of the block. -/
theorem yields_blockEnd (ht : StartsToken t) (hb : k < b) :
    Yields ⟨t, k, b :: bs, a⟩ [.blockEnd] ⟨t, k, bs, a⟩ := fun i l _ =>
  ⟨i, l, Lexer.leads_blockEnd ht hb⟩

/-! ## Indicators -/

/-- A token that the lexer reads at a spot. -/
theorem yields_token (hstart : StartsToken s) (hne : s ≠ []) (hb : ∀ b, bs.head? = some b → b ≤ k)
    (hlength : t.length < s.length) {bs' : List Nat} {a' : Bool}
    (h : ∀ i l ts, ∃ i' l', (Lexer.between ⟨s, i, l, k⟩ ts bs a).token =
      .ok (.between ⟨t, i', l', m⟩ (new.reverse ++ ts) bs' a')) :
    Yields ⟨s, k, bs, a⟩ new ⟨t, m, bs', a'⟩ := by
  intro i l ts
  obtain ⟨i', l', htoken⟩ := h i l ts
  exact ⟨i', l', Lexer.leads_of_token hstart hne hb htoken hlength⟩

/-- One token at most opens a block. -/
theorem reverse_opening (start : Token) :
    (Lexer.opening bs k start).reverse = Lexer.opening bs k start := by
  rw [Lexer.opening]
  split <;> rfl

/-- The indicator of an item. -/
theorem yields_entry (hb : ∀ b, bs.head? = some b → b ≤ k) (t : List Char) :
    Yields ⟨'-' :: ' ' :: t, k, bs, true⟩ (Lexer.opening bs k .blockSequenceStart ++ [.blockEntry])
      ⟨' ' :: t, k + 1, Lexer.openedBlocks bs k, true⟩ := by
  refine yields_token (.cons (by decide) _) (List.cons_ne_nil _ _) hb (by simp)
    fun i l ts => ⟨i + 1, l, ?_⟩
  rw [List.reverse_append, reverse_opening]
  exact Lexer.token_entry

/-- The indicator of a key that does not stand in front of a colon on its line. -/
theorem yields_question (hb : ∀ b, bs.head? = some b → b ≤ k) (t : List Char) :
    Yields ⟨'?' :: ' ' :: t, k, bs, true⟩ (Lexer.opening bs k .blockMappingStart ++ [.key])
      ⟨' ' :: t, k + 1, Lexer.openedBlocks bs k, true⟩ := by
  refine yields_token (.cons (by decide) _) (List.cons_ne_nil _ _) hb (by simp)
    fun i l ts => ⟨i + 1, l, ?_⟩
  rw [List.reverse_append, reverse_opening]
  exact Lexer.token_explicitKey

/-- The colon behind such a key. -/
theorem yields_colon (ht : isGap t.head? = true) :
    Yields ⟨':' :: t, k, k :: bs, true⟩ [.value] ⟨t, k + 1, k :: bs, true⟩ := by
  have hb : ∀ b, (k :: bs).head? = some b → b ≤ k := fun b hb =>
    Nat.le_of_eq (Option.some.inj hb).symm
  exact yields_token (.cons (by decide) _) (List.cons_ne_nil _ _) hb (by simp) fun i l ts =>
    ⟨i + 1, l, Lexer.token_value ht⟩

/-! ## Scalars and empty collections -/

/-- A token starts where a plain scalar does. -/
theorem startsToken_of_isPlainText (h : IsPlainText s) (t : List Char) : StartsToken (s ++ t) := by
  obtain ⟨c, s, rfl⟩ := List.exists_cons_of_ne_nil h.ne_nil
  have hprint := ne_of_isPrintable (h.isPrintable c List.mem_cons_self)
  have hhash : c ≠ '#' := by
    rintro rfl
    exact absurd (isIndicator_eq_false h.toIsPlain) (by simp [isIndicator])
  exact .cons ⟨fun hc => h.first (congrArg some hc), hprint.2.1, hhash, hprint.2.2.2.2,
    h.noBreak c List.mem_cons_self⟩ _

/-- What is remembered of a token to the right of its block need not become a key. -/
theorem pendingKey_right (hb : ∀ b, bs.head? = some b → b < k) {i l count : Nat} {x : PossibleKey}
    (h : Lexer.pendingKey bs a count ⟨s, i, l, k⟩ = some x) : x.required = false ∧ x.line = l := by
  have hne : (bs.head? == some k) = false :=
    beq_eq_false_iff_ne.mpr fun hk => Nat.lt_irrefl k (hb k hk)
  cases a with
  | false => cases h
  | true =>
    obtain rfl := Option.some.inj h
    exact ⟨hne, rfl⟩

theorem head?_lt (hb : b < k) : ∀ b', (b :: bs).head? = some b' → b' < k := fun _ hb' =>
  Option.some.inj hb' ▸ hb

theorem head?_le (hb : b < k) : ∀ b', (b :: bs).head? = some b' → b' ≤ k := fun _ hb' =>
  Nat.le_of_lt (head?_lt hb _ hb')

/-- A plain scalar and the end of its line. -/
theorem yields_word (h : IsPlainText s) (hb : b < k) (hm : m ≤ b) (ht : StartsToken t) :
    Yields ⟨s ++ '\n' :: (spaces m ++ t), k, b :: bs, a⟩ [.scalar true s] ⟨t, m, b :: bs, true⟩ := by
  intro i l ts
  have hread := Cursor.plain_line (b + 1) (i := i) (l := l) (k := k) (m := m) h ht.endsGap
    (by omega) (by omega)
  have hleads := Lexer.leads_of_token (startsToken_of_isPlainText h _) (by simp) (head?_le hb)
    (Lexer.token_plain ts (b :: bs) a h (by decide) (by decide) hread) (by simp; omega)
  -- The scalar might have become a key, which is forgotten on the next line.
  exact ⟨_, l + 1, hleads.trans (Lexer.leads_line ht fun x hx =>
    ⟨(pendingKey_right (head?_lt hb) hx).1,
      (pendingKey_right (head?_lt hb) hx).2 ▸ Nat.lt_succ_self _⟩)⟩

/-- A quoted scalar and the end of its line. -/
theorem yields_quoted (bs : List Nat) {single : Bool} {spell : Char → List Char} {n : Nat}
    (h : Quotes single spell n s text) (hn : 0 < n) (hk : n ≤ k + 1) (hb : b < k) (m : Nat)
    (ht : StartsToken t) :
    Yields ⟨quoteMark single :: (text ++ quoteMark single :: '\n' :: (spaces m ++ t)), k, b :: bs, a⟩
      [.scalar false s] ⟨t, m, b :: bs, true⟩ := by
  intro i l ts
  obtain ⟨k', -, hread⟩ := Cursor.quoted_of_quotes (t := '\n' :: (spaces m ++ t)) (i := i) (l := l)
    h hn hk fun _ => by simp
  have hstart : StartsToken (quoteMark single :: (text ++ quoteMark single :: '\n' ::
      (spaces m ++ t))) := by
    cases single <;> exact .cons (by decide) _
  have hleads := Lexer.leads_of_token hstart (List.cons_ne_nil _ _) (head?_le hb)
    (Lexer.token_quoted ts (b :: bs) a hread) (by simp; omega)
  exact ⟨_, _, hleads.trans (Lexer.leads_newLine ht fun x hx =>
    ⟨(pendingKey_right (head?_lt hb) hx).1,
      (pendingKey_right (head?_lt hb) hx).2 ▸ Nat.le_add_right _ _⟩)⟩

/-- A literal block, which holds the ends of its lines. -/
theorem yields_literal (bs : List Nat) (hne : s ≠ []) (hprint : ∀ c ∈ s, isPrintable c = true)
    (hb : b < k) (hm : m ≤ b) (ht : StartsToken t) :
    Yields ⟨'|' :: (literalHints s ++ '\n' :: (literalLines (b + 2) true s ++ blockTail s m t)), k,
      b :: bs, a⟩ [.scalar false s] ⟨t, m, b :: bs, true⟩ := by
  intro i l ts
  obtain ⟨i', l', -, hread⟩ :=
    Cursor.block_literal (i := i) (l := l) (k := k) hne hprint ht.endsGap hm
  have hlength : t.length < ('|' :: (literalHints s ++
      '\n' :: (literalLines (b + 2) true s ++ blockTail s m t))).length := by
    simp [blockTail]
    omega
  exact ⟨i', l', Lexer.leads_of_token (.cons (by decide) _) (List.cons_ne_nil _ _) (head?_le hb)
    (Lexer.token_literal hread) hlength⟩

/-- An empty collection and the end of its line. -/
theorem yields_empty (mapping : Bool) (hb : ∀ b, bs.head? = some b → b < k) (m : Nat)
    (ht : StartsToken t) :
    Yields ⟨Lexer.emptyText mapping ++ '\n' :: (spaces m ++ t), k, bs, a⟩
      [Lexer.emptyStart mapping, Lexer.emptyEnd mapping] ⟨t, m, bs, true⟩ := by
  intro i l ts
  have hleads := Lexer.leads_empty (t := '\n' :: (spaces m ++ t)) (a := a) (i := i) (l := l) ts
    mapping fun b' hb' => Nat.le_of_lt (hb b' hb')
  exact ⟨_, _, hleads.trans (Lexer.leads_newLine ht fun x hx =>
    ⟨(pendingKey_right hb hx).1, (pendingKey_right hb hx).2 ▸ Nat.le_refl _⟩)⟩

end Spot

end LayeredConfig.Yaml
