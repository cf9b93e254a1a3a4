import LayeredConfig.Proofs.Yaml.Scalar
import LayeredConfig.Proofs.Yaml.Spot

/-!
# Strings in any style

Whatever style is chosen for a string, its token is read back: as a value up to the end of its line,
as a key with its colon.

## Key results

- `Chunk.yields_string`: a string and the end of its line
- `Spot.yields_simpleKey`, `Spot.yields_explicitKey`: a key and its colon
-/

namespace LayeredConfig.Yaml

variable {s t w : List Char} {k m n b : Nat} {bs : List Nat} {a key : Bool}

/-! ## Styles -/

/-- A string stands without quotes only if it may and is the text of nothing else. -/
theorem Style.choose_eq_plain (h : Style.choose key s = .plain) :
    (Traits.of s).plain = true ∧ isAmbiguous s = false ∧ s ≠ [] := by
  simp only [Style.choose] at h
  split_ifs at h with h1 h2 h3 h4 h5 h6 h7
  have hambiguous : isAmbiguous s = false := by simpa using h4
  refine ⟨by assumption, hambiguous, ?_⟩
  rintro rfl
  exact absurd hambiguous (by decide)

/-- A string stands between single quotes only if it may and holds no line feed. -/
theorem Style.choose_eq_singleQuoted (h : Style.choose key s = .singleQuoted) :
    (Traits.of s).singleQuoted = true ∧ '\n' ∉ s := by
  simp only [Style.choose] at h
  split_ifs at h with h1 h2 h3 h4 h5 h6 h7
  all_goals exact ⟨by assumption, by simpa using h2⟩

/-- A string stands in a block only if it may and holds a line feed. -/
theorem Style.choose_eq_literal (h : Style.choose key s = .literal) :
    (Traits.of s).block = true ∧ '\n' ∈ s := by
  simp only [Style.choose] at h
  split_ifs at h with h1 h2 h3 h4 h5 h6 h7
  exact ⟨by simp_all, by simpa using h2⟩

/-- A string without quotes is read back. -/
theorem isPlainText_of_choose (h : Style.choose key s = .plain) : IsPlainText s :=
  .of_traits (Style.choose_eq_plain h).2.2 (Style.choose_eq_plain h).1

/-- A string between single quotes is read back. -/
theorem quotes_of_choose (h : Style.choose key s = .singleQuoted) (hm : m ≤ n) :
    Quotes true doubleQuote m s (singleQuotedFrom n false s) := by
  obtain ⟨htraits, hline⟩ := Style.choose_eq_singleQuoted h
  simp only [Traits.of, Bool.not_eq_true', Bool.or_eq_false_iff] at htraits
  obtain ⟨⟨hbreakSpace, hspaceBreak⟩, hprint⟩ := htraits
  exact quotes_singleQuotedFrom hm (fun c hc => by simpa using List.any_eq_false.mp hprint c hc) hline
    hbreakSpace hspaceBreak

/-- A string in a block is printable. -/
theorem isPrintable_of_choose (h : Style.choose key s = .literal) :
    ∀ c ∈ s, isPrintable c = true := by
  have htraits := (Style.choose_eq_literal h).1
  simp only [Traits.of, Bool.not_eq_true', Bool.or_eq_false_iff] at htraits
  exact fun c hc => by simpa using List.any_eq_false.mp htraits.2 c hc

/-! ## Text up to the end of its line -/

/-- The lexer reads a text and the end of its line inside a block at column `b`, whatever comes at
the next line. -/
def Chunk.Yields (c : Chunk) (k : Nat) (bs : List Nat) (a : Bool) (new : List Token) (b : Nat)
    (outer : List Nat) : Prop :=
  ∀ n t, n ≤ b → StartsToken t →
    Spot.Yields ⟨c.newLine n ++ t, k, bs, a⟩ new ⟨t, n, b :: outer, true⟩

/-- A token starts the text, whatever comes behind it. -/
def Chunk.StartsToken (c : Chunk) : Prop := ∀ t, Yaml.StartsToken (c.text ++ t)

/-- The token of a string. -/
def stringToken (key : Bool) (s : List Char) : Token :=
  .scalar (decide (Style.choose key s = .plain)) s

/-- Behind the text stand its line end and the indentation of the next line. -/
theorem Chunk.newLine_append (c : Chunk) (m : Nat) (t : List Char) :
    c.newLine m ++ t = c.text ++ ((if c.fresh then [] else ['\n']) ++ (spaces m ++ t)) := by
  simp [Chunk.newLine]

/-- Text without a line end of its own. -/
theorem Chunk.newLine_line (s : List Char) (m : Nat) (t : List Char) :
    Chunk.newLine ⟨s, false⟩ m ++ t = s ++ '\n' :: (spaces m ++ t) :=
  Chunk.newLine_append ⟨s, false⟩ m t

/-- The line end behind the text does not change how it starts. -/
theorem Chunk.StartsToken.newLine {c : Chunk} (hc : c.StartsToken) (m : Nat) (t : List Char) :
    Yaml.StartsToken (c.newLine m ++ t) := by
  rw [newLine_append]
  exact hc _

/-- A token starts where a string does. -/
theorem startsToken_string (key : Bool) (n : Nat) (s : List Char) :
    (stringChunk key n s).StartsToken := by
  intro t
  cases h : Style.choose key s with
  | plain =>
    rw [stringChunk, h]
    exact Spot.startsToken_of_isPlainText (isPlainText_of_choose h) t
  | singleQuoted | doubleQuoted | literal =>
    rw [stringChunk, h]
    exact .cons (by decide) _

/-- A string inside a block, and the end of its line. -/
theorem Chunk.yields_string (s : List Char) (hb : b < k) :
    (stringChunk false (b + 2) s).Yields k (b :: bs) a [stringToken false s] b bs := by
  intro m t hm ht
  -- Each style has a reader of its own, whose conditions are those on which the style was chosen.
  cases h : Style.choose false s with
  | plain =>
    rw [stringChunk, stringToken, h, newLine_line]
    exact Spot.yields_word (isPlainText_of_choose h) hb hm ht
  | singleQuoted =>
    have hquotes := quotes_of_choose (m := 1) (n := b + 2) h (by omega)
    have hyields := Spot.yields_quoted bs (a := a) hquotes Nat.one_pos (by omega) hb m ht
    rw [stringChunk, stringToken, h, newLine_line]
    simpa [quoteMark] using hyields
  | doubleQuoted =>
    have hyields := Spot.yields_quoted bs (a := a) (quotes_flatMap_escape 1 s) Nat.one_pos
      (by omega) hb m ht
    rw [stringChunk, stringToken, h, newLine_line]
    simpa [quoteMark] using hyields
  | literal =>
    have hne : s ≠ [] := List.ne_nil_of_mem (Style.choose_eq_literal h).2
    have hyields := Spot.yields_literal bs (k := k) (a := a) hne (isPrintable_of_choose h) hb hm ht
    rw [stringChunk, stringToken, h, newLine_append]
    simpa [blockTail] using hyields

/-! ## Keys in front of their colon -/

/-- A simple key stands on one line and is short. -/
theorem isSimpleKey_iff :
    isSimpleKey s = true ↔ (∀ c ∈ s, isBreak c = false) ∧ byteCount s ≤ 128 := by
  simp [isSimpleKey, Traits.of]

/-- What is written for a text takes no more than so many times its bytes, if that is so for each
character. -/
theorem byteCount_flatMap_le {f : Char → List Char} (h : ∀ c ∈ s, byteCount (f c) ≤ n * c.utf8Size) :
    byteCount (s.flatMap f) ≤ n * byteCount s := by
  induction s with
  | nil => exact Nat.zero_le _
  | cons c s ih =>
    obtain ⟨hc, hrest⟩ := List.forall_mem_cons.mp h
    rw [List.flatMap_cons, byteCount_append, byteCount, Nat.mul_add]
    exact Nat.add_le_add hc (ih hrest)

/-- The bytes of a character. -/
theorem utf8Size_eq (c : Char) : c.utf8Size =
    if c.toNat ≤ 0x7f then 1
    else if c.toNat ≤ 0x7ff then 2 else if c.toNat ≤ 0xffff then 3 else 4 := rfl

/-- Digits take one byte each. -/
theorem byteCount_hex {width : Nat} (hwidth : 0 < width) (hn : n < 16 ^ width) :
    byteCount (hex width n) = width := by
  have hbytes : ∀ s : List Char, (∀ c ∈ s, c.utf8Size = 1) → byteCount s = s.length := by
    intro s h
    induction s with
    | nil => rfl
    | cons c s ih =>
      obtain ⟨hc, hrest⟩ := List.forall_mem_cons.mp h
      rw [byteCount, hc, ih hrest, List.length_cons, Nat.add_comm]
  rw [hbytes _ fun c hc => ?_, length_hex hwidth hn]
  have hsmall := (toNat_of_mem_hex hc).2
  rw [utf8Size_eq, if_pos (by omega)]

/-- An escape takes no more than four times the bytes of its character. -/
theorem byteCount_escape (c : Char) : byteCount (escape c) ≤ 4 * c.utf8Size := by
  have hpos := c.utf8Size_pos
  have hsize := utf8Size_eq c
  unfold escape
  -- The character itself, a letter behind a backslash, or digits behind a letter.
  split
  · simp only [byteCount]
    omega
  split
  · next x hx =>
    have hsmall := (toNat_of_escapeLetter? hx).2
    have hletter : x.utf8Size = 1 := by
      rw [utf8Size_eq, if_pos (by omega)]
    simp only [byteCount, hletter, show '\\'.utf8Size = 1 from rfl]
    omega
  · have hlt : c.toNat < 16 ^ 8 := by
      have h : c.toNat < 2 ^ 32 := c.val.toNat_lt
      omega
    dsimp only
    split_ifs with h h'
    · rw [byteCount, byteCount, byteCount_hex (by decide) (by omega)]
      simp only [show '\\'.utf8Size = 1 from rfl, show 'x'.utf8Size = 1 from rfl]
      omega
    · rw [byteCount, byteCount, byteCount_hex (by decide) (by omega)]
      simp only [show '\\'.utf8Size = 1 from rfl, show 'u'.utf8Size = 1 from rfl]
      split_ifs at hsize <;> omega
    · rw [byteCount, byteCount, byteCount_hex (by decide) hlt]
      simp only [show '\\'.utf8Size = 1 from rfl, show 'U'.utf8Size = 1 from rfl]
      split_ifs at hsize <;> omega

/-- No escape breaks the line. -/
theorem isBreak_escape {c x : Char} (hx : x ∈ escape c) : isBreak x = false := by
  by_cases hspace : c = ' '
  · subst hspace
    obtain rfl := List.mem_singleton.mp hx
    rfl
  · exact (spells_escape hspace).noBreak x hx

/-- A doubled quote breaks no line. -/
theorem isBreak_doubleQuote {c x : Char} (hc : isBreak c = false) (hx : x ∈ doubleQuote c) :
    isBreak x = false := by
  rw [doubleQuote] at hx
  split at hx <;> simp_all

/-- A doubled quote takes two bytes in place of one. -/
theorem byteCount_doubleQuote (c : Char) : byteCount (doubleQuote c) ≤ 4 * c.utf8Size := by
  rw [doubleQuote]
  split
  · next h => rw [h]; decide
  · simp only [byteCount]
    omega

namespace Spot

variable {new : List Token} {q : Spot} {text : List Char}

/-- A scalar becomes a key by the colon behind it on its line. -/
theorem yields_key {plain : Bool} (hstart : StartsToken text) (hlength : t.length + 1 < text.length)
    (hb : ∀ b, bs.head? = some b → b ≤ k) (ht : isGap t.head? = true)
    (htoken : ∀ i l ts, ∃ i' k', i' ≤ i + 1024 ∧ k ≤ k' ∧
      (Lexer.between ⟨text, i, l, k⟩ ts bs true).token =
        .ok ⟨⟨':' :: t, i', l, k'⟩, .scalar plain s :: ts, ts.length + 1, bs,
          [Lexer.pendingKey bs true ts.length ⟨text, i, l, k⟩], false⟩)
    (h : ∀ k', k < k' → Yields ⟨t, k', Lexer.openedBlocks bs k, false⟩ new q) :
    Yields ⟨text, k, bs, true⟩
      (Lexer.opening bs k .blockMappingStart ++ .key :: .scalar plain s :: .value :: new) q := by
  intro i l ts
  obtain ⟨i', k', hi, hk, hscalar⟩ := htoken i l ts
  have hne : text ≠ [] := List.ne_nil_of_length_pos (by omega)
  -- The text of the key is short enough for a simple key, so the colon finds the key pending.
  have hfirst := Lexer.leads_of_token hstart hne hb hscalar (by simpa using hlength)
  obtain ⟨i'', l'', hrest⟩ := h (k' + 1) (by omega) (i' + 1) l
    (.value :: .scalar plain s :: .key :: (Lexer.opening bs k .blockMappingStart ++ ts))
  refine ⟨i'', l'', ?_⟩
  have hnew : (Lexer.opening bs k .blockMappingStart ++
        .key :: .scalar plain s :: .value :: new).reverse ++ ts =
      new.reverse ++ (.value :: .scalar plain s :: .key ::
        (Lexer.opening bs k .blockMappingStart ++ ts)) := by
    simp [reverse_opening]
  rw [hnew]
  exact (hfirst.trans (Lexer.leads_colon ht hi fun b hb' => (hb b hb').trans hk)).trans hrest

/-- A quoted scalar on one line becomes a key by the colon behind it. -/
theorem yields_quotedKey {single : Bool} {spell : Char → List Char}
    (hquotes : Quotes single spell (k + 1) s text) (hline : text.countP isBreak = 0)
    (hlength : byteCount text + 2 ≤ 1024) (hb : ∀ b, bs.head? = some b → b ≤ k)
    (ht : isGap t.head? = true)
    (h : ∀ k', k < k' → Yields ⟨t, k', Lexer.openedBlocks bs k, false⟩ new q) :
    Yields ⟨quoteMark single :: (text ++ quoteMark single :: ':' :: t), k, bs, true⟩
      (Lexer.opening bs k .blockMappingStart ++ .key :: .scalar false s :: .value :: new) q := by
  refine yields_key ?_ (by simp; omega) hb ht (fun i l ts => ?_) h
  · cases single <;> exact .cons (by decide) _
  · obtain ⟨k', hk', hread⟩ := Cursor.quoted_of_quotes (t := ':' :: t) (i := i) (l := l) (k := k)
      hquotes (Nat.succ_pos k) (Nat.le_refl _) fun _ => by simp
    rw [hline] at hread
    exact ⟨_, k', by omega, by omega, Lexer.token_quoted ts bs true hread⟩

/-- A key on one line, with its colon. -/
theorem yields_simpleKey (hs : isSimpleKey s = true) (hb : ∀ b, bs.head? = some b → b ≤ k)
    (ht : isGap t.head? = true)
    (h : ∀ k', k < k' → Yields ⟨t, k', Lexer.openedBlocks bs k, false⟩ new q) :
    Yields ⟨(stringChunk true (k + 2) s).text ++ ':' :: t, k, bs, true⟩
      (Lexer.opening bs k .blockMappingStart ++ .key :: stringToken true s :: .value :: new) q := by
  obtain ⟨hline, hbytes⟩ := isSimpleKey_iff.mp hs
  cases hstyle : Style.choose true s with
  | plain =>
    have hplain := isPlainText_of_choose hstyle
    have hlimit : Lexer.plainLimit bs ≤ k + 1 := by
      cases bs with
      | nil => exact Nat.zero_le _
      | cons b bs => exact Nat.succ_le_succ (hb b rfl)
    have hpos := List.length_pos_iff.mpr hplain.ne_nil
    rw [stringChunk, stringToken, hstyle]
    refine yields_key (startsToken_of_isPlainText hplain _) (by simp; omega) hb ht
      (fun i l ts => ?_) h
    exact ⟨i + byteCount s, k + s.length, by omega, by omega,
      Lexer.token_plain ts bs true hplain (by decide) (by decide)
      (Cursor.plain_key hplain ht hlimit)⟩
  | singleQuoted =>
    have hquotes := quotes_of_choose (m := k + 1) (n := k + 2) hstyle (by omega)
    have htext := singleQuotedFrom_word (k + 2) hline []
    rw [List.append_nil, singleQuotedFrom] at htext
    simp only [Bool.false_eq_true, if_false, List.append_nil] at htext
    have hlength := byteCount_flatMap_le fun c (_ : c ∈ s) => byteCount_doubleQuote c
    have hyields := yields_quotedKey hquotes
      (htext ▸ countP_flatMap_eq_zero fun c hc _ hx => isBreak_doubleQuote (hline c hc) hx)
      (htext ▸ by omega) hb ht h
    rw [stringChunk, stringToken, hstyle]
    simpa [quoteMark] using hyields
  | doubleQuoted =>
    -- A key of 128 bytes takes 512 at most, and the lexer looks for the colon in the first 1024.
    have hlength := byteCount_flatMap_le fun c (_ : c ∈ s) => byteCount_escape c
    have hyields := yields_quotedKey (quotes_flatMap_escape (k + 1) s)
      (countP_flatMap_eq_zero fun c _ _ hx => isBreak_escape hx) (by omega) hb ht h
    rw [stringChunk, stringToken, hstyle]
    simpa [quoteMark] using hyields
  | literal =>
    -- A line feed would be a break.
    exact absurd (hline '\n' (Style.choose_eq_literal hstyle).2) (by decide)

/-- A key on lines of its own, with its colon. -/
theorem yields_explicitKey {outer : List Nat} (s : List Char)
    (hopen : Lexer.openedBlocks bs k = k :: outer) (hb : ∀ b, bs.head? = some b → b ≤ k)
    (ht : isGap t.head? = true) :
    Yields ⟨'?' :: ' ' :: ((stringChunk false (k + 2) s).newLine k ++ ':' :: t), k, bs, true⟩
      (Lexer.opening bs k .blockMappingStart ++ [.key, stringToken false s, .value])
      ⟨t, k + 1, k :: outer, true⟩ := by
  have hcolon : StartsToken (':' :: t) := .cons (by decide) t
  have hstart := (startsToken_string false (k + 2) s).newLine k (':' :: t)
  have hquestion := yields_question hb ((stringChunk false (k + 2) s).newLine k ++ ':' :: t)
  rw [hopen] at hquestion
  have hkey := hquestion.trans ((yields_spaces 1 hstart).trans
    ((Chunk.yields_string s (by omega) k _ (Nat.le_refl k) hcolon).trans (yields_colon ht)))
  simpa using hkey

end Spot

end LayeredConfig.Yaml
