import LayeredConfig.Proofs.Yaml.Cursor
import Mathlib.Algebra.Group.Nat.Defs

/-!
# Quoted scalars are read back

What is written between quotes falls into words, whose characters are spelt one by one, and white
space, which is folded when it is read.

## Key results

- `Cursor.quoted_of_quotes`: the text between quotes is read back
- `quotes_flatMap_escape`: what is written between double quotes
- `quotes_singleQuotedFrom`: what is written between single quotes
-/

namespace LayeredConfig.Yaml

/-! ## Between quotes -/

/-- White space `g` between words is read back from `text`, and the cursor stays at column `m` or
behind it. -/
structure Folds (m : Nat) (g text : List Char) : Prop where
  head : ∃ c s, text = c :: s ∧ (isBlank c = true ∨ isBreak c = true)
  read : ∀ {t : List Char} {n i l k : Nat}, EndsGap t → text.length ≤ n → m ≤ k →
    ∃ gap k', gap.fold = g ∧ m ≤ k' ∧ Cursor.gap 0 n .empty ⟨text ++ t, i, l, k⟩ =
      .ok (gap, ⟨t, i + byteCount text, l + text.countP isBreak, k'⟩)

/-- A character of a word is read back from `text`. -/
structure Spells (single : Bool) (c : Char) (text : List Char) : Prop where
  endsGap : ∀ t, EndsGap (text ++ t)
  noBreak : ∀ x ∈ text, isBreak x = false
  read : ∀ (acc t : List Char) (n i l k : Nat),
    Cursor.quotedRun single (n + 1) acc ⟨text ++ t, i, l, k⟩ =
      Cursor.quotedRun single n (c :: acc) ⟨t, i + byteCount text, l, k + text.length⟩

/-- What is written between quotes for a text, where `spell` writes the characters of words. -/
inductive Quotes (single : Bool) (spell : Char → List Char) (m : Nat) :
    List Char → List Char → Prop
  | word {w : List Char} (hw : ∀ c ∈ w, Spells single c (spell c)) :
    Quotes single spell m w (w.flatMap spell)
  | gap {w g gtext s text : List Char} (hw : ∀ c ∈ w, Spells single c (spell c))
      (hg : Folds m g gtext) (hs : EndsGap text) (rest : Quotes single spell m s text) :
    Quotes single spell m (w ++ (g ++ s)) (w.flatMap spell ++ (gtext ++ text))

/-- The character around a quoted scalar. -/
def quoteMark (single : Bool) : Char := if single then '\'' else '"'

variable {single : Bool} {spell : Char → List Char} {m n i l k : Nat}
  {w g gtext s t text acc : List Char}

/-- No character of a word breaks the line. -/
theorem Spells.countP {c : Char} (h : Spells single c text) : text.countP isBreak = 0 :=
  List.countP_eq_zero.mpr fun x hx => by simp [h.noBreak x hx]

/-- A word is not longer than what is written for it. -/
theorem length_le_of_spells (hw : ∀ c ∈ w, Spells single c (spell c)) :
    w.length ≤ (w.flatMap spell).length := by
  induction w with
  | nil => exact Nat.le_refl 0
  | cons c w ih =>
    obtain ⟨hc, hrest⟩ := List.forall_mem_cons.mp hw
    have hpos : 0 < (spell c).length := by
      refine List.length_pos_iff.mpr fun hnil => ?_
      -- Nothing could keep a break behind the character from being white space.
      have hends := hc.endsGap ['\n']
      rw [hnil] at hends
      exact absurd (hends '\n' rfl).2 (by decide)
    have htail := ih hrest
    rw [List.flatMap_cons, List.length_append, List.length_cons]
    omega

/-- What is written without breaks stays on one line. -/
theorem countP_flatMap_eq_zero (h : ∀ c ∈ s, ∀ x ∈ spell c, isBreak x = false) :
    (s.flatMap spell).countP isBreak = 0 := by
  refine List.countP_eq_zero.mpr fun x hx => ?_
  obtain ⟨c, hc, hmem⟩ := List.mem_flatMap.mp hx
  simp [h c hc x hmem]

/-- White space ends in front of the closing quote. -/
theorem endsGap_append_quoteMark (h : EndsGap text) (t : List Char) :
    EndsGap (text ++ quoteMark single :: t) := by
  cases text with
  | nil =>
    intro c hc
    obtain rfl : quoteMark single = c := Option.some.inj hc
    cases single <;> decide
  | cons c text => exact h

namespace Cursor

/-- The characters of a word are read one by one. -/
theorem quotedRun_word (hw : ∀ c ∈ w, Spells single c (spell c)) :
    quotedRun single (n + w.length) acc ⟨w.flatMap spell ++ t, i, l, k⟩ =
      quotedRun single n (w.reverse ++ acc)
        ⟨t, i + byteCount (w.flatMap spell), l, k + (w.flatMap spell).length⟩ := by
  -- On the word: what is written for its first character is read before the others.
  induction w generalizing acc i k with
  | nil => rfl
  | cons c w ih =>
    obtain ⟨hc, hrest⟩ := List.forall_mem_cons.mp hw
    rw [List.flatMap_cons, List.append_assoc, List.length_cons, ← Nat.add_assoc,
      hc.read acc (w.flatMap spell ++ t) (n + w.length) i l k, ih hrest, byteCount_append,
      List.reverse_cons, List.append_assoc, List.length_append, Nat.add_assoc, Nat.add_assoc]
    rfl

/-- A run goes over a word and ends where nothing more belongs to it. -/
theorem quotedRun_word_end (acc : List Char) (i l k : Nat)
    (hw : ∀ c ∈ w, Spells single c (spell c)) (hn : w.length ≤ n)
    (hend : ∀ n acc i l k, quotedRun single n acc ⟨t, i, l, k⟩ = .ok (acc, false, ⟨t, i, l, k⟩)) :
    quotedRun single n acc ⟨w.flatMap spell ++ t, i, l, k⟩ =
      .ok (w.reverse ++ acc, false,
        ⟨t, i + byteCount (w.flatMap spell), l, k + (w.flatMap spell).length⟩) := by
  obtain ⟨r, rfl⟩ : ∃ r, n = r + w.length := ⟨n - w.length, by omega⟩
  rw [quotedRun_word hw, hend]

/-- White space ends a run. -/
theorem quotedRun_gap (hg : Folds m g gtext) :
    quotedRun single n acc ⟨gtext ++ t, i, l, k⟩ = .ok (acc, false, ⟨gtext ++ t, i, l, k⟩) := by
  obtain ⟨c, s, rfl, hc⟩ := hg.head
  cases n with
  | zero => rfl
  | succ n =>
    have hblank : (⟨c :: s ++ t, i, l, k⟩ : Cursor).blankAhead 0 = true := by
      rcases hc with h | h <;> simp [blankAhead, h]
    rw [quotedRun, if_pos hblank]

/-- The closing quote ends a run, unless another one escapes it. -/
theorem quotedRun_quote (ht : single = true → t.head? ≠ some '\'') :
    quotedRun single n acc ⟨quoteMark single :: t, i, l, k⟩ =
      .ok (acc, false, ⟨quoteMark single :: t, i, l, k⟩) := by
  cases n with
  | zero => rfl
  | succ n =>
    cases single with
    | false => simp [quotedRun, quoteMark, blankAhead, isBlank, isBreak]
    | true =>
      have hahead : (⟨'\'' :: t, i, l, k⟩ : Cursor).ahead 1 ≠ '\'' := by
        cases t with
        | nil => exact (by decide : '\x00' ≠ '\'')
        | cons c t => exact fun h => ht rfl (congrArg some h)
      simp [quotedRun, quoteMark, blankAhead, isBlank, isBreak, hahead]

/-- A word and the white space behind it. -/
theorem quotedFrom_gap (hk : 0 < k) (hw : ∀ c ∈ w, Spells single c (spell c)) (hn : w.length ≤ n)
    (hg : Folds m g gtext) :
    quotedFrom single (n + 1) acc ⟨w.flatMap spell ++ (gtext ++ t), i, l, k⟩ = (do
      let (g, c) ← gap 0 n .empty
        ⟨gtext ++ t, i + byteCount (w.flatMap spell), l, k + (w.flatMap spell).length⟩
      quotedFrom single n (g.fold.reverse ++ (w.reverse ++ acc)) c) := by
  have hrun := quotedRun_word_end acc i l k hw hn
    fun _ _ _ _ _ => quotedRun_gap (t := t) hg
  obtain ⟨c, s, rfl, hc⟩ := hg.head
  have hend : (⟨w.flatMap spell ++ (c :: s ++ t), i, l, k⟩ : Cursor).atEnd = false := by
    simp [atEnd]
  -- White space is no quote, so the scalar goes on.
  have hmark : ¬ c = if single = true then '\'' else '"' := by
    rintro rfl
    cases single <;> exact absurd hc (by decide)
  rw [quotedFrom, atDocumentMarker_of_pos hk, hend, hrun]
  simp only [bind, Except.bind, Bool.or_self, Bool.false_eq_true, if_false, List.cons_append,
    head_cons, hmark, decide_false, Bool.and_false, Gap.empty]

/-- A word and the closing quote. -/
theorem quotedFrom_quote (hk : 0 < k) (hw : ∀ c ∈ w, Spells single c (spell c)) (hn : w.length ≤ n)
    (ht : single = true → t.head? ≠ some '\'') :
    quotedFrom single (n + 1) acc ⟨w.flatMap spell ++ quoteMark single :: t, i, l, k⟩ =
      .ok (acc.reverse ++ w,
        ⟨t, i + byteCount (w.flatMap spell) + 1, l, k + (w.flatMap spell).length + 1⟩) := by
  have hrun := quotedRun_word_end acc i l k hw hn
    fun _ _ _ _ _ => quotedRun_quote ht
  have hend : (⟨w.flatMap spell ++ quoteMark single :: t, i, l, k⟩ : Cursor).atEnd = false := by
    simp [atEnd]
  rw [quotedFrom, atDocumentMarker_of_pos hk, hend, hrun]
  cases single <;> simp [quoteMark, bind, Except.bind] <;> rfl

/-- What is written between quotes is read up to the closing quote. -/
theorem quotedFrom_of_quotes (h : Quotes single spell m s text) (hm : 0 < m) (hk : m ≤ k)
    (hn : text.length < n) (ht : single = true → t.head? ≠ some '\'') :
    ∃ k', m ≤ k' ∧ quotedFrom single n acc ⟨text ++ quoteMark single :: t, i, l, k⟩ =
      .ok (acc.reverse ++ s, ⟨t, i + byteCount text + 1, l + text.countP isBreak, k'⟩) := by
  -- On what is written, as the reader meets it: a word ends with white space or with the quote.
  induction h generalizing acc n i l k with
  | @word w hw =>
    obtain ⟨n, rfl⟩ : ∃ m, n = m + 1 := ⟨n - 1, by omega⟩
    have hlength := length_le_of_spells hw
    refine ⟨k + (w.flatMap spell).length + 1, by omega, ?_⟩
    rw [quotedFrom_quote (by omega) hw (by omega) ht,
      countP_flatMap_eq_zero fun c hc => (hw c hc).noBreak]
    rfl
  | @gap w g gtext s text hw hg hs rest ih =>
    obtain ⟨n, rfl⟩ : ∃ m, n = m + 1 := ⟨n - 1, by omega⟩
    have hlength := length_le_of_spells hw
    have hpos : 0 < gtext.length := by
      obtain ⟨c, gtext', rfl, -⟩ := hg.head
      exact Nat.succ_pos _
    rw [List.length_append, List.length_append] at hn
    -- The white space is folded, and what follows it is read from there.
    obtain ⟨gp, k', hfold, hk', hgap⟩ := hg.read (n := n) (i := i + byteCount (w.flatMap spell))
      (l := l) (k := k + (w.flatMap spell).length) (endsGap_append_quoteMark hs t)
      (by omega) (by omega)
    obtain ⟨k'', hk'', hrest⟩ := @ih n (i + byteCount (w.flatMap spell) + byteCount gtext)
      (l + gtext.countP isBreak) k' (g.reverse ++ (w.reverse ++ acc)) hk' (by omega)
    refine ⟨k'', hk'', ?_⟩
    rw [List.append_assoc, List.append_assoc, quotedFrom_gap (by omega) hw (by omega) hg, hgap]
    simp only [bind, Except.bind, hfold, hrest, byteCount_append, List.countP_append,
      countP_flatMap_eq_zero fun c hc => (hw c hc).noBreak]
    simp [Nat.add_assoc]

/-- A quoted scalar is read back. -/
theorem quoted_of_quotes (h : Quotes single spell m s text) (hm : 0 < m) (hk : m ≤ k + 1)
    (ht : single = true → t.head? ≠ some '\'') :
    ∃ k', m ≤ k' ∧
      quoted ⟨quoteMark single :: (text ++ quoteMark single :: t), i, l, k⟩ single =
        .ok (s, ⟨t, i + byteCount text + 2, l + text.countP isBreak, k'⟩) := by
  have hsize : (quoteMark single).utf8Size = 1 := by cases single <;> rfl
  obtain ⟨k', hk', hread⟩ := quotedFrom_of_quotes (i := i + 1) (l := l)
    (n := (quoteMark single :: (text ++ quoteMark single :: t)).length + 1) (t := t) h hm hk
    (by simp; omega) ht
  refine ⟨k', hk', ?_⟩
  rw [quoted, skip_one, hsize, hread]
  simp [Nat.add_assoc, Nat.add_comm 1]

end Cursor

/-! ## Double quotes -/

/-- The value of hexadecimal digits. -/
def hexValue? (ds : List Char) : Option Nat :=
  ds.foldlM (fun v d => (hexDigit? d).map (v * 16 + ·)) 0

/-- A digit of base sixteen is read back and breaks no line. -/
theorem hexDigit?_toUpper_digitChar {d : Nat} (hd : d < 16) :
    hexDigit? (Nat.digitChar d).toUpper = some d ∧ isBreak (Nat.digitChar d).toUpper = false := by
  have hall : ∀ d : Fin 16, hexDigit? (Nat.digitChar d).toUpper = some d.val ∧
      isBreak (Nat.digitChar d).toUpper = false := by decide
  exact hall ⟨d, hd⟩

/-- One more digit shifts the value by one place. -/
theorem hexValue?_append_digit {ds : List Char} {v d : Nat} (hds : hexValue? ds = some v)
    (hd : d < 16) : hexValue? (ds ++ [(Nat.digitChar d).toUpper]) = some (v * 16 + d) := by
  rw [hexValue?] at hds
  rw [hexValue?, List.foldlM_append, hds]
  simp [(hexDigit?_toUpper_digitChar hd).1]

/-- The digits of a number are read as the number. -/
theorem hexValue?_toDigits (n : Nat) :
    hexValue? ((Nat.toDigits 16 n).map Char.toUpper) = some n := by
  induction n using Nat.strongRecOn with
  | ind n ih =>
    by_cases hlt : n < 16
    · rw [Nat.toDigits_of_lt_base hlt]
      simpa using hexValue?_append_digit (show hexValue? [] = some 0 from rfl) hlt
    · have hdigit := hexValue?_append_digit (ih (n / 16) (by omega))
        (Nat.mod_lt n (by decide : 0 < 16))
      rw [Nat.div_add_mod' n 16] at hdigit
      rw [Nat.toDigits_of_base_le (by decide) (by omega), List.map_append]
      exact hdigit

/-- Zeros before the digits do not count. -/
theorem hexValue?_replicate_append (m : Nat) (ds : List Char) :
    hexValue? (List.replicate m '0' ++ ds) = hexValue? ds := by
  induction m with
  | zero => rfl
  | succ m ih => exact ih

/-- A number in base sixteen is read back. -/
theorem hexValue?_hex (width n : Nat) : hexValue? (hex width n) = some n := by
  rw [hex, hexValue?_replicate_append, hexValue?_toDigits]

/-- A number that is small enough takes just the width that it is given. -/
theorem length_hex {width n : Nat} (hwidth : 0 < width) (hn : n < 16 ^ width) :
    (hex width n).length = width := by
  have hle := (Nat.length_toDigits_le_iff (by decide) hwidth).mpr hn
  rw [hex, List.length_append, List.length_replicate, List.length_map]
  omega

/-- What has a value is made of digits. -/
theorem isSome_hexDigit?_of_foldlM {ds : List Char} {v₀ v : Nat}
    (h : ds.foldlM (fun v d => (hexDigit? d).map (v * 16 + ·)) v₀ = some v) :
    ∀ c ∈ ds, (hexDigit? c).isSome = true := by
  induction ds generalizing v₀ with
  | nil => exact List.forall_mem_nil _
  | cons d ds ih =>
    rw [List.foldlM_cons] at h
    obtain ⟨v₁, hd, hrest⟩ := Option.bind_eq_some_iff.mp h
    obtain ⟨n, hn, -⟩ := Option.map_eq_some_iff.mp hd
    exact List.forall_mem_cons.mpr ⟨Option.isSome_of_eq_some hn, ih hrest⟩

/-- Digits of base sixteen are small characters. -/
theorem toNat_of_hexDigit? {c : Char} (h : (hexDigit? c).isSome = true) :
    48 ≤ c.toNat ∧ c.toNat ≤ 102 := by
  have hle : ∀ {c d : Char}, c ≤ d → c.toNat ≤ d.toNat := fun h => h
  have hbounds : ∀ {lower upper : Char}, 48 ≤ lower.toNat → upper.toNat ≤ 102 →
      (decide (lower ≤ c) && decide (c ≤ upper)) = true → 48 ≤ c.toNat ∧ c.toNat ≤ 102 := by
    intro lower upper hlower hupper hc
    rw [Bool.and_eq_true, decide_eq_true_eq, decide_eq_true_eq] at hc
    exact ⟨hlower.trans (hle hc.1), (hle hc.2).trans hupper⟩
  unfold hexDigit? at h
  split_ifs at h with hdigit hsmall hcapital
  · exact hbounds (by decide) (by decide) hdigit
  · exact hbounds (by decide) (by decide) hsmall
  · exact hbounds (by decide) (by decide) hcapital
  · cases h

/-- The digits of a number are small. -/
theorem toNat_of_mem_hex {c : Char} {width n : Nat} (h : c ∈ hex width n) :
    48 ≤ c.toNat ∧ c.toNat ≤ 102 :=
  toNat_of_hexDigit? (isSome_hexDigit?_of_foldlM (hexValue?_hex width n) c h)

/-- No digit breaks the line. -/
theorem isBreak_hex {c : Char} {width n : Nat} (h : c ∈ hex width n) : isBreak c = false := by
  obtain ⟨hlow, hhigh⟩ := toNat_of_mem_hex h
  by_contra hbreak
  simp only [isBreak, Bool.not_eq_false, Bool.or_eq_true, beq_iff_eq] at hbreak
  rcases hbreak with (((rfl | rfl) | rfl) | rfl) | rfl <;> revert hlow hhigh <;> decide

/-- An escape letter stands for the character that it is written for. -/
theorem escape?_of_escapeLetter? {c x : Char} (h : escapeLetter? c = some x) :
    Cursor.escape? x = some c ∧ isBreak x = false := by
  unfold escapeLetter? at h
  split at h <;> first | (obtain rfl := Option.some.inj h; exact ⟨rfl, rfl⟩) | cases h

/-- Escape letters are visible characters of seven bits. -/
theorem toNat_of_escapeLetter? {c x : Char} (h : escapeLetter? c = some x) :
    32 ≤ x.toNat ∧ x.toNat ≤ 126 := by
  unfold escapeLetter? at h
  split at h <;> first | (obtain rfl := Option.some.inj h; decide) | cases h

/-- The digits behind an escape letter. -/
theorem escaped_hex {x : Char} {width : Nat} (c : Char) (hx : Cursor.escape? x = none)
    (hlength : Cursor.escapeLength? x = some width) (hwidth : 0 < width)
    (hc : c.toNat < 16 ^ width) :
    Cursor.escaped ⟨'\\' :: x :: (hex width c.toNat ++ t), i, l, k⟩ =
      .ok (c, ⟨t, i + byteCount ('\\' :: x :: hex width c.toNat), l,
        k + ('\\' :: x :: hex width c.toNat).length⟩) := by
  have hcount := length_hex hwidth hc
  have hdigits : (hex width c.toNat ++ t).take width = hex width c.toNat := List.take_left' hcount
  have hvalue : (hex width c.toNat).foldlM (fun v d => (hexDigit? d).map (v * 16 + ·)) 0 =
      some c.toNat := hexValue?_hex width c.toNat
  have hskip : (⟨'\\' :: x :: (hex width c.toNat ++ t), i, l, k⟩ : Cursor).skip (2 + width) =
      ⟨t, i + byteCount ('\\' :: x :: hex width c.toNat), l,
        k + ('\\' :: x :: hex width c.toNat).length⟩ := by
    have htotal : ('\\' :: x :: hex width c.toNat).length = 2 + width := by
      rw [List.length_cons, List.length_cons, hcount]
      omega
    rw [← htotal]
    exact Cursor.skip_append _ t i l k
  -- The digits write the code point of a character, so there is one.
  have hvalid : c.toNat.isValidChar := c.valid
  simp only [Cursor.escaped, Cursor.ahead_one, hx, hlength, List.drop_succ_cons, List.drop_zero,
    hdigits, hvalue, hcount, hskip]
  simp [hvalid, Char.ofNat_toNat]

/-- An escaped character is read back. -/
theorem quotedRun_escaped {c x : Char} {s : List Char} (hx : isBreak x = false)
    (h : Cursor.escaped ⟨'\\' :: x :: (s ++ t), i, l, k⟩ =
      .ok (c, ⟨t, i + byteCount ('\\' :: x :: s), l, k + ('\\' :: x :: s).length⟩)) :
    Cursor.quotedRun false (n + 1) acc ⟨'\\' :: x :: (s ++ t), i, l, k⟩ =
      Cursor.quotedRun false n (c :: acc)
        ⟨t, i + byteCount ('\\' :: x :: s), l, k + ('\\' :: x :: s).length⟩ := by
  have hblank : (⟨'\\' :: x :: (s ++ t), i, l, k⟩ : Cursor).blankAhead 0 = false := rfl
  rw [Cursor.quotedRun, h, hblank]
  simp [hx]

/-- So an escape spells its character. -/
theorem spells_escaped {c x : Char} {s : List Char} (hx : isBreak x = false)
    (hs : ∀ y ∈ s, isBreak y = false)
    (h : ∀ t i l k, Cursor.escaped ⟨'\\' :: x :: (s ++ t), i, l, k⟩ =
      .ok (c, ⟨t, i + byteCount ('\\' :: x :: s), l, k + ('\\' :: x :: s).length⟩)) :
    Spells false c ('\\' :: x :: s) where
  endsGap t y hy := by
    obtain rfl : '\\' = y := Option.some.inj hy
    exact ⟨rfl, rfl⟩
  noBreak y hy := by
    rw [List.mem_cons, List.mem_cons] at hy
    rcases hy with rfl | rfl | hy
    · rfl
    · exact hx
    · exact hs y hy
  read acc t n i l k := quotedRun_escaped hx (h t i l k)

/-- A character that may stand between double quotes as it is. -/
theorem spells_self {c : Char} (hprint : isPrintable c = true) (hbreak : isBreak c = false)
    (hspace : c ≠ ' ') (hquote : c ≠ '"') (hescape : c ≠ '\\') : Spells false c [c] where
  endsGap t y hy := by
    obtain rfl : c = y := Option.some.inj hy
    exact ⟨isBlank_eq_false hspace (ne_of_isPrintable hprint).2.1, hbreak⟩
  noBreak y hy := (List.mem_singleton.mp hy) ▸ hbreak
  read acc t n i l k := by
    obtain ⟨hnull, htab, -⟩ := ne_of_isPrintable hprint
    simp [Cursor.quotedRun, Cursor.blankAhead, isBlank, hbreak, hspace, htab, hnull, hquote, hescape,
      byteCount]

/-- Every character but the space is read back from between double quotes. -/
theorem spells_escape {c : Char} (hspace : c ≠ ' ') : Spells false c (escape c) := by
  unfold escape
  -- A character stands for itself, has a letter, or is written in two, four or eight digits.
  split
  · next h =>
    simp only [Bool.and_eq_true, Bool.not_eq_true', bne_iff_ne] at h
    exact spells_self h.1.1.1 h.1.1.2 hspace h.1.2 h.2
  · split
    · next x hx =>
      obtain ⟨hread, hbreak⟩ := escape?_of_escapeLetter? hx
      refine spells_escaped (s := []) hbreak (List.forall_mem_nil _) fun t i l k => ?_
      simp only [Cursor.escaped, List.nil_append, Cursor.ahead_one, hread]
      rfl
    · dsimp only
      split
      · next h =>
        exact spells_escaped rfl (fun _ => isBreak_hex)
          fun t i l k => escaped_hex c rfl rfl (by decide) (by omega)
      split
      · next h =>
        exact spells_escaped rfl (fun _ => isBreak_hex)
          fun t i l k => escaped_hex c rfl rfl (by decide) (by omega)
      · have hlt : c.toNat < 16 ^ 8 := by
          have h : c.toNat < 2 ^ 32 := c.val.toNat_lt
          omega
        exact spells_escaped rfl (fun _ => isBreak_hex)
          fun t i l k => escaped_hex c rfl rfl (by decide) hlt

/-- Spaces in a line are kept. -/
theorem folds_blanks {g : List Char} (hg : ∀ c ∈ g, c = ' ') (hne : g ≠ []) : Folds m g g where
  head := by
    obtain ⟨c, g', rfl⟩ := List.exists_cons_of_ne_nil hne
    exact ⟨c, g', rfl, .inl (by rw [hg c List.mem_cons_self]; rfl)⟩
  read ht hn hk := by
    have hcount : g.countP isBreak = 0 :=
      List.countP_eq_zero.mpr fun c hc => by rw [hg c hc]; decide
    refine ⟨_, _, ?_, ?_, by rw [hcount]; exact Cursor.gap_blanks hg ht hn rfl⟩
    · rfl
    · omega

/-- Where every character is written as it is, so is the text. -/
theorem flatMap_eq_self {f : Char → List Char} (h : ∀ c ∈ s, f c = [c]) : s.flatMap f = s := by
  induction s with
  | nil => rfl
  | cons c s ih =>
    obtain ⟨hc, hrest⟩ := List.forall_mem_cons.mp h
    rw [List.flatMap_cons, hc, ih hrest]
    rfl

/-- What is written between double quotes. -/
theorem quotes_flatMap_escape (m : Nat) (s : List Char) :
    Quotes false escape m s (s.flatMap escape) := by
  -- On words and the spaces between them, which are not escaped.
  induction Runs.of (· == ' ') s with
  | word hw => exact .word fun c hc => spells_escape (by simpa using hw c hc)
  | @gap w g s hw hg hne hs rest ih =>
    have hblank : ∀ c ∈ g, c = ' ' := fun c hc => by simpa using hg c hc
    have hself : g.flatMap escape = g :=
      flatMap_eq_self fun c hc => by rw [hblank c hc]; rfl
    have hends : EndsGap (s.flatMap escape) := by
      cases s with
      | nil => exact fun _ hc => by cases hc
      | cons c s =>
        have hc : c ≠ ' ' := by simpa using hs c rfl
        exact (spells_escape hc).endsGap _
    rw [List.flatMap_append, List.flatMap_append, hself]
    exact .gap (fun c hc => spells_escape (by simpa using hw c hc)) (folds_blanks hblank hne) hends ih

/-! ## Single quotes -/

/-- What no two neighbours of a text are, none in its parts are. -/
theorem anyPair_append {p : Char → Char → Bool} {s t : List Char}
    (h : anyPair p (s ++ t) = false) : anyPair p s = false ∧ anyPair p t = false := by
  induction s with
  | nil => exact ⟨rfl, h⟩
  | cons a s ih =>
    cases s with
    | nil =>
      cases t with
      | nil => exact ⟨rfl, rfl⟩
      | cons b t => exact ⟨rfl, (Bool.or_eq_false_iff.mp h).2⟩
    | cons b s =>
      obtain ⟨hpair, hrest⟩ := Bool.or_eq_false_iff.mp h
      obtain ⟨hs, ht⟩ := ih hrest
      exact ⟨Bool.or_eq_false_iff.mpr ⟨hpair, hs⟩, ht⟩

/-- Where spaces and breaks never meet, white space is of one kind. -/
theorem spaces_or_breaks {g : List Char} (hg : ∀ c ∈ g, (c == ' ' || isBreak c) = true)
    (hbreakSpace : anyPair (fun a b => isBreak a && b == ' ') g = false)
    (hspaceBreak : anyPair (fun a b => a == ' ' && isBreak b) g = false) :
    (∀ c ∈ g, c = ' ') ∨ ∀ c ∈ g, isBreak c = true := by
  induction g with
  | nil => exact .inl (List.forall_mem_nil _)
  | cons a g ih =>
    obtain ⟨ha, hrest⟩ := List.forall_mem_cons.mp hg
    rw [Bool.or_eq_true, beq_iff_eq] at ha
    cases g with
    | nil => exact ha.imp (by simp) (by simp)
    | cons b g =>
      obtain ⟨hab, hbs⟩ := Bool.or_eq_false_iff.mp hbreakSpace
      obtain ⟨hab', hsb⟩ := Bool.or_eq_false_iff.mp hspaceBreak
      -- The rest is of one kind, and the first is of the same kind as its neighbour.
      rcases ih hrest hbs hsb with hall | hall
      · refine .inl (List.forall_mem_cons.mpr ⟨ha.resolve_right fun hbreak => ?_, hall⟩)
        simp [hbreak, hall b List.mem_cons_self] at hab
      · refine .inr (List.forall_mem_cons.mpr ⟨ha.resolve_left fun hspace => ?_, hall⟩)
        simp [hspace, hall b List.mem_cons_self] at hab'

/-- A character between single quotes. -/
def doubleQuote (c : Char) : List Char := if c = '\'' then ['\'', '\''] else [c]

/-- Every printable character but white space is read back from between single quotes. -/
theorem spells_doubleQuote {c : Char} (hprint : isPrintable c = true) (hbreak : isBreak c = false)
    (hspace : c ≠ ' ') : Spells true c (doubleQuote c) := by
  obtain ⟨hnull, htab, -⟩ := ne_of_isPrintable hprint
  have hblank : isBlank c = false := isBlank_eq_false hspace htab
  by_cases hquote : c = '\''
  · subst hquote
    refine ⟨fun t y hy => ?_, fun y hy => ?_, fun acc t n i l k => ?_⟩
    · obtain rfl : '\'' = y := Option.some.inj hy
      exact ⟨rfl, rfl⟩
    · simp [doubleQuote] at hy
      exact hy ▸ rfl
    · rfl
  · have htext : doubleQuote c = [c] := if_neg hquote
    rw [htext]
    refine ⟨fun t y hy => ?_, fun y hy => List.mem_singleton.mp hy ▸ hbreak, fun acc t n i l k => ?_⟩
    · obtain rfl : c = y := Option.some.inj hy
      exact ⟨hblank, hbreak⟩
    · simp [Cursor.quotedRun, Cursor.blankAhead, hblank, hbreak, hnull, hquote, byteCount]

variable {indent : Nat}

/-- In a line only quotes are written otherwise than they are. -/
theorem singleQuotedFrom_word (indent : Nat) (hw : ∀ c ∈ w, isBreak c = false) (s : List Char) :
    singleQuotedFrom indent false (w ++ s) =
      w.flatMap doubleQuote ++ singleQuotedFrom indent false s := by
  induction w with
  | nil => rfl
  | cons c w ih =>
    obtain ⟨hc, hrest⟩ := List.forall_mem_cons.mp hw
    simp [singleQuotedFrom, hc, ih hrest, doubleQuote]

/-- Breaks are written as they are, and the line behind them is indented. -/
theorem singleQuotedFrom_breaks {g : List Char} (hg : ∀ c ∈ g, isBreak c = true) (hne : g ≠ [])
    (s : List Char) (hs : ∀ c, s.head? = some c → isBreak c = false) (broken : Bool) :
    singleQuotedFrom indent broken (g ++ s) =
      g ++ (spaces indent ++ singleQuotedFrom indent false s) := by
  -- On the breaks: whether the line was broken before does not matter in front of a break.
  induction g generalizing broken with
  | nil => exact absurd rfl hne
  | cons c g ih =>
    obtain ⟨hc, hrest⟩ := List.forall_mem_cons.mp hg
    have hstart : singleQuotedFrom indent true (g ++ s) =
        g ++ (spaces indent ++ singleQuotedFrom indent false s) := by
      cases g with
      | nil =>
        cases s with
        | nil => simp [singleQuotedFrom]
        | cons d s => simp [singleQuotedFrom, hs d rfl]
      | cons d g => exact ih hrest (List.cons_ne_nil d g) true
    simp [singleQuotedFrom, hc, hstart]

/-- Breaks other than line feeds are kept with the indentation behind them dropped. -/
theorem folds_lines {g : List Char} (hg : ∀ c ∈ g, IsPrintedBreak c) (hline : '\n' ∉ g)
    (hne : g ≠ []) (hm : m ≤ indent) : Folds m g (g ++ spaces indent) := by
  obtain ⟨c, g, rfl⟩ := List.exists_cons_of_ne_nil hne
  obtain ⟨hc, hrest⟩ := List.forall_mem_cons.mp hg
  have hcount : (c :: g ++ spaces indent).countP isBreak = 1 + g.length := by
    have hg' : g.countP isBreak = g.length := List.countP_eq_length.mpr fun d hd => (hrest d hd).1
    have hspaces : (spaces indent).countP isBreak = 0 :=
      List.countP_eq_zero.mpr fun d hd => by rw [List.eq_of_mem_replicate hd]; decide
    rw [List.countP_append, List.countP_cons_of_pos hc.1, hg', hspaces, Nat.add_comm 1]
  refine ⟨⟨c, _, rfl, .inr hc.1⟩, fun {t n i l k} ht hn hk => ?_⟩
  rw [List.length_append, List.length_cons, spaces, List.length_replicate] at hn
  have hgap := Cursor.gap_lines 0 (n := n) (i := i) (l := l) (k := k) indent hc hrest ht
    (by omega)
  -- Only a line feed would be folded into a space.
  have hfirst : ¬ [c] = ['\n'] := fun h =>
    hline (List.mem_cons.mpr (.inl (List.cons.inj h).1.symm))
  refine ⟨⟨[], [c], g, true⟩, indent, ?_, hm, ?_⟩
  · rw [Gap.fold, if_pos rfl, if_neg hfirst]
    rfl
  · rw [hcount]
    simpa [byteCount, byteCount_append, Nat.add_assoc] using hgap

/-- A text that starts without white space is written without it. -/
theorem endsGap_singleQuotedFrom (hprint : ∀ c ∈ s, isPrintable c = true)
    (hs : ∀ c, s.head? = some c → c ≠ ' ' ∧ isBreak c = false) :
    EndsGap (singleQuotedFrom indent false s) := by
  cases s with
  | nil => exact fun _ hc => by cases hc
  | cons c s =>
    obtain ⟨hspace, hbreak⟩ := hs c rfl
    have htext := singleQuotedFrom_word indent (w := [c]) (by simpa using hbreak) s
    rw [List.singleton_append, List.flatMap_cons, List.flatMap_nil, List.append_nil] at htext
    rw [htext]
    exact (spells_doubleQuote (hprint c List.mem_cons_self) hbreak hspace).endsGap _

/-- What is written between single quotes. -/
theorem quotes_singleQuotedFrom {s : List Char} (hm : m ≤ indent)
    (hprint : ∀ c ∈ s, isPrintable c = true) (hline : '\n' ∉ s)
    (hbreakSpace : anyPair (fun a b => isBreak a && b == ' ') s = false)
    (hspaceBreak : anyPair (fun a b => a == ' ' && isBreak b) s = false) :
    Quotes true doubleQuote m s (singleQuotedFrom indent false s) := by
  -- On words and the white space between them, which is made of spaces or of breaks.
  induction Runs.of (fun c => c == ' ' || isBreak c) s with
  | @word w hw =>
    have hclass : ∀ c ∈ w, c ≠ ' ' ∧ isBreak c = false := fun c hc => by simpa using hw c hc
    have htext := singleQuotedFrom_word indent (fun c hc => (hclass c hc).2) []
    rw [List.append_nil, singleQuotedFrom] at htext
    simp only [Bool.false_eq_true, if_false, List.append_nil] at htext
    rw [htext]
    exact .word fun c hc => spells_doubleQuote (hprint c hc) (hclass c hc).2 (hclass c hc).1
  | @gap w g s hw hg hne hs rest ih =>
    have hclass : ∀ c ∈ w, c ≠ ' ' ∧ isBreak c = false := fun c hc => by simpa using hw c hc
    have hstart : ∀ c, s.head? = some c → c ≠ ' ' ∧ isBreak c = false := fun c hc => by
      simpa using hs c hc
    obtain ⟨hprintw, hprint⟩ := List.forall_mem_append.mp hprint
    obtain ⟨hprintg, hprints⟩ := List.forall_mem_append.mp hprint
    rw [List.mem_append, List.mem_append, not_or, not_or] at hline
    have hbs := anyPair_append (anyPair_append hbreakSpace).2
    have hsb := anyPair_append (anyPair_append hspaceBreak).2
    have hends : EndsGap (singleQuotedFrom indent false s) :=
      endsGap_singleQuotedFrom hprints hstart
    have hread := ih hprints hline.2.2 hbs.2 hsb.2
    rw [singleQuotedFrom_word indent fun c hc => (hclass c hc).2]
    rcases spaces_or_breaks hg hbs.1 hsb.1 with hspaces | hbreaks
    · rw [singleQuotedFrom_word indent fun c hc => by rw [hspaces c hc]; rfl,
        flatMap_eq_self (s := g) fun c hc => by rw [hspaces c hc]; rfl]
      exact .gap (fun c hc => spells_doubleQuote (hprintw c hc) (hclass c hc).2 (hclass c hc).1)
        (folds_blanks hspaces hne) hends hread
    · rw [singleQuotedFrom_breaks hbreaks hne s fun c hc => (hstart c hc).2, ← List.append_assoc g]
      exact .gap (fun c hc => spells_doubleQuote (hprintw c hc) (hclass c hc).2 (hclass c hc).1)
        (folds_lines (isPrintedBreak_of_isBreak hbreaks hprintg) hline.2.1 hne hm) hends hread

end LayeredConfig.Yaml
