import LayeredConfig.Proofs.Yaml.Cursor

/-!
# Plain scalars are read back

A text that may stand without quotes is read to its end, in words and the spaces between them.

## Key results

- `Cursor.plainFrom_text`: up to where the scalar ends
- `Cursor.plain_key`: in front of a colon
- `Cursor.plain_line`: at the end of a line
-/

namespace LayeredConfig.Yaml

/-! ## What may stand without quotes -/

/-- Characters that a plain scalar may hold, where `before` stands in front of them. -/
structure IsPlain (before : Option Char) (s : List Char) : Prop where
  isPrintable : ∀ c ∈ s, isPrintable c = true
  noBreak : ∀ c ∈ s, isBreak c = false
  noIndicator : anyTriple isIndicator before s = false

variable {before : Option Char} {s t w acc : List Char} {c : Char} {limit n i l k : Nat} {g : Gap}

/-- Behind its first character a plain text is plain. -/
theorem IsPlain.tail (h : IsPlain before (c :: s)) : IsPlain (some c) s where
  isPrintable d hd := h.isPrintable d (List.mem_cons_of_mem c hd)
  noBreak d hd := h.noBreak d (List.mem_cons_of_mem c hd)
  noIndicator := (Bool.or_eq_false_iff.mp h.noIndicator).2

/-- Behind any beginning a plain text is plain. -/
theorem IsPlain.of_append (h : IsPlain before (s ++ t)) (hs : s ≠ []) :
    IsPlain s.getLast? t := by
  induction s generalizing before with
  | nil => exact absurd rfl hs
  | cons c s ih =>
    cases s with
    | nil => exact h.tail
    | cons d s =>
      rw [List.getLast?_cons_cons]
      exact ih h.tail (List.cons_ne_nil d s)

/-- No character of it has a meaning of its own, in view of those around it. -/
theorem isIndicator_eq_false (h : IsPlain before (c :: s)) :
    isIndicator before c s.head? = false := (Bool.or_eq_false_iff.mp h.noIndicator).1

/-- A colon has a character behind it that is no white space. -/
theorem IsPlain.colon (h : IsPlain before (':' :: s)) : isGap s.head? = false := by
  have hindicator := isIndicator_eq_false h
  cases before with
  | none =>
    by_contra hgap
    simp [isIndicator, hgap] at hindicator
  | some b =>
    by_contra hgap
    simp [isIndicator, hgap] at hindicator

/-- Of blanks it holds spaces only. -/
theorem IsPlain.isBlank_eq_false (h : IsPlain before (c :: s)) (hc : c ≠ ' ') :
    isBlank c = false :=
  Yaml.isBlank_eq_false hc (ne_of_isPrintable (h.isPrintable c List.mem_cons_self)).2.1

/-- Unless it begins with a space, white space ends in front of it. -/
theorem IsPlain.endsGap (h : IsPlain before s) (hne : s ≠ []) (hs : s.head? ≠ some ' ')
    (t : List Char) : EndsGap (s ++ t) := by
  obtain ⟨c, s, rfl⟩ := List.exists_cons_of_ne_nil hne
  intro d hd
  obtain rfl : c = d := Option.some.inj hd
  exact ⟨h.isBlank_eq_false fun hc => hs (congrArg some hc), h.noBreak c List.mem_cons_self⟩

namespace Cursor

/-- Whether a plain scalar ends in front of a text. -/
def StopsPlain (t : List Char) : Prop :=
  ∀ n acc g i l k, plainRun false n acc g ⟨t, i, l, k⟩ = .ok (acc, g, ⟨t, i, l, k⟩)

/-- It ends in front of white space. -/
theorem stopsPlain_gap (hc : isBlank c = true ∨ isBreak c = true) (t : List Char) :
    StopsPlain (c :: t) := by
  intro n acc g i l k
  cases n with
  | zero => rfl
  | succ n =>
    have hblank : (⟨c :: t, i, l, k⟩ : Cursor).blankAhead 0 = true := by
      rcases hc with h | h <;> simp [blankAhead, h]
    rw [plainRun, if_pos hblank]

/-- What stands behind the character at the cursor. -/
theorem blankAhead_one (c : Char) (t : List Char) (i l k : Nat) :
    (⟨c :: t, i, l, k⟩ : Cursor).blankAhead 1 = isGap t.head? := by
  cases t <;> rfl

/-- A plain text stops in front of a colon with white space behind it. -/
theorem stopsPlain_colon (ht : isGap t.head? = true) : StopsPlain (':' :: t) := by
  intro n acc g i l k
  cases n with
  | zero => rfl
  | succ n =>
    simp [plainRun, badColon, endsPlain, blankAhead_one, ht]

/-- One character of a word. -/
theorem plainRun_cons (h : IsPlain before (c :: s)) (hc : c ≠ ' ') :
    plainRun false (n + 1) acc g ⟨c :: (s ++ t), i, l, k⟩ =
      plainRun false n (c :: (g.fold.reverse ++ acc)) .empty
        ⟨s ++ t, i + c.utf8Size, l, k + 1⟩ := by
  have hblank : (⟨c :: (s ++ t), i, l, k⟩ : Cursor).blankAhead 0 = false := by
    simp [blankAhead, h.isBlank_eq_false hc, h.noBreak c List.mem_cons_self,
      (ne_of_isPrintable (h.isPrintable c List.mem_cons_self)).1]
  have hends : (⟨c :: (s ++ t), i, l, k⟩ : Cursor).endsPlain false = false := by
    -- A colon belongs to the word if no white space follows.
    by_cases hcolon : c = ':'
    · subst hcolon
      have hgap := h.colon
      cases s with
      | nil => exact absurd hgap (by decide)
      | cons d s => simpa [endsPlain, blankAhead_one] using hgap
    · simp [endsPlain, hcolon]
  simp [plainRun, hblank, hends, badColon]

/-- All characters of a word. -/
theorem plainRun_word (h : IsPlain before (w ++ s)) (hw : ∀ c ∈ w, c ≠ ' ') (hne : w ≠ []) :
    plainRun false (n + w.length) acc g ⟨w ++ (s ++ t), i, l, k⟩ =
      plainRun false n (w.reverse ++ (g.fold.reverse ++ acc)) .empty
        ⟨s ++ t, i + byteCount w, l, k + w.length⟩ := by
  -- On the word: only its first character comes behind a gap, and the others have none before them.
  induction w generalizing before acc g i k with
  | nil => exact absurd rfl hne
  | cons c w ih =>
    obtain ⟨hc, hrest⟩ := List.forall_mem_cons.mp hw
    have hfirst : plainRun false (n + w.length + 1) acc g ⟨c :: (w ++ s ++ t), i, l, k⟩ =
        plainRun false (n + w.length) (c :: (g.fold.reverse ++ acc)) .empty
          ⟨w ++ s ++ t, i + c.utf8Size, l, k + 1⟩ := plainRun_cons h hc
    rw [List.append_assoc] at hfirst
    rw [List.cons_append, List.length_cons, ← Nat.add_assoc, hfirst]
    cases w with
    | nil => rfl
    | cons d w =>
      rw [ih (g := .empty) h.tail hrest (List.cons_ne_nil d w)]
      simp [byteCount, Gap.fold, Gap.empty, Nat.add_assoc, Nat.add_comm 1]

/-- What is done with the text `acc` behind a word. -/
def finishPlain (limit n : Nat) (acc : List Char) (c : Cursor) :
    Except Fault (List Char × Bool × Cursor) :=
  if !(isBlank c.head || isBreak c.head) then .ok (acc.reverse, false, c)
  else do
    let (g, c) ← c.gap limit n .empty
    if c.column < limit then .ok (acc.reverse, g.broken, c) else plainFrom false limit n acc g c

/-- A word, and what is done behind it. -/
theorem plainFrom_word (h : IsPlain before (w ++ s)) (hw : ∀ c ∈ w, c ≠ ' ') (hne : w ≠ [])
    (hbefore : isGap before = true)
    (hmarker : (⟨w ++ (s ++ t), i, l, k⟩ : Cursor).atDocumentMarker = false)
    (hstop : StopsPlain (s ++ t)) (hn : w.length ≤ n) :
    plainFrom false limit (n + 1) acc g ⟨w ++ (s ++ t), i, l, k⟩ =
      finishPlain limit n (w.reverse ++ (g.fold.reverse ++ acc))
        ⟨s ++ t, i + byteCount w, l, k + w.length⟩ := by
  have hcomment : (⟨w ++ (s ++ t), i, l, k⟩ : Cursor).head ≠ '#' := by
    obtain ⟨c, w, rfl⟩ := List.exists_cons_of_ne_nil hne
    -- A number sign behind white space would begin a comment.
    rintro (rfl : c = '#')
    have hindicator := isIndicator_eq_false h
    cases before with
    | none => exact absurd hindicator (by simp [isIndicator])
    | some b => simp [isIndicator, hbefore] at hindicator
  obtain ⟨r, rfl⟩ : ∃ r, n = r + w.length := ⟨n - w.length, by omega⟩
  have hrun : plainRun false (r + w.length) acc g ⟨w ++ (s ++ t), i, l, k⟩ =
      .ok (w.reverse ++ (g.fold.reverse ++ acc), .empty,
        ⟨s ++ t, i + byteCount w, l, k + w.length⟩) := by
    rw [plainRun_word h hw hne, hstop]
  rw [plainFrom, hmarker, hrun]
  simp [hcomment, finishPlain, bind, Except.bind, Gap.empty]

/-- A text with spaces at its end. -/
theorem getLast?_append_blanks {b : List Char} (hb : ∀ c ∈ b, c = ' ') (hne : b ≠ [])
    (w : List Char) : (w ++ b).getLast? = some ' ' := by
  rw [List.getLast?_append_of_ne_nil w hne, List.getLast?_eq_some_getLast hne,
    hb _ (List.getLast_mem hne)]

/-- White space inside a line. -/
theorem finishPlain_blanks {b : List Char} (hb : ∀ c ∈ b, c = ' ') (hne : b ≠ []) (ht : EndsGap t)
    (hn : b.length ≤ n) (hlimit : limit ≤ k + b.length) :
    finishPlain limit n acc ⟨b ++ t, i, l, k⟩ =
      plainFrom false limit n acc ⟨b, [], [], false⟩
        ⟨t, i + byteCount b, l, k + b.length⟩ := by
  have hblank : isBlank (⟨b ++ t, i, l, k⟩ : Cursor).head = true := by
    obtain ⟨c, b, rfl⟩ := List.exists_cons_of_ne_nil hne
    obtain rfl := hb c List.mem_cons_self
    rfl
  rw [finishPlain, hblank, gap_blanks hb ht hn rfl]
  simp [bind, Except.bind, Nat.not_lt.mpr hlimit, Gap.empty]

/-- The words of a plain scalar are read, up to where it ends. -/
theorem plainFrom_text (h : IsPlain before s) (hne : s ≠ []) (hbefore : isGap before = true)
    (hfirst : s.head? ≠ some ' ') (hlast : s.getLast? ≠ some ' ')
    (hmarker : (⟨s ++ t, i, l, k⟩ : Cursor).atDocumentMarker = false) (hlimit : limit ≤ k + 1)
    (hstop : StopsPlain t) (hn : s.length < n) :
    ∃ m, n ≤ m + s.length ∧ plainFrom false limit n acc g ⟨s ++ t, i, l, k⟩ =
      finishPlain limit m (s.reverse ++ (g.fold.reverse ++ acc))
        ⟨t, i + byteCount s, l, k + s.length⟩ := by
  -- On words and the spaces between them, as the reader meets them.
  induction Runs.of (· == ' ') s generalizing before acc g n i k with
  | @word w hw =>
    obtain ⟨n, rfl⟩ : ∃ m, n = m + 1 := ⟨n - 1, by omega⟩
    have hpos := List.length_pos_iff.mpr hne
    refine ⟨n, by omega, ?_⟩
    exact plainFrom_word (s := []) (by rwa [List.append_nil]) (fun c hc => by simpa using hw c hc)
      hne hbefore hmarker hstop (by omega)
  | @gap w b s hw hb hbne hs rest ih =>
    obtain ⟨n, rfl⟩ : ∃ m, n = m + 1 := ⟨n - 1, by omega⟩
    have hblank : ∀ c ∈ b, c = ' ' := fun c hc => by simpa using hb c hc
    obtain ⟨b₀, b', hb'⟩ := List.exists_cons_of_ne_nil hbne
    have hb₀ : b₀ = ' ' := hblank b₀ (hb' ▸ List.mem_cons_self)
    -- The text starts and ends with words.
    have hwne : w ≠ [] := by
      rintro rfl
      exact hfirst (by rw [hb', hb₀]; rfl)
    have hsne : s ≠ [] := by
      rintro rfl
      exact hlast (by rw [List.append_nil, getLast?_append_blanks hblank hbne])
    have hstart : s.head? ≠ some ' ' := fun hc => by simpa using hs ' ' hc
    have hlast' : s.getLast? ≠ some ' ' := by
      rwa [← List.append_assoc, List.getLast?_append_of_ne_nil _ hsne] at hlast
    have hrest : IsPlain (some ' ') s := by
      rw [← getLast?_append_blanks (w := w) hblank hbne]
      exact IsPlain.of_append (List.append_assoc w b s ▸ h)
        (List.append_ne_nil_of_left_ne_nil hwne b)
    simp only [List.length_append] at hn
    have hwpos := List.length_pos_iff.mpr hwne
    have hbpos := List.length_pos_iff.mpr hbne
    obtain ⟨m, hm, hread⟩ := ih (g := ⟨b, [], [], false⟩)
      (n := n) (i := i + byteCount w + byteCount b) (k := k + w.length + b.length) hrest hsne rfl
      hstart hlast' (atDocumentMarker_of_pos (by omega)) (by omega) (by omega)
    refine ⟨m, by simp only [List.length_append]; omega, ?_⟩
    have hword : plainFrom false limit (n + 1) acc g ⟨w ++ ((b ++ s) ++ t), i, l, k⟩ =
        finishPlain limit n (w.reverse ++ (g.fold.reverse ++ acc))
          ⟨(b ++ s) ++ t, i + byteCount w, l, k + w.length⟩ :=
      plainFrom_word h (fun c hc => by simpa using hw c hc) hwne hbefore
      (by simpa only [List.append_assoc] using hmarker)
      (by rw [hb', hb₀]; exact stopsPlain_gap (.inl rfl) _) (by omega)
    simp only [List.append_assoc] at hword ⊢
    rw [hword, finishPlain_blanks hblank hbne (hrest.endsGap hsne hstart t) (by omega) (by omega),
      hread]
    simp [byteCount_append, Gap.fold, Nat.add_assoc]

/-- No document starts or ends in front of a text that does not start with `x` three times. -/
theorem atMarker_eq_false {x d : Char} (hs : [x, x, x].isPrefixOf s = false) (hne : s ≠ [])
    (hd : d ≠ x) : (⟨s ++ d :: t, i, l, k⟩ : Cursor).atMarker x = false := by
  match s with
  | [] => exact absurd rfl hne
  | [a] => simp [atMarker, ahead, hd]
  | [a, b] => simp [atMarker, ahead, hd]
  | a :: b :: c :: s =>
    by_contra hmarker
    simp only [atMarker, ahead, List.cons_append, List.getD_cons_zero, List.getD_cons_succ,
      Bool.not_eq_false, Bool.and_eq_true, beq_iff_eq] at hmarker
    obtain ⟨⟨⟨⟨-, rfl⟩, rfl⟩, rfl⟩, -⟩ := hmarker
    simp [List.isPrefixOf] at hs

end Cursor

/-- A text that may stand without quotes in a line. -/
structure IsPlainText (s : List Char) : Prop extends IsPlain none s where
  ne_nil : s ≠ []
  first : s.head? ≠ some ' '
  last : s.getLast? ≠ some ' '
  dashes : ['-', '-', '-'].isPrefixOf s = false
  dots : ['.', '.', '.'].isPrefixOf s = false

/-- The printer looks for these traits when it chooses a style. -/
theorem IsPlainText.of_traits (hne : s ≠ []) (h : (Traits.of s).plain = true) : IsPlainText s := by
  have hdashes : "---".toList = ['-', '-', '-'] := rfl
  have hdots : "...".toList = ['.', '.', '.'] := rfl
  simp only [Traits.of, Bool.not_eq_true', Bool.or_eq_false_iff, hdashes, hdots] at h
  obtain ⟨⟨⟨⟨⟨⟨⟨hfirst, hlast⟩, -⟩, -⟩, hprint⟩, hbreak⟩, hmarker⟩, hindicator⟩ := h
  have hedge : ∀ c : Option Char, (c.any fun c => c == ' ' || isBreak c) = false →
      c ≠ some ' ' := by
    rintro c h rfl
    exact absurd h (by decide)
  exact {
    isPrintable := fun c hc => by
      have hc' := List.any_eq_false.mp hprint c hc
      simpa using hc'
    noBreak := fun c hc => by simpa using List.any_eq_false.mp hbreak c hc
    noIndicator := hindicator
    ne_nil := hne
    first := hedge _ hfirst
    last := hedge _ hlast
    dashes := hmarker.1
    dots := hmarker.2 }

/-- No document starts or ends in front of such a text. -/
theorem IsPlainText.atDocumentMarker {d : Char} (h : IsPlainText s) (hdash : d ≠ '-')
    (hdot : d ≠ '.') : (⟨s ++ d :: t, i, l, k⟩ : Cursor).atDocumentMarker = false := by
  rw [Cursor.atDocumentMarker, Cursor.atMarker_eq_false h.dashes h.ne_nil hdash,
    Cursor.atMarker_eq_false h.dots h.ne_nil hdot]
  rfl

namespace Cursor

/-- A plain scalar in front of a colon. -/
theorem plain_key (h : IsPlainText s) (ht : isGap t.head? = true) (hlimit : limit ≤ k + 1) :
    plain ⟨s ++ ':' :: t, i, l, k⟩ false limit =
      .ok (s, false, ⟨':' :: t, i + byteCount s, l, k + s.length⟩) := by
  obtain ⟨m, -, hread⟩ := plainFrom_text (g := .empty)
    (n := (s ++ ':' :: t).length + 1) h.toIsPlain h.ne_nil rfl h.first h.last
    (h.atDocumentMarker (d := ':') (i := i) (l := l) (k := k) (by decide) (by decide)) hlimit
    (stopsPlain_colon ht) (by rw [List.length_append]; omega)
  rw [plain, hread]
  simp [finishPlain, isBlank, isBreak, Gap.fold, Gap.empty]

/-- A plain scalar at the end of its line. -/
theorem plain_line (limit : Nat) {m : Nat} (h : IsPlainText s) (ht : EndsGap t)
    (hlimit : limit ≤ k + 1) (hm : m < limit) :
    plain ⟨s ++ '\n' :: (spaces m ++ t), i, l, k⟩ false limit =
      .ok (s, true, ⟨t, i + byteCount s + 1 + byteCount (spaces m), l + 1, m⟩) := by
  obtain ⟨n, hn, hread⟩ := plainFrom_text (g := .empty)
    (n := (s ++ '\n' :: (spaces m ++ t)).length + 1) h.toIsPlain h.ne_nil rfl h.first h.last
    (h.atDocumentMarker (d := '\n') (i := i) (l := l) (k := k) (by decide) (by decide)) hlimit
    (stopsPlain_gap (c := '\n') (.inr rfl) _) (by rw [List.length_append]; omega)
  have hbreak : IsPrintedBreak '\n' := ⟨rfl, by decide, by decide⟩
  -- The next line does not reach the column that it had to reach to go on with the scalar.
  have hgap := gap_lines limit (s := []) (n := n) (i := i + byteCount s) (l := l)
    (k := k + s.length) m hbreak (List.forall_mem_nil _) ht
    (by simp [spaces] at hn ⊢; omega)
  rw [plain, hread]
  simp only [finishPlain, head_cons]
  rw [List.nil_append] at hgap
  rw [hgap]
  simp [isBreak, bind, Except.bind, hm, Gap.fold, Gap.empty, byteCount]
  rfl

end Cursor

end LayeredConfig.Yaml
