import LayeredConfig.Yaml.Printer
import LayeredConfig.Yaml.Token
import Mathlib.Data.List.Basic
import Mathlib.Data.List.TakeWhile

/-!
# Cursors in front of known text

Where a cursor gets over text that is known, and how a text falls into words and the gaps between
them.

## Key results

- `Cursor.skip_append`: over a text without breaks
- `Cursor.skipWhile_append`: over the characters of a class
- `Runs.of`: every text is made of words and gaps
- `Cursor.gap_blanks`, `Cursor.gap_lines`: white space inside a scalar
-/

namespace LayeredConfig.Yaml

/-! ## Characters -/

/-- Some characters are not printable. -/
theorem ne_of_isPrintable {c : Char} (h : isPrintable c = true) :
    c ≠ '\x00' ∧ c ≠ '\t' ∧ c ≠ '\r' ∧ c ≠ '\x85' ∧ c ≠ '\ufeff' := by
  refine ⟨?_, ?_, ?_, ?_, ?_⟩ <;> (rintro rfl; exact absurd h (by decide))

/-- Printable characters may stand in a text. -/
theorem isAllowed_of_isPrintable {c : Char} (h : isPrintable c = true) : isAllowed c = true := by
  simp only [isPrintable, isAllowed, Bool.or_eq_true, Bool.and_eq_true, decide_eq_true_eq,
    beq_iff_eq] at h ⊢
  omega

/-- Only spaces and tabs are blank. -/
theorem isBlank_eq_false {c : Char} (hspace : c ≠ ' ') (htab : c ≠ '\t') : isBlank c = false := by
  simp [isBlank, hspace, htab]

/-- The bytes of a text are those of its parts. -/
theorem byteCount_append (s t : List Char) : byteCount (s ++ t) = byteCount s + byteCount t := by
  induction s with
  | nil => simp [byteCount]
  | cons c s ih => simp [byteCount, ih, Nat.add_assoc]

/-! ## Cursors -/

namespace Cursor

variable {s t : List Char} {i l k : Nat}

@[simp] theorem head_cons (c : Char) : (⟨c :: s, i, l, k⟩ : Cursor).head = c := rfl

@[simp] theorem ahead_zero (c : Char) : (⟨c :: s, i, l, k⟩ : Cursor).ahead 0 = c := rfl

@[simp] theorem ahead_one (c d : Char) : (⟨c :: d :: s, i, l, k⟩ : Cursor).ahead 1 = d := rfl

@[simp] theorem skip_one (c : Char) :
    (⟨c :: s, i, l, k⟩ : Cursor).skip 1 = ⟨s, i + c.utf8Size, l, k + 1⟩ := rfl

@[simp] theorem skip_two (c d : Char) :
    (⟨c :: d :: s, i, l, k⟩ : Cursor).skip 2 = ⟨s, i + (c.utf8Size + d.utf8Size), l, k + 2⟩ := rfl

/-- Over a text without breaks. -/
theorem skip_append (s t : List Char) (i l k : Nat) :
    (⟨s ++ t, i, l, k⟩ : Cursor).skip s.length = ⟨t, i + byteCount s, l, k + s.length⟩ := by
  simp [skip]

/-- Over the characters of a class, up to the first that is not in it. -/
theorem skipWhile_append {p : Char → Bool} (hs : ∀ c ∈ s, p c = true)
    (ht : ∀ c, t.head? = some c → p c = false) :
    (⟨s ++ t, i, l, k⟩ : Cursor).skipWhile p = ⟨t, i + byteCount s, l, k + s.length⟩ := by
  have hstop : t.takeWhile p = [] := by
    cases t with
    | nil => rfl
    | cons c t => exact List.takeWhile_cons_of_neg (by simp [ht c rfl])
  rw [skipWhile, List.takeWhile_append_of_pos hs, hstop, List.append_nil, skip_append]

/-- A break that is read as it is. -/
theorem readLine_cons {c : Char} (hbreak : isBreak c = true) (hreturn : c ≠ '\r')
    (hnext : c ≠ '\x85') :
    (⟨c :: s, i, l, k⟩ : Cursor).readLine = ([c], ⟨s, i + c.utf8Size, l + 1, 0⟩) := by
  simp only [isBreak, Bool.or_eq_true, beq_iff_eq] at hbreak
  rcases hbreak with (((rfl | rfl) | rfl) | rfl) | rfl
  · rfl
  · exact absurd rfl hreturn
  · exact absurd rfl hnext
  · rfl
  · rfl

/-- Documents neither start nor end behind the first column. -/
theorem atDocumentMarker_of_pos (hk : 0 < k) :
    (⟨s, i, l, k⟩ : Cursor).atDocumentMarker = false := by
  have hcolumn : (k == 0) = false := by simp; omega
  simp [atDocumentMarker, atMarker, hcolumn]

end Cursor

/-! ## Words and gaps -/

/-- Words, whose characters are not in a class, and gaps between them, whose characters are. -/
inductive Runs (p : Char → Bool) : List Char → Prop
  | word {w : List Char} (hw : ∀ c ∈ w, p c = false) : Runs p w
  | gap {w g s : List Char} (hw : ∀ c ∈ w, p c = false) (hg : ∀ c ∈ g, p c = true) (hne : g ≠ [])
      (hs : ∀ c, s.head? = some c → p c = false) (rest : Runs p s) : Runs p (w ++ (g ++ s))

/-- What is left behind the characters of a class does not begin with one. -/
theorem forall_head?_dropWhile (p : Char → Bool) (s : List Char) :
    ∀ c, (s.dropWhile p).head? = some c → p c = false := by
  intro c hc
  have hhead := List.head?_dropWhile_not p s
  rw [hc] at hhead
  simpa using hhead

/-- Every text is made of words and gaps. -/
theorem Runs.of (p : Char → Bool) (s : List Char) : Runs p s := by
  -- On the length: a word and the gap behind it are taken off, and the gap is not empty.
  induction h : s.length using Nat.strongRecOn generalizing s with
  | ind n ih =>
    let w := s.takeWhile (!p ·)
    let r := s.dropWhile (!p ·)
    have hw : ∀ c ∈ w, p c = false := fun c hc => by simpa using List.mem_takeWhile_imp hc
    have hs : w ++ r = s := List.takeWhile_append_dropWhile
    by_cases hr : r = []
    · rw [← hs, hr, List.append_nil]
      exact .word hw
    · -- What is left starts with a gap.
      have hg : r.takeWhile p ++ r.dropWhile p = r := List.takeWhile_append_dropWhile
      have hne : r.takeWhile p ≠ [] := by
        obtain ⟨c, r', hcons⟩ := List.exists_cons_of_ne_nil hr
        have hc : (!p c) = false := forall_head?_dropWhile (!p ·) s c (by
          show r.head? = some c
          rw [hcons]
          rfl)
        rw [hcons, List.takeWhile_cons_of_pos (by simpa using hc)]
        exact List.cons_ne_nil _ _
      have hlength : (r.dropWhile p).length < n := by
        have hcount := congrArg List.length hs
        have hcount' := congrArg List.length hg
        have hpos := List.length_pos_iff.mpr hne
        rw [List.length_append] at hcount hcount'
        omega
      rw [← hs, ← hg]
      exact .gap hw (fun c hc => List.mem_takeWhile_imp hc) hne (forall_head?_dropWhile p r)
        (ih _ hlength _ rfl)

/-! ## White space -/

/-- Whether white space inside a scalar ends in front of a text. -/
def EndsGap (s : List Char) : Prop := ∀ c, s.head? = some c → isBlank c = false ∧ isBreak c = false

/-- A break that is part of printed text. -/
def IsPrintedBreak (c : Char) : Prop := isBreak c = true ∧ c ≠ '\r' ∧ c ≠ '\x85'

/-- Of the breaks, the printable ones are printed. -/
theorem isPrintedBreak_of_isBreak {g : List Char} (hg : ∀ c ∈ g, isBreak c = true)
    (hprint : ∀ c ∈ g, isPrintable c = true) : ∀ c ∈ g, IsPrintedBreak c := fun c hc =>
  have hne := ne_of_isPrintable (hprint c hc)
  ⟨hg c hc, hne.2.2.1, hne.2.2.2.1⟩

/-- No break is blank. -/
theorem isBlank_eq_false_of_isBreak {c : Char} (h : isBreak c = true) : isBlank c = false := by
  simp only [isBreak, Bool.or_eq_true, beq_iff_eq] at h
  rcases h with (((rfl | rfl) | rfl) | rfl) | rfl <;> rfl

namespace Cursor

variable {limit n i l k : Nat} {g : Gap} {s t : List Char}

/-- White space ends in front of anything else. -/
theorem gap_end (ht : EndsGap t) : gap limit n g ⟨t, i, l, k⟩ = .ok (g, ⟨t, i, l, k⟩) := by
  cases n with
  | zero => rfl
  | succ n =>
    cases t with
    | nil => rfl
    | cons c t =>
      obtain ⟨hblank, hbreak⟩ := ht c rfl
      simp [gap, hblank, hbreak]

/-- Blanks inside a line are kept. -/
theorem gap_blanks (hs : ∀ c ∈ s, c = ' ') (ht : EndsGap t) (hn : s.length ≤ n)
    (hline : g.broken = false) :
    gap limit n g ⟨s ++ t, i, l, k⟩ =
      .ok ({ g with blanks := g.blanks ++ s }, ⟨t, i + byteCount s, l, k + s.length⟩) := by
  -- On the blanks: each is put behind those that were kept before it.
  induction s generalizing n g i k with
  | nil => simpa [byteCount] using gap_end ht
  | cons c s ih =>
    obtain ⟨rfl, hrest⟩ := List.forall_mem_cons.mp hs
    obtain ⟨n, rfl⟩ : ∃ m, n = m + 1 := ⟨n - 1, by rw [List.length_cons] at hn; omega⟩
    have hstep : gap limit (n + 1) g ⟨' ' :: (s ++ t), i, l, k⟩ =
        gap limit n { g with blanks := g.blanks ++ [' '] } ⟨s ++ t, i + 1, l, k + 1⟩ := by
      simp [gap, isBlank, hline]
      rfl
    have hcount : byteCount (' ' :: s) = 1 + byteCount s := rfl
    rw [List.cons_append, hstep,
      ih (g := { g with blanks := g.blanks ++ [' '] }) hrest (by simpa using hn) hline, hcount,
      List.length_cons]
    simp [Nat.add_assoc, Nat.add_comm 1 s.length]

/-- The indentation of a line is dropped. -/
theorem gap_indentation (m : Nat) (ht : EndsGap t) (hn : m ≤ n) (hline : g.broken = true) :
    gap limit n g ⟨spaces m ++ t, i, l, k⟩ =
      .ok (g, ⟨t, i + byteCount (spaces m), l, k + m⟩) := by
  -- On the indentation, of which nothing is kept.
  induction m generalizing n i k with
  | zero => simpa [byteCount, spaces] using gap_end ht
  | succ m ih =>
    obtain ⟨n, rfl⟩ : ∃ m, n = m + 1 := ⟨n - 1, by omega⟩
    have hstep : gap limit (n + 1) g ⟨' ' :: (spaces m ++ t), i, l, k⟩ =
        gap limit n g ⟨spaces m ++ t, i + 1, l, k + 1⟩ := by
      simp [gap, isBlank, hline]
      rfl
    have hspaces : spaces (m + 1) = ' ' :: spaces m := rfl
    have hcount : byteCount (' ' :: spaces m) = 1 + byteCount (spaces m) := rfl
    rw [hspaces, List.cons_append, hstep, ih (by omega), hcount, Nat.add_assoc, Nat.add_assoc,
      Nat.add_comm 1 m]

/-- Breaks at the start of a line are kept. -/
theorem gap_emptyLines (hs : ∀ c ∈ s, IsPrintedBreak c) (hline : g.broken = true) :
    gap limit (n + s.length) g ⟨s ++ t, i, l, 0⟩ =
      gap limit n { g with more := g.more ++ s } ⟨t, i + byteCount s, l + s.length, 0⟩ := by
  -- On the breaks: behind each of them the cursor is at the start of a line again.
  induction s generalizing g i l with
  | nil => simp [byteCount]
  | cons c s ih =>
    obtain ⟨⟨hbreak, hreturn, hnext⟩, hrest⟩ := List.forall_mem_cons.mp hs
    have hstep : gap limit (n + s.length + 1) g ⟨c :: (s ++ t), i, l, 0⟩ =
        gap limit (n + s.length) { g with more := g.more ++ [c] }
          ⟨s ++ t, i + c.utf8Size, l + 1, 0⟩ := by
      simp [gap, isBlank_eq_false_of_isBreak hbreak, hbreak, readLine_cons hbreak hreturn hnext,
        hline]
    rw [List.cons_append, List.length_cons, ← Nat.add_assoc, hstep,
      ih (g := { g with more := g.more ++ [c] }) hrest hline, byteCount]
    simp [Nat.add_assoc, Nat.add_comm 1 s.length]

/-- Breaks inside a scalar, and the indentation of the line behind them. -/
theorem gap_lines (limit : Nat) {c : Char} (m : Nat) (hc : IsPrintedBreak c)
    (hs : ∀ c ∈ s, IsPrintedBreak c) (ht : EndsGap t) (hn : s.length + m < n) :
    gap limit n .empty ⟨c :: (s ++ (spaces m ++ t)), i, l, k⟩ =
      .ok (⟨[], [c], s, true⟩,
        ⟨t, i + c.utf8Size + byteCount s + byteCount (spaces m), l + 1 + s.length, m⟩) := by
  obtain ⟨hbreak, hreturn, hnext⟩ := hc
  obtain ⟨r, rfl⟩ : ∃ r, n = r + m + s.length + 1 := ⟨n - (m + s.length + 1), by omega⟩
  -- The first break is told apart from those behind it, since it may be folded.
  have hfirst : gap limit (r + m + s.length + 1) .empty ⟨c :: (s ++ (spaces m ++ t)), i, l, k⟩ =
      gap limit (r + m + s.length) ⟨[], [c], [], true⟩
        ⟨s ++ (spaces m ++ t), i + c.utf8Size, l + 1, 0⟩ := by
    simp [gap, isBlank_eq_false_of_isBreak hbreak, hbreak, readLine_cons hbreak hreturn hnext,
      Gap.empty]
  rw [hfirst, gap_emptyLines hs rfl, gap_indentation m ht (by omega) rfl, Nat.zero_add]
  rfl

end Cursor

end LayeredConfig.Yaml
