import LayeredConfig.Proofs.Yaml.Cursor

/-!
# Literal blocks are read back

The lines of a block stand at one column, empty lines are not indented, and the header says which
breaks at the end belong to the text.

## Key results

- `Cursor.blockLines_text`: the lines of a block
- `Cursor.block_literal`: a block with its header
-/

namespace LayeredConfig.Yaml

variable {s t w g body : List Char} {indent parent m n i l k widest : Nat} {st : Cursor.BlockState}
  {breaks : List Char}

/-! ## Lines -/

/-- Breaks are written as they are, and the line behind them is a new one. -/
theorem literalLines_breaks (hg : ∀ c ∈ g, isBreak c = true) (hne : g ≠ []) (fresh : Bool) :
    literalLines indent fresh (g ++ s) = g ++ literalLines indent true s := by
  induction g generalizing fresh with
  | nil => exact absurd rfl hne
  | cons c g ih =>
    obtain ⟨hc, hrest⟩ := List.forall_mem_cons.mp hg
    have htail : literalLines indent true (g ++ s) = g ++ literalLines indent true s := by
      cases g with
      | nil => rfl
      | cons d g => exact ih hrest (List.cons_ne_nil d g) true
    simp [literalLines, hc, htail]

/-- The rest of a line is written as it is. -/
theorem literalLines_word (hw : ∀ c ∈ w, isBreak c = false) :
    literalLines indent false (w ++ s) = w ++ literalLines indent false s := by
  induction w with
  | nil => rfl
  | cons c w ih =>
    obtain ⟨hc, hrest⟩ := List.forall_mem_cons.mp hw
    simp [literalLines, hc, ih hrest]

/-- A line is indented if it is not empty. -/
theorem literalLines_fresh (hs : ∀ c, s.head? = some c → isBreak c = false) (hne : s ≠ []) :
    literalLines indent true s = spaces indent ++ literalLines indent false s := by
  obtain ⟨c, s, rfl⟩ := List.exists_cons_of_ne_nil hne
  simp [literalLines, hs c rfl]

/-- So a line begins with its first character. -/
theorem head?_literalLines (hs : ∀ c, s.head? = some c → isBreak c = false) (hne : s ≠ []) :
    (literalLines indent false s ++ t).head? = s.head? := by
  obtain ⟨c, s, rfl⟩ := List.exists_cons_of_ne_nil hne
  simp [literalLines, hs c rfl]

/-- Empty lines and the first line that is not empty. -/
theorem literalLines_first (hg : ∀ c ∈ g, isBreak c = true)
    (hs : ∀ c, s.head? = some c → isBreak c = false) (hne : s ≠ []) :
    literalLines indent true (g ++ s) = g ++ (spaces indent ++ literalLines indent false s) := by
  rw [← literalLines_fresh hs hne]
  cases g with
  | nil => rfl
  | cons c g => exact literalLines_breaks hg (List.cons_ne_nil c g) true

namespace Cursor

/-- Empty lines. -/
theorem emptyLines_breaks (hg : ∀ c ∈ g, IsPrintedBreak c) :
    emptyLines (some indent) (n + g.length) widest breaks ⟨g ++ t, i, l, 0⟩ =
      emptyLines (some indent) n widest (breaks ++ g) ⟨t, i + byteCount g, l + g.length, 0⟩ := by
  -- On the breaks: behind each of them the cursor is at the start of a line again.
  induction g generalizing breaks i l with
  | nil => simp [byteCount]
  | cons c g ih =>
    obtain ⟨⟨hbreak, hreturn, hnext⟩, hrest⟩ := List.forall_mem_cons.mp hg
    have hspace : (c == ' ') = false := by
      rw [beq_eq_false_iff_ne]
      rintro rfl
      exact absurd hbreak (by decide)
    have htab : c ≠ '\t' := by
      rintro rfl
      exact absurd hbreak (by decide)
    have hskip : (⟨c :: (g ++ t), i, l, 0⟩ : Cursor).skip 0 = ⟨c :: (g ++ t), i, l, 0⟩ := rfl
    have hstep : emptyLines (some indent) (n + g.length + 1) widest breaks
        ⟨c :: (g ++ t), i, l, 0⟩ = emptyLines (some indent) (n + g.length) widest (breaks ++ [c])
          ⟨g ++ t, i + c.utf8Size, l + 1, 0⟩ := by
      simp [emptyLines, hspace, hskip, htab, hbreak, readLine_cons hbreak hreturn hnext]
    rw [List.cons_append, List.length_cons, ← Nat.add_assoc, hstep, ih hrest, byteCount]
    simp [Nat.add_assoc, Nat.add_comm 1]

/-- The indentation of a line that is not empty. -/
theorem emptyLines_indentation {explicit : Option Nat}
    (hskip : ∀ run, run = ((spaces m ++ t).takeWhile (· == ' ')).length →
      (match explicit with
        | some j => min run j
        | none => run) = m)
    (ht : ∀ c, t.head? = some c → c ≠ '\t' ∧ isBreak c = false) :
    emptyLines explicit (n + 1) widest breaks ⟨spaces m ++ t, i, l, 0⟩ =
      .ok (max widest m, breaks, ⟨t, i + byteCount (spaces m), l, m⟩) := by
  have hmove : (⟨spaces m ++ t, i, l, 0⟩ : Cursor).skip m =
      ⟨t, i + byteCount (spaces m), l, m⟩ := by
    have h := skip_append (spaces m) t i l 0
    rwa [spaces, List.length_replicate, Nat.zero_add] at h
  -- At the end of the text the cursor shows a character that is none of these.
  have hhead : (⟨t, i + byteCount (spaces m), l, m⟩ : Cursor).head ≠ '\t' ∧
      isBreak (⟨t, i + byteCount (spaces m), l, m⟩ : Cursor).head = false := by
    cases t with
    | nil => exact ⟨(by decide : '\x00' ≠ '\t'), rfl⟩
    | cons c t => exact ht c rfl
  have hrun := hskip _ rfl
  cases explicit with
  | none =>
    simp only at hrun
    simp [emptyLines, hrun, hmove, hhead]
  | some j =>
    simp only at hrun
    simp [emptyLines, hrun, hmove, hhead]

/-- Empty lines and the indentation of the next line. -/
theorem emptyLines_line (hg : ∀ c ∈ g, IsPrintedBreak c)
    (hskip : min ((spaces m ++ t).takeWhile (· == ' ')).length indent = m)
    (ht : ∀ c, t.head? = some c → c ≠ '\t' ∧ isBreak c = false) (hn : g.length < n) :
    emptyLines (some indent) n 0 [] ⟨g ++ (spaces m ++ t), i, l, 0⟩ =
      .ok (m, g, ⟨t, i + byteCount g + byteCount (spaces m), l + g.length, m⟩) := by
  obtain ⟨r, rfl⟩ : ∃ r, n = r + 1 + g.length := ⟨n - g.length - 1, by omega⟩
  rw [emptyLines_breaks hg, emptyLines_indentation (fun run hrun => hrun ▸ hskip) ht, Nat.zero_max]
  rfl

/-- In a literal block every break is kept. -/
theorem join_literal (st : BlockState) (blank : Bool) :
    st.join true blank = st.more.reverse ++ st.first.reverse ++ st.text := by
  simp [BlockState.join]

/-- One line of a block, with the empty lines behind it. -/
theorem blockLines_line {c : Char} (hw : ∀ c ∈ w, isBreak c = false) (hc : IsPrintedBreak c)
    (hg : ∀ c ∈ g, IsPrintedBreak c)
    (hskip : min ((spaces m ++ t).takeWhile (· == ' ')).length indent = m)
    (ht : ∀ c, t.head? = some c → c ≠ '\t' ∧ isBreak c = false) (hn : g.length < n) :
    ∃ blank i', blockLines true indent (n + 1) st
        ⟨w ++ (c :: (g ++ (spaces m ++ t))), i, l, indent⟩ =
      blockLines true indent n
        ⟨w.reverse ++ (st.more.reverse ++ st.first.reverse ++ st.text), [c], g, blank⟩
        ⟨t, i', l + 1 + g.length, m⟩ := by
  have hend : (⟨w ++ (c :: (g ++ (spaces m ++ t))), i, l, indent⟩ : Cursor).atEnd = false := by
    simp [atEnd]
  -- The line ends at its break.
  have hword : (w ++ (c :: (g ++ (spaces m ++ t)))).takeWhile (fun x => !isBreak x) = w := by
    rw [List.takeWhile_append_of_pos (fun x hx => by simp [hw x hx]),
      List.takeWhile_cons_of_neg (by simp [hc.1]), List.append_nil]
  refine ⟨isBlank (⟨w ++ (c :: (g ++ (spaces m ++ t))), i, l, indent⟩ : Cursor).head,
    i + byteCount w + c.utf8Size + byteCount g + byteCount (spaces m), ?_⟩
  have hempty := emptyLines_line (n := n) (i := i + byteCount w + c.utf8Size) (l := l + 1) hg hskip
    ht hn
  rw [blockLines]
  simp only [hend, hword, skip_append, readLine_cons hc.1 hc.2.1 hc.2.2, hempty, join_literal, bind,
    Except.bind, Bool.not_false, decide_true, Bool.and_self, if_true]

/-- The block ends in front of a line that is not indented. -/
theorem blockLines_end (hm : m < indent) :
    blockLines true indent n st ⟨t, i, l, m⟩ = .ok (st, ⟨t, i, l, m⟩) := by
  cases n with
  | zero => rfl
  | succ n =>
    have hne : ¬ m = indent := by omega
    simp [blockLines, hne]

end Cursor

/-- The indentation of a line whose text does not begin with a space. -/
theorem length_takeWhile_spaces (m : Nat) (ht : EndsGap t) :
    ((spaces m ++ t).takeWhile (· == ' ')).length = m := by
  have hstop : t.takeWhile (· == ' ') = [] := by
    cases t with
    | nil => rfl
    | cons c t =>
      refine List.takeWhile_cons_of_neg fun hc => ?_
      obtain rfl := beq_iff_eq.mp hc
      exact absurd (ht ' ' rfl).1 (by decide)
  rw [List.takeWhile_append_of_pos fun c hc => by rw [List.eq_of_mem_replicate hc]; rfl, hstop,
    List.append_nil, spaces, List.length_replicate]

/-- Where white space ends there is neither a tab nor a break. -/
theorem EndsGap.ne_tab (ht : EndsGap t) : ∀ c, t.head? = some c → c ≠ '\t' ∧ isBreak c = false := by
  intro c hc
  refine ⟨?_, (ht c hc).2⟩
  rintro rfl
  exact absurd (ht '\t' hc).1 (by decide)

/-- Where breaks stand at the end of a text, its last character is one. -/
theorem getLast?_any_isBreak (hg : ∀ c ∈ g, isBreak c = true) (hne : g ≠ []) (w : List Char) :
    (w ++ g).getLast?.any isBreak = true := by
  rw [List.getLast?_append_of_ne_nil w hne, List.getLast?_eq_some_getLast hne, Option.any_some]
  exact hg _ (List.getLast_mem hne)

/-- The indentation of a line, however its text starts. -/
theorem min_length_takeWhile_spaces (indent : Nat) (s : List Char) :
    min ((spaces indent ++ s).takeWhile (· == ' ')).length indent = indent := by
  rw [List.takeWhile_append_of_pos fun c hc => by rw [List.eq_of_mem_replicate hc]; rfl,
    List.length_append, spaces, List.length_replicate]
  omega

/-- What follows a block: the end of its last line, unless the text has one, and the indentation of
the next entry. -/
def blockTail (s : List Char) (m : Nat) (t : List Char) : List Char :=
  (if s.getLast?.any isBreak then [] else ['\n']) ++ (spaces m ++ t)

/-- Behind a text that does not end its line, the line is ended. -/
theorem blockTail_word (hw : ∀ c ∈ w, isBreak c = false) (hne : w ≠ []) :
    blockTail w m t = '\n' :: (spaces m ++ t) := by
  have hlast : w.getLast?.any isBreak = false := by
    rw [List.getLast?_eq_some_getLast hne]
    exact hw _ (List.getLast_mem hne)
  rw [blockTail, hlast]
  rfl

/-- Behind a text that ends its line nothing is added. -/
theorem blockTail_breaks (hg : ∀ c ∈ g, isBreak c = true) (hne : g ≠ []) (w : List Char) :
    blockTail (w ++ g) m t = spaces m ++ t := by
  rw [blockTail, getLast?_any_isBreak hg hne w]
  rfl

/-- What stands before the end does not change what follows. -/
theorem blockTail_append (hne : s ≠ []) (w : List Char) :
    blockTail (w ++ s) m t = blockTail s m t := by
  rw [blockTail, List.getLast?_append_of_ne_nil w hne, blockTail]

/-- A text without its breaks at the end, and these breaks. -/
structure Ends (s body g : List Char) : Prop where
  eq_append : s = body ++ g
  breaks : ∀ c ∈ g, isBreak c = true
  last : ∀ c, body.getLast? = some c → isBreak c = false

namespace Cursor

/-- The state of a block holds the text `s` behind `before`, and apart from it the breaks at the
end. -/
def Holds (st : BlockState) (before s : List Char) : Prop :=
  ∃ body g, Ends s body g ∧ body ≠ [] ∧ st.text = body.reverse ++ before ∧
    (g ≠ [] → st.first ++ st.more = g ∧ st.first.length = 1)

/-- A line that has no break behind it is held as its text. -/
theorem Holds.word {before first more : List Char} {blank : Bool}
    (hw : ∀ c ∈ w, isBreak c = false) (hne : w ≠ []) :
    Holds ⟨w.reverse ++ before, first, more, blank⟩ before w :=
  ⟨w, [], ⟨(List.append_nil w).symm, List.forall_mem_nil _,
    fun c hc => hw c (List.mem_of_getLast? hc)⟩, hne, rfl, fun h => absurd rfl h⟩

/-- A line is held with the breaks behind it. -/
theorem Holds.line {before : List Char} {c : Char} {blank : Bool}
    (hw : ∀ c ∈ w, isBreak c = false) (hne : w ≠ []) (hg : ∀ d ∈ c :: g, isBreak d = true) :
    Holds ⟨w.reverse ++ before, [c], g, blank⟩ before (w ++ c :: g) :=
  ⟨w, c :: g, ⟨rfl, hg, fun c hc => hw c (List.mem_of_getLast? hc)⟩, hne, rfl, fun _ => ⟨rfl, rfl⟩⟩

/-- What stands before a text may count as part of it. -/
theorem Holds.behind {before : List Char} (h : Holds st (s.reverse ++ before) t) :
    Holds st before (s ++ t) := by
  obtain ⟨body, g, hends, hbody, htext, hbreaks⟩ := h
  refine ⟨s ++ body, g, ⟨?_, hends.breaks, fun c hc => ?_⟩, ?_, ?_, hbreaks⟩
  · rw [hends.eq_append, List.append_assoc]
  · rw [List.getLast?_append_of_ne_nil _ hbody] at hc
    exact hends.last c hc
  · exact List.append_ne_nil_of_right_ne_nil s hbody
  · rw [htext, List.reverse_append, List.append_assoc]

/-- A text in a block has no tab at its start. -/
theorem startsLine (hs : ∀ c, s.head? = some c → isBreak c = false)
    (hprint : ∀ c ∈ s, isPrintable c = true) :
    ∀ c, s.head? = some c → c ≠ '\t' ∧ isBreak c = false := fun c hc =>
  ⟨(ne_of_isPrintable (hprint c (List.mem_of_head? hc))).2.1, hs c hc⟩

/-- The lines of a block are read back. -/
theorem blockLines_text (st : BlockState) (hs : ∀ c, s.head? = some c → isBreak c = false)
    (hne : s ≠ []) (hprint : ∀ c ∈ s, isPrintable c = true) (ht : EndsGap t) (hm : m < indent)
    (hn : (literalLines indent false s ++ blockTail s m t).length < n) :
    ∃ st' i' l', Holds st' (st.more.reverse ++ st.first.reverse ++ st.text) s ∧ l < l' ∧
      blockLines true indent n st ⟨literalLines indent false s ++ blockTail s m t, i, l, indent⟩ =
        .ok (st', ⟨t, i', l', m⟩) := by
  have hskip : min ((spaces m ++ t).takeWhile (· == ' ')).length indent = m := by
    rw [length_takeWhile_spaces m ht]
    omega
  -- On lines and the breaks between them, as the reader meets them.
  induction Runs.of isBreak s generalizing n st i l with
  | @word w hw =>
    obtain ⟨n, rfl⟩ : ∃ m, n = m + 1 := ⟨n - 1, by omega⟩
    have hlines : literalLines indent false w = w := by
      simpa [literalLines] using literalLines_word (s := []) hw
    rw [hlines, blockTail_word hw hne] at hn ⊢
    rw [List.length_append, List.length_cons] at hn
    obtain ⟨blank, i', hread⟩ := blockLines_line (i := i) (l := l) (c := '\n') (g := []) hw
      ⟨rfl, by decide, by decide⟩ (List.forall_mem_nil _) hskip ht.ne_tab
      (show ([] : List Char).length < n by rw [List.length_nil]; omega)
    exact ⟨_, i', _, .word hw hne, Nat.lt_succ_self _, hread.trans (blockLines_end hm)⟩
  | @gap w g s hw hg hgne hs' rest ih =>
    obtain ⟨n, rfl⟩ : ∃ m, n = m + 1 := ⟨n - 1, by omega⟩
    -- The text starts with a line that is not empty.
    have hwne : w ≠ [] := by
      rintro rfl
      obtain ⟨c, g, rfl⟩ := List.exists_cons_of_ne_nil hgne
      have hfirst := hs c rfl
      rw [hg c List.mem_cons_self] at hfirst
      cases hfirst
    obtain ⟨-, hprint⟩ := List.forall_mem_append.mp hprint
    obtain ⟨hprintg, hprints⟩ := List.forall_mem_append.mp hprint
    have hbreaks := isPrintedBreak_of_isBreak hg hprintg
    rw [literalLines_word hw, literalLines_breaks hg hgne] at hn ⊢
    obtain ⟨c, g, rfl⟩ := List.exists_cons_of_ne_nil hgne
    obtain ⟨hc, hbreaks'⟩ := List.forall_mem_cons.mp hbreaks
    -- The breaks end the text, or another line follows.
    by_cases hsne : s = []
    · subst hsne
      rw [literalLines, List.append_nil, blockTail_breaks hg hgne, List.append_assoc w] at hn ⊢
      rw [List.length_append, List.length_append, List.length_cons] at hn
      obtain ⟨blank, i', hread⟩ := blockLines_line (i := i) (l := l) hw hc hbreaks' hskip
        ht.ne_tab (show g.length < n by omega)
      exact ⟨_, i', _, .line hw hwne hg, by omega, hread.trans (blockLines_end hm)⟩
    · have htext : w ++ (c :: g ++ literalLines indent true s) ++ blockTail (w ++ (c :: g ++ s)) m t =
          w ++ (c :: (g ++ (spaces indent ++ (literalLines indent false s ++ blockTail s m t)))) := by
        have htail : blockTail (w ++ (c :: g ++ s)) m t = blockTail s m t := by
          rw [← List.append_assoc, blockTail_append hsne]
        rw [htail, literalLines_fresh hs' hsne]
        simp only [List.append_assoc, List.cons_append]
      rw [htext] at hn ⊢
      have hlength : g.length + (literalLines indent false s ++ blockTail s m t).length < n := by
        rw [List.length_append, List.length_cons, List.length_append, List.length_append] at hn
        omega
      have hhead : (literalLines indent false s ++ blockTail s m t).head? = s.head? :=
        head?_literalLines hs' hsne
      obtain ⟨blank, i', hread⟩ := blockLines_line (n := n) (i := i) (l := l) hw hc hbreaks'
        (min_length_takeWhile_spaces indent _) (hhead ▸ startsLine hs' hprints) (by omega)
      obtain ⟨st', i'', l'', hholds, hl, hrest⟩ :=
        ih ⟨w.reverse ++ (st.more.reverse ++ st.first.reverse ++ st.text), [c], g, blank⟩ (n := n)
          (i := i') (l := l + 1 + g.length) hs' hsne hprints (by omega)
      refine ⟨st', i'', l'', .behind (.behind ?_), by omega, hread.trans hrest⟩
      simpa using hholds

end Cursor

/-! ## Headers -/

/-- How the header of a literal block marks which breaks at the end belong to the text. -/
def Cursor.Chomping.mark : Cursor.Chomping → List Char
  | .strip => ['-']
  | .clip => []
  | .keep => ['+']

/-- The breaks at the end that belong to the text. -/
def Cursor.Chomping.tail (st : Cursor.BlockState) : Cursor.Chomping → List Char
  | .strip => []
  | .clip => st.first
  | .keep => st.first ++ st.more

/-- Which breaks at the end a literal block has to keep. -/
def chomping (s : List Char) : Cursor.Chomping :=
  match s.reverse with
  | [] => .strip
  | [c] => if isBreak c then .keep else .strip
  | c :: d :: _ => if !isBreak c then .strip else if isBreak d then .keep else .clip

/-- Whether the indentation of a literal block has to be told. -/
def startsWhite (s : List Char) : Bool := s.head?.any fun c => c == ' ' || isBreak c

/-- The header tells the indentation if it has to, and which breaks are kept. -/
theorem literalHints_eq (s : List Char) :
    literalHints s = (if startsWhite s then ['2'] else []) ++ (chomping s).mark := by
  unfold literalHints
  refine congrArg₂ (· ++ ·) ?width ?mark
  case width => cases s <;> rfl
  case mark =>
    unfold chomping
    rcases s.reverse with _ | ⟨c, _ | ⟨d, _⟩⟩
    · rfl
    · dsimp only
      split <;> rfl
    · dsimp only
      split
      · rfl
      · split <;> rfl

/-- The breaks at the end of a block are those of the text. -/
theorem append_tail_chomping (h : Ends s body g) (hbody : body ≠ [])
    (hst : g ≠ [] → st.first ++ st.more = g ∧ st.first.length = 1) :
    body ++ (chomping s).tail st = s := by
  obtain ⟨rfl, hbreaks, hlast⟩ := h
  obtain ⟨body, x, rfl⟩ := (List.eq_nil_or_concat body).resolve_left hbody
  have hx : isBreak x = false := hlast x (by simp)
  rcases List.eq_nil_or_concat g with rfl | ⟨g, c, rfl⟩
  · -- No break belongs to the text.
    have hch : chomping (body.concat x ++ []) = .strip := by
      unfold chomping
      split <;> simp_all
    rw [hch]
    rfl
  rcases List.eq_nil_or_concat g with rfl | ⟨g, d, rfl⟩
  · -- One break does.
    have hch : chomping (body.concat x ++ [].concat c) = .clip := by
      have hc : isBreak c = true := hbreaks c (by simp)
      simp [chomping, hx, hc]
    obtain ⟨hsum, hone⟩ := hst (by simp)
    have hfirst : st.first = [c] :=
      List.append_inj_left (by simpa using hsum) hone
    rw [hch]
    exact congrArg _ hfirst
  · have hch : chomping (body.concat x ++ (g.concat d).concat c) = .keep := by
      have hc : isBreak c = true := hbreaks c (by simp)
      have hd : isBreak d = true := hbreaks d (by simp)
      simp [chomping, hd, hc]
    rw [hch]
    exact congrArg _ (hst (by simp)).1

/-- What a block means. -/
theorem Cursor.Holds.result {before : List Char} (h : Cursor.Holds st before s) :
    st.text.reverse ++ (chomping s).tail st = before.reverse ++ s := by
  obtain ⟨body, g, hends, hbody, htext, hbreaks⟩ := h
  rw [htext, List.reverse_append, List.reverse_reverse, List.append_assoc,
    append_tail_chomping hends hbody hbreaks]

/-- Of a text of nothing but breaks all are kept. -/
theorem chomping_breaks (hg : ∀ c ∈ g, isBreak c = true) (hne : g ≠ []) : chomping g = .keep := by
  obtain ⟨g, c, rfl⟩ := (List.eq_nil_or_concat g).resolve_left hne
  have hc : isBreak c = true := hg c (by simp)
  rcases List.eq_nil_or_concat g with rfl | ⟨g, d, rfl⟩
  · simp [chomping, hc]
  · have hd : isBreak d = true := hg d (by simp)
    simp [chomping, hc, hd]

namespace Cursor

/-- The header of a literal block is read back. -/
theorem blockHeader_hints (explicit : Bool) (ch : Chomping) :
    ∃ i' k', blockHeader ⟨(if explicit then ['2'] else []) ++ ch.mark ++ '\n' :: t, i, l, k⟩ =
      .ok (ch, if explicit then some 2 else none, ⟨'\n' :: t, i', l, k'⟩) := by
  cases explicit <;> cases ch <;> exact ⟨_, _, rfl⟩

/-- What is left to do behind the header. -/
theorem block_header (explicit : Bool) (ch : Chomping)
    (hn : n = ('|' :: ((if explicit then ['2'] else []) ++ ch.mark ++ '\n' :: t)).length + 1) :
    ∃ i', block ⟨'|' :: ((if explicit then ['2'] else []) ++ ch.mark ++ '\n' :: t), i, l, k⟩ true
        (some parent) = (do
      let fixed := if explicit then some (2 + parent) else none
      let (widest, more, c) ← emptyLines fixed n 0 [] ⟨t, i', l + 1, 0⟩
      let (st, c) ← blockLines true (fixed.getD (max widest (max 1 (parent + 1)))) n
        ⟨[], [], more, false⟩ c
      return (st.text.reverse ++ ch.tail st, c)) := by
  obtain ⟨i', k', hheader⟩ :=
    blockHeader_hints (t := t) (i := i + 1) (l := l) (k := k + 1) explicit ch
  have hskip : ∀ j, (⟨'\n' :: t, i', l, j⟩ : Cursor).skip 0 = ⟨'\n' :: t, i', l, j⟩ := fun j => rfl
  have hcomment : (⟨'\n' :: t, i', l, k'⟩ : Cursor).skipComment = ⟨'\n' :: t, i', l, k'⟩ := by
    simp [skipComment, skipWhile, isBlank, hskip]
  have hline : (⟨'\n' :: t, i', l, k'⟩ : Cursor).skipLine = ⟨t, i' + 1, l + 1, 0⟩ := rfl
  have hsize : ('|' : Char).utf8Size = 1 := rfl
  refine ⟨i' + 1, ?_⟩
  subst hn
  rw [block]
  simp only [skip_one, hsize, hheader, hcomment, hline, bind, Except.bind]
  cases explicit <;> cases ch <;> rfl

/-- Empty lines in front of the first line with content, whose indentation is told in the header
unless the line shows it. -/
theorem emptyLines_first (indent : Nat) (hg : ∀ c ∈ g, IsPrintedBreak c)
    (ht : ∀ c, t.head? = some c → c ≠ '\t' ∧ isBreak c = false) (hs : s.head? = t.head?)
    (hn : g.length < n) :
    ∃ i', emptyLines (if startsWhite (g ++ s) then some indent else none) n 0 []
        ⟨g ++ (spaces indent ++ t), i, l, 0⟩ = .ok (indent, g, ⟨t, i', l + g.length, indent⟩) := by
  cases hwhite : startsWhite (g ++ s) with
  | true => exact ⟨_, emptyLines_line hg (min_length_takeWhile_spaces indent t) ht hn⟩
  -- The first line shows its indentation, since no empty line and no space stand before its text.
  | false =>
    cases g with
    | cons d g =>
      have hd := (hg d List.mem_cons_self).1
      simp [startsWhite, hd] at hwhite
    | nil =>
      have hends : EndsGap t := by
        intro c hc
        obtain ⟨htab, hbreak⟩ := ht c hc
        have hspace : c ≠ ' ' := by
          rintro rfl
          rw [List.nil_append, startsWhite, hs, hc] at hwhite
          cases hwhite
        exact ⟨isBlank_eq_false hspace htab, hbreak⟩
      obtain ⟨n, rfl⟩ : ∃ m, n = m + 1 := ⟨n - 1, by rw [List.length_nil] at hn; omega⟩
      refine ⟨i + byteCount (spaces indent),
        (emptyLines_indentation (fun run hrun => ?_) ht).trans ?_⟩
      · exact hrun.trans (length_takeWhile_spaces indent hends)
      · rw [Nat.zero_max]
        rfl

/-- A block of empty lines. -/
theorem block_breaks (hg : ∀ c ∈ g, IsPrintedBreak c) (hne : g ≠ []) (ht : EndsGap t)
    (hm : m ≤ parent) :
    ∃ i' l', l < l' ∧ block ⟨'|' :: (literalHints g ++
        '\n' :: (literalLines (parent + 2) true g ++ blockTail g m t)), i, l, k⟩ true (some parent) =
      .ok (g, ⟨t, i', l', m⟩) := by
  have hbreaks : ∀ c ∈ g, isBreak c = true := fun c hc => (hg c hc).1
  have htext : literalLines (parent + 2) true g ++ blockTail g m t = g ++ (spaces m ++ t) := by
    have hlines : literalLines (parent + 2) true (g ++ []) =
        g ++ literalLines (parent + 2) true [] := literalLines_breaks hbreaks hne true
    have htail : blockTail ([] ++ g) m t = spaces m ++ t := blockTail_breaks hbreaks hne []
    rw [List.append_nil, literalLines, List.append_nil] at hlines
    rw [hlines, ← htail]
    rfl
  have hwhite : startsWhite g = true := by
    obtain ⟨c, g, rfl⟩ := List.exists_cons_of_ne_nil hne
    simp [startsWhite, hbreaks c List.mem_cons_self]
  -- The indentation of the next token is less than that of the block, so all of it is skipped.
  have hskip : min ((spaces m ++ t).takeWhile (· == ' ')).length (2 + parent) = m := by
    rw [length_takeWhile_spaces m ht]
    omega
  obtain ⟨i', hread⟩ :=
    block_header (t := g ++ (spaces m ++ t)) (i := i) (l := l) (k := k) true .keep rfl
  refine ⟨i' + byteCount g + byteCount (spaces m), l + 1 + g.length, by omega, ?_⟩
  rw [htext, literalHints_eq, hwhite, chomping_breaks hbreaks hne]
  refine hread.trans ?_
  dsimp only
  rw [if_pos rfl, emptyLines_line hg hskip ht.ne_tab (by simp; omega)]
  simp only [bind, Except.bind, Option.getD_some, blockLines_end (show m < 2 + parent by omega)]
  rfl

/-- A literal block is read back. -/
theorem block_literal (hne : s ≠ []) (hprint : ∀ c ∈ s, isPrintable c = true) (ht : EndsGap t)
    (hm : m ≤ parent) :
    ∃ i' l', l < l' ∧ block ⟨'|' :: (literalHints s ++
        '\n' :: (literalLines (parent + 2) true s ++ blockTail s m t)), i, l, k⟩ true (some parent) =
      .ok (s, ⟨t, i', l', m⟩) := by
  obtain ⟨g, r, rfl, hg, hr⟩ : ∃ g r, s = g ++ r ∧ (∀ c ∈ g, isBreak c = true) ∧
      ∀ c, r.head? = some c → isBreak c = false :=
    ⟨s.takeWhile isBreak, s.dropWhile isBreak, List.takeWhile_append_dropWhile.symm,
      fun c hc => List.mem_takeWhile_imp hc, forall_head?_dropWhile isBreak s⟩
  obtain ⟨hprintg, hprintr⟩ := List.forall_mem_append.mp hprint
  have hbreaks := isPrintedBreak_of_isBreak hg hprintg
  -- A text of nothing but breaks has no line that shows the indentation.
  by_cases hrne : r = []
  · subst hrne
    rw [List.append_nil] at hne ⊢
    exact block_breaks hbreaks hne ht hm
  · let text := literalLines (2 + parent) false r ++ blockTail r m t
    have htext : literalLines (parent + 2) true (g ++ r) ++ blockTail (g ++ r) m t =
        g ++ (spaces (2 + parent) ++ text) := by
      rw [Nat.add_comm, blockTail_append hrne, literalLines_first hg hr hrne, List.append_assoc,
        List.append_assoc]
    obtain ⟨n, hn⟩ : ∃ n, n = ('|' :: ((if startsWhite (g ++ r) then ['2'] else []) ++
        (chomping (g ++ r)).mark ++ '\n' :: (g ++ (spaces (2 + parent) ++ text)))).length + 1 :=
      ⟨_, rfl⟩
    obtain ⟨i', hread⟩ := block_header (i := i) (l := l) (k := k)
      (startsWhite (g ++ r)) (chomping (g ++ r)) hn
    have hlength : g.length < n ∧ text.length < n := by
      simp only [hn, List.length_append, List.length_cons]
      omega
    -- The first line with content is found, and read with all that follow.
    have hhead : text.head? = r.head? := head?_literalLines hr hrne
    obtain ⟨i'', hempty⟩ := emptyLines_first (2 + parent) (s := r) (t := text) (i := i')
      (l := l + 1) hbreaks (hhead ▸ startsLine hr hprintr) hhead.symm hlength.1
    obtain ⟨st, j, l', hholds, hl, hlines⟩ :=
      blockLines_text ⟨[], [], g, false⟩ (n := n) (i := i'') (l := l + 1 + g.length) hr hrne
        hprintr ht (show m < 2 + parent by omega) hlength.2
    have hindent : (if startsWhite (g ++ r) then some (2 + parent) else none).getD
        (max (2 + parent) (max 1 (parent + 1))) = 2 + parent := by
      split
      · rfl
      · exact Nat.max_eq_left (by omega)
    have hall : Holds st [] (g ++ r) := .behind (by simpa using hholds)
    have hresult : st.text.reverse ++ (chomping (g ++ r)).tail st = g ++ r := hall.result
    refine ⟨j, l', by omega, ?_⟩
    rw [htext, literalHints_eq]
    refine hread.trans ?_
    dsimp only
    rw [hempty]
    simp only [bind, Except.bind, hindent]
    rw [hlines]
    exact congrArg (fun s => Except.ok (s, _)) hresult

end Cursor

end LayeredConfig.Yaml
