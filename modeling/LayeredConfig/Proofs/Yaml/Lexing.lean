import LayeredConfig.Proofs.Yaml.Cursor
import LayeredConfig.Yaml.Lexer

/-!
# The lexer between tokens

The lexer gets from one state between two tokens to another.  What it does with white space and with
blocks that end depends on where the next token stands only.

## Key results

- `Lexer.Leads.trans`: one run after the other
- `Lexer.leads_newLine`, `Lexer.leads_spaces`: white space between tokens
- `Lexer.leads_blockEnd`: blocks to the right of the next token end
- `Lexer.next_between`: the next token
-/

namespace LayeredConfig.Yaml

/-! ## Runs of the lexer -/

namespace Lexer

/-- The lexer gets from one state to another, in no more steps than there are characters. -/
def Leads (lx lx' : Lexer) : Prop :=
  ∃ steps, steps + lx'.cursor.rest.length ≤ lx.cursor.rest.length ∧
    ∀ n, run (n + steps + 1) lx = run (n + 1) lx'

variable {lx lx' lx'' : Lexer}

/-- One run after the other. -/
theorem Leads.trans (h : Leads lx lx') (h' : Leads lx' lx'') : Leads lx lx'' := by
  obtain ⟨k, hlength, hrun⟩ := h
  obtain ⟨k', hlength', hrun'⟩ := h'
  refine ⟨k' + k, by omega, fun n => ?_⟩
  rw [← Nat.add_assoc, hrun, hrun']

/-- One token. -/
theorem Leads.of_next (h : lx.next = .ok (false, lx'))
    (hlength : lx'.cursor.rest.length < lx.cursor.rest.length) : Leads lx lx' :=
  ⟨1, by omega, fun n => by
    rw [run, h]
    simp only [bind, Except.bind, Bool.false_eq_true, if_false]⟩

/-- States from which the next token is the same. -/
theorem Leads.of_next_eq (h : lx.next = lx'.next)
    (hlength : lx'.cursor.rest.length ≤ lx.cursor.rest.length) : Leads lx lx' :=
  ⟨0, by omega, fun n => by
    show run (n + 1) lx = run (n + 1) lx'
    rw [run, run, h]⟩

/-- The state between two tokens when no key is pending. -/
def between (c : Cursor) (ts : List Token) (bs : List Nat) (keyAllowed : Bool) : Lexer :=
  ⟨c, ts, ts.length, bs, [none], keyAllowed⟩

/-- The white space in front of the next token. -/
def settle (lx : Lexer) : Except Fault Lexer :=
  (lx.skipSpace (lx.cursor.rest.length + 1)).dropStaleKeys

/-- The next token depends on the state behind the white space only. -/
theorem next_congr (h : lx.settle = lx'.settle) : lx.next = lx'.next := by
  rw [settle, settle] at h
  rw [next, next, h]

end Lexer

/-! ## White space between tokens -/

/-- Whether a token starts a text, if there is any text. -/
def StartsToken (t : List Char) : Prop :=
  ∀ c, t.head? = some c → c ≠ ' ' ∧ c ≠ '\t' ∧ c ≠ '#' ∧ c ≠ '\ufeff' ∧ isBreak c = false

/-- A text starts a token if it begins with a character that does. -/
theorem StartsToken.cons {c : Char}
    (h : c ≠ ' ' ∧ c ≠ '\t' ∧ c ≠ '#' ∧ c ≠ '\ufeff' ∧ isBreak c = false) (t : List Char) :
    StartsToken (c :: t) := fun _ hd => Option.some.inj hd ▸ h

/-- White space ends where a token starts. -/
theorem StartsToken.endsGap {t : List Char} (h : StartsToken t) : EndsGap t := fun c hc =>
  ⟨isBlank_eq_false (h c hc).1 (h c hc).2.1, (h c hc).2.2.2.2⟩

/-- At the end of a text the cursor shows no such character either. -/
theorem StartsToken.head {t : List Char} (h : StartsToken t) (i l k : Nat) :
    (⟨t, i, l, k⟩ : Cursor).head ≠ '#' ∧ (⟨t, i, l, k⟩ : Cursor).head ≠ '\ufeff' ∧
      isBreak (⟨t, i, l, k⟩ : Cursor).head = false := by
  cases t with
  | nil => exact ⟨(by decide : '\x00' ≠ '#'), (by decide : '\x00' ≠ '\ufeff'), rfl⟩
  | cons c t => exact (h c rfl).2.2

namespace Lexer

variable {t : List Char} {ts : List Token} {bs : List Nat} {n m i l k count : Nat}
  {keys : List (Option PossibleKey)} {a : Bool} {lx lx' : Lexer}

/-- The spaces in front of a token are skipped. -/
theorem skipSpace_spaces (m : Nat) (ht : StartsToken t) :
    skipSpace (n + 1) ⟨⟨spaces m ++ t, i, l, k⟩, ts, count, bs, keys, a⟩ =
      ⟨⟨t, i + byteCount (spaces m), l, k + m⟩, ts, count, bs, keys, a⟩ := by
  obtain ⟨hcomment, hstart, hbreak⟩ := ht.head (i + byteCount (spaces m)) l (k + m)
  have hmark : ((⟨spaces m ++ t, i, l, k⟩ : Cursor).column == 0 &&
      (⟨spaces m ++ t, i, l, k⟩ : Cursor).head == '\ufeff') = false := by
    cases m with
    | zero => simpa [spaces] using fun _ => (ht.head i l k).2.1
    | succ m => simp [spaces, List.replicate_succ]
  -- Whether tabs are skipped does not matter, since there are none.
  have hskip : ∀ tabs, (⟨spaces m ++ t, i, l, k⟩ : Cursor).skipWhile
      (fun x => x == ' ' || (tabs && x == '\t')) = ⟨t, i + byteCount (spaces m), l, k + m⟩ := by
    intro tabs
    have h := Cursor.skipWhile_append (s := spaces m) (t := t) (i := i) (l := l) (k := k)
      (p := fun x => x == ' ' || (tabs && x == '\t'))
      (fun c hc => by rw [List.eq_of_mem_replicate hc]; rfl)
      (fun c hc => by simp [(ht c hc).1, (ht c hc).2.1])
    rwa [spaces, List.length_replicate] at h
  rw [skipSpace]
  simp only [hmark, hskip, hcomment, hbreak, Bool.false_eq_true, if_false]

/-- So is the end of a line, behind which a key may start. -/
theorem skipSpace_newLine (m : Nat) (ht : StartsToken t) (hkeys : keys.length ≤ 1) (hn : 0 < n) :
    skipSpace (n + 1) ⟨⟨'\n' :: (spaces m ++ t), i, l, k⟩, ts, count, bs, keys, a⟩ =
      ⟨⟨t, i + 1 + byteCount (spaces m), l + 1, m⟩, ts, count, bs, keys, true⟩ := by
  obtain ⟨n, rfl⟩ : ∃ m, n = m + 1 := ⟨n - 1, by omega⟩
  have hskip : ∀ tabs, (⟨'\n' :: (spaces m ++ t), i, l, k⟩ : Cursor).skipWhile
      (fun x => x == ' ' || (tabs && x == '\t')) = ⟨'\n' :: (spaces m ++ t), i, l, k⟩ := by
    intro tabs
    cases tabs <;> rfl
  -- Only outside of brackets does a new line allow for a key.
  have hflow : ∀ c, (⟨c, ts, count, bs, keys, a⟩ : Lexer).inFlow = false := fun c => by
    simp [inFlow]
    omega
  have hline : (⟨'\n' :: (spaces m ++ t), i, l, k⟩ : Cursor).skipLine =
      ⟨spaces m ++ t, i + 1, l + 1, 0⟩ := rfl
  have hrest : skipSpace (n + 1) ⟨⟨spaces m ++ t, i + 1, l + 1, 0⟩, ts, count, bs, keys, true⟩ =
      ⟨⟨t, i + 1 + byteCount (spaces m), l + 1, 0 + m⟩, ts, count, bs, keys, true⟩ :=
    skipSpace_spaces m ht
  rw [Nat.zero_add] at hrest
  rw [skipSpace]
  simp [hskip, hflow, hline, isBreak, hrest]

/-- A possible key of a line before is forgotten. -/
theorem dropStaleKeys_before {c : Cursor} {key : Option PossibleKey}
    (h : ∀ x, key = some x → x.required = false ∧ x.line < c.line) :
    dropStaleKeys ⟨c, ts, count, bs, [key], a⟩ = .ok ⟨c, ts, count, bs, [none], a⟩ := by
  cases key with
  | none => rfl
  | some x =>
    obtain ⟨hrequired, hline⟩ := h x rfl
    simp [dropStaleKeys, isStale, hrequired, hline]

/-- A possible key of the same line, which is not long, is kept. -/
theorem dropStaleKeys_here {c : Cursor} {x : PossibleKey} (hline : x.line = c.line)
    (hindex : c.index ≤ x.index + 1024) :
    dropStaleKeys ⟨c, ts, count, bs, [some x], a⟩ = .ok ⟨c, ts, count, bs, [some x], a⟩ := by
  have hstale : isStale x c = false := by
    simp [isStale]
    omega
  simp [dropStaleKeys, hstale]

/-- In front of a token there is nothing to skip. -/
theorem settle_of_startsToken {key : Option PossibleKey} (ht : StartsToken t) :
    settle ⟨⟨t, i, l, k⟩, ts, count, bs, [key], a⟩ =
      dropStaleKeys ⟨⟨t, i, l, k⟩, ts, count, bs, [key], a⟩ :=
  congrArg dropStaleKeys (skipSpace_spaces 0 ht)

/-- Where no key is pending there is nothing to forget in front of a token. -/
theorem settle_between (ht : StartsToken t) :
    (between ⟨t, i, l, k⟩ ts bs a).settle = .ok (between ⟨t, i, l, k⟩ ts bs a) :=
  settle_of_startsToken ht

/-- The rest of a line in which a possible key was left. -/
theorem leads_newLine {key : Option PossibleKey} (ht : StartsToken t)
    (hkey : ∀ x, key = some x → x.required = false ∧ x.line ≤ l) :
    Leads ⟨⟨'\n' :: (spaces m ++ t), i, l, k⟩, ts, ts.length, bs, [key], a⟩
      (between ⟨t, i + 1 + byteCount (spaces m), l + 1, m⟩ ts bs true) := by
  refine Leads.of_next_eq (next_congr ?_) (by simp [between]; omega)
  rw [settle_between ht, settle, skipSpace_newLine m ht (by simp) (by simp),
    dropStaleKeys_before fun x hx => ⟨(hkey x hx).1, Nat.lt_succ_of_le (hkey x hx).2⟩]
  rfl

/-- The start of a line behind one in which a possible key was left. -/
theorem leads_line {key : Option PossibleKey} (ht : StartsToken t)
    (hkey : ∀ x, key = some x → x.required = false ∧ x.line < l) :
    Leads ⟨⟨t, i, l, k⟩, ts, ts.length, bs, [key], a⟩ (between ⟨t, i, l, k⟩ ts bs a) := by
  refine Leads.of_next_eq (next_congr ?_) (Nat.le_refl _)
  rw [settle_between ht, settle_of_startsToken ht, dropStaleKeys_before hkey]
  rfl

/-- Spaces between tokens. -/
theorem leads_spaces (m : Nat) (ht : StartsToken t) :
    Leads (between ⟨spaces m ++ t, i, l, k⟩ ts bs a)
      (between ⟨t, i + byteCount (spaces m), l, k + m⟩ ts bs a) := by
  refine Leads.of_next_eq (next_congr ?_) (by simp [between])
  rw [settle_between ht, settle, between, skipSpace_spaces m ht]
  rfl

/-- The token at the cursor, or the end of the text. -/
def finish (lx : Lexer) : Except Fault (Bool × Lexer) :=
  if lx.cursor.atEnd then do return (true, ← lx.topLevel) else do return (false, ← lx.token)

/-- Behind the white space blocks end, and then the token is read. -/
theorem next_of_settle (h : lx.settle = .ok lx') :
    lx.next = finish (lx'.closeBlocks (some lx'.cursor.column)) := by
  rw [settle] at h
  rw [next, h]
  rfl

/-- No block ends in front of a token that does not stand to the left of it. -/
theorem closeBlocks_of_le {c : Cursor} (hb : ∀ b, bs.head? = some b → b ≤ k) :
    closeBlocks ⟨c, ts, count, bs, keys, a⟩ (some k) = ⟨c, ts, count, bs, keys, a⟩ := by
  have hclosed : (bs.takeWhile fun b => (some k).all (· < b)) = [] := by
    cases bs with
    | nil => rfl
    | cons b bs => exact List.takeWhile_cons_of_neg (by simpa using hb b rfl)
  unfold closeBlocks
  split
  · rfl
  · simp only [hclosed]
    rfl

/-- The token at the cursor. -/
theorem next_between (ht : StartsToken t) (hne : t ≠ []) (hb : ∀ b, bs.head? = some b → b ≤ k) :
    (between ⟨t, i, l, k⟩ ts bs a).next =
      (do return (false, ← (between ⟨t, i, l, k⟩ ts bs a).token)) := by
  have hend : (between ⟨t, i, l, k⟩ ts bs a).cursor.atEnd = false := by
    simpa [between, Cursor.atEnd] using hne
  have hclose : (between ⟨t, i, l, k⟩ ts bs a).closeBlocks (some k) =
      between ⟨t, i, l, k⟩ ts bs a := closeBlocks_of_le hb
  refine (next_of_settle (settle_between ht)).trans ((congrArg finish hclose).trans ?_)
  rw [finish, hend]
  rfl

/-- The token at the cursor is a step, if it has any characters. -/
theorem leads_of_token (ht : StartsToken t) (hne : t ≠ []) (hb : ∀ b, bs.head? = some b → b ≤ k)
    (h : (between ⟨t, i, l, k⟩ ts bs a).token = .ok lx)
    (hlength : lx.cursor.rest.length < t.length) : Leads (between ⟨t, i, l, k⟩ ts bs a) lx := by
  refine .of_next ?_ hlength
  rw [next_between ht hne hb, h]
  rfl

/-- The blocks to the right of a column end, from the inside. -/
theorem closeBlocks_between (c : Cursor) :
    (between c ts bs a).closeBlocks (some k) =
      ⟨c, (bs.takeWhile (k < ·)).map (fun _ => .blockEnd) ++ ts,
        ts.length + (bs.takeWhile (k < ·)).length, bs.drop (bs.takeWhile (k < ·)).length, [none],
        a⟩ :=
  rfl

/-- A block ends in front of a token that stands to the left of it. -/
theorem leads_blockEnd {b : Nat} (ht : StartsToken t) (hb : k < b) :
    Leads (between ⟨t, i, l, k⟩ ts (b :: bs) a) (between ⟨t, i, l, k⟩ (.blockEnd :: ts) bs a) := by
  refine Leads.of_next_eq ?_ (Nat.le_refl _)
  have hclosed : (b :: bs).takeWhile (k < ·) = b :: bs.takeWhile (k < ·) :=
    List.takeWhile_cons_of_pos (by simpa using hb)
  -- The ends of blocks are all the same, so the first may be told before the others.
  have hend : ∀ closed : List Nat, (b :: closed).map (fun _ => Token.blockEnd) ++ ts =
      closed.map (fun _ => .blockEnd) ++ .blockEnd :: ts := by
    intro closed
    rw [List.map_const', List.map_const', List.length_cons, List.replicate_succ', List.append_assoc]
    rfl
  have hclose : (between ⟨t, i, l, k⟩ ts (b :: bs) a).closeBlocks (some k) =
      (between ⟨t, i, l, k⟩ (.blockEnd :: ts) bs a).closeBlocks (some k) := by
    rw [closeBlocks_between, closeBlocks_between, hclosed, hend, List.length_cons, List.length_cons,
      Nat.add_right_comm, Nat.add_assoc]
    rfl
  rw [next_of_settle (settle_between ht), next_of_settle (settle_between ht)]
  exact congrArg finish hclose

end Lexer

end LayeredConfig.Yaml
