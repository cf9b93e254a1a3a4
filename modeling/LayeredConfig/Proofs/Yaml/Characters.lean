import LayeredConfig.Proofs.Yaml.Collections

/-!
# The characters of a printed document

Whatever a document holds, its text is made of characters that may stand in a text.

## Key results

- `all_isPrintable_stringChunk`: the text of a string
- `all_isAllowed_print`: the text of a document
-/

namespace LayeredConfig.Yaml

variable {s : List Char} {b n : Nat}

theorem all_isPrintable_spaces (n : Nat) : (spaces n).all isPrintable = true :=
  List.all_eq_true.mpr fun c hc => by rw [List.eq_of_mem_replicate hc]; rfl

/-- A chunk on a new line is printable if the chunk is. -/
theorem all_isPrintable_newLine {c : Chunk} (h : c.text.all isPrintable = true) (n : Nat) :
    (c.newLine n).all isPrintable = true := by
  rw [Chunk.newLine, List.all_append, List.all_append, h, all_isPrintable_spaces]
  cases c.fresh <;> rfl

/-! ## Strings -/

/-- Visible characters of seven bits are printable. -/
theorem isPrintable_of_toNat {c : Char} (h : 32 ≤ c.toNat ∧ c.toNat ≤ 126) :
    isPrintable c = true := by
  simp only [isPrintable, Bool.or_eq_true, Bool.and_eq_true, decide_eq_true_eq, beq_iff_eq]
  omega

/-- Hexadecimal digits are such characters. -/
theorem all_isPrintable_hex (width n : Nat) : (hex width n).all isPrintable = true :=
  List.all_eq_true.mpr fun c hc => isPrintable_of_toNat <| by
    have hdigit := toNat_of_mem_hex hc
    omega

/-- A character that is not printable is escaped by some that are. -/
theorem all_isPrintable_escape (c : Char) : (escape c).all isPrintable = true := by
  have hdigits : ∀ x width, isPrintable x = true →
      ('\\' :: x :: hex width c.toNat).all isPrintable = true := by
    intro x width hx
    rw [List.all_cons, List.all_cons, hx, all_isPrintable_hex]
    rfl
  unfold escape
  split
  -- The character stands for itself only if it is printable.
  · next h =>
    simp only [Bool.and_eq_true] at h
    simp [h.1.1.1]
  split
  · next x hx =>
    rw [List.all_cons, List.all_cons, isPrintable_of_toNat (toNat_of_escapeLetter? hx)]
    rfl
  · dsimp only
    split_ifs <;> exact hdigits _ _ rfl

/-- Between single quotes stands the text itself, with some quotes doubled and some lines indented.
-/
theorem all_isPrintable_singleQuotedFrom (broken : Bool) (h : s.all isPrintable = true) :
    (singleQuotedFrom n broken s).all isPrintable = true := by
  -- Whether a line was just broken decides about an indentation, which is printable anyway.
  induction s generalizing broken with
  | nil => cases broken <;> simp [singleQuotedFrom, all_isPrintable_spaces]
  | cons c s ih =>
    rw [List.all_cons, Bool.and_eq_true] at h
    rw [singleQuotedFrom]
    split
    · rw [List.all_cons, h.1, ih _ h.2]
      rfl
    · rw [List.all_append, List.all_append, ih _ h.2]
      have hquote : (if c = '\'' then ['\'', '\''] else [c]).all isPrintable = true := by
        split
        · rfl
        · rw [List.all_cons, h.1]
          rfl
      cases broken <;> simp [hquote, all_isPrintable_spaces]

/-- The header of a block is printable. -/
theorem all_isPrintable_literalHints (s : List Char) : (literalHints s).all isPrintable = true := by
  rw [literalHints_eq, List.all_append]
  cases startsWhite s <;> cases chomping s <;> rfl

/-- The lines of a block are printable if its text is. -/
theorem all_isPrintable_literalLines (fresh : Bool) (h : s.all isPrintable = true) :
    (literalLines n fresh s).all isPrintable = true := by
  induction s generalizing fresh with
  | nil => rfl
  | cons c s ih =>
    rw [List.all_cons, Bool.and_eq_true] at h
    rw [literalLines]
    split
    · rw [List.all_cons, h.1, ih _ h.2]
      rfl
    · rw [List.all_append, List.all_cons, h.1, ih _ h.2]
      cases fresh <;> simp [all_isPrintable_spaces]

/-- However a string is written, its text is printable. -/
theorem all_isPrintable_stringChunk (key : Bool) (n : Nat) (s : List Char) :
    (stringChunk key n s).text.all isPrintable = true := by
  -- Only between double quotes may the string hold what is not printable, and there it is escaped.
  cases h : Style.choose key s with
  | plain =>
    rw [stringChunk, h]
    exact List.all_eq_true.mpr (isPlainText_of_choose h).isPrintable
  | singleQuoted =>
    have hprint : s.all isPrintable = true := by
      have htraits := (Style.choose_eq_singleQuoted h).1
      simp only [Traits.of, Bool.not_eq_true', Bool.or_eq_false_iff] at htraits
      exact List.all_eq_true.mpr fun c hc => by simpa using List.any_eq_false.mp htraits.2 c hc
    rw [stringChunk, h]
    simp only [List.cons_append, List.all_cons, List.all_append,
      all_isPrintable_singleQuotedFrom _ hprint]
    rfl
  | doubleQuoted =>
    have hescape : (s.flatMap escape).all isPrintable = true := by
      simp [all_isPrintable_escape]
    rw [stringChunk, h]
    simp only [List.cons_append, List.all_cons, List.all_append, hescape]
    rfl
  | literal =>
    have hprint : s.all isPrintable = true := List.all_eq_true.mpr (isPrintable_of_choose h)
    rw [stringChunk, h]
    simp only [List.cons_append, List.all_cons, List.all_append, all_isPrintable_literalHints,
      all_isPrintable_literalLines _ hprint]
    rfl

/-! ## Entries -/

/-- So is a key with its mark. -/
theorem all_isPrintable_keyText (b : Nat) (k : List Char) :
    (keyText b k).all isPrintable = true := by
  rw [Chunk.keyText_eq]
  split
  · rw [List.all_append, all_isPrintable_stringChunk]
    rfl
  · rw [List.all_cons, List.all_cons, List.all_append,
      all_isPrintable_newLine (all_isPrintable_stringChunk ..)]
    rfl

/-- So is a chunk behind printable text. -/
theorem all_isPrintable_behind {c : Chunk} (hs : s.all isPrintable = true)
    (hc : c.text.all isPrintable = true) : (c.behind s).text.all isPrintable = true := by
  rw [Chunk.behind, List.all_append, hs, hc]
  rfl

/-- So is an item of a sequence. -/
theorem all_isPrintable_item {v : Json}
    (h : (valueChunk (.item b) v).text.all isPrintable = true) :
    (entryChunk (.item b) v).text.all isPrintable = true := by
  rw [entryChunk_eq]
  exact all_isPrintable_behind rfl h

/-- So is a member of a mapping. -/
theorem all_isPrintable_member {k : String} {v : Json}
    (h : (valueChunk (.member b k) v).text.all isPrintable = true) :
    (entryChunk (.member b k) v).text.all isPrintable = true := by
  rw [entryChunk_eq]
  exact all_isPrintable_behind (all_isPrintable_keyText _ _) h

/-- A collection starts behind a space or on a new line. -/
theorem all_isPrintable_start (inline : Bool) (n : Nat) :
    (if inline then [' '] else '\n' :: spaces n).all isPrintable = true := by
  cases inline with
  | true => rfl
  | false =>
    rw [if_neg Bool.false_ne_true, List.all_cons, all_isPrintable_spaces]
    rfl

/-- A leaf that is no float is printable. -/
theorem all_isPrintable_leafChunk {j : Json} (hwhole : j.hasReal = false) (n : Nat) :
    (leafChunk n j).text.all isPrintable = true := by
  cases j with
  | null => rfl
  | bool b => cases b <;> rfl
  | number m =>
    cases m with
    | integer i range => exact List.all_eq_true.mpr (isPlainText_ofInt i).isPrintable
    | real => cases hwhole
  | string s => exact all_isPrintable_stringChunk false n s.toList
  | array | object => rfl

mutual

/-- So is every value without floats. -/
theorem all_isPrintable_valueChunk (p : Place) : ∀ {j : Json}, j.hasReal = false →
    (valueChunk p j).text.all isPrintable = true
  | .array (item :: rest), hwhole => by
    rw [Json.hasReal, Json.itemsHaveReal, Bool.or_eq_false_iff] at hwhole
    have hitem := all_isPrintable_item (all_isPrintable_valueChunk (.item p.items) hwhole.1)
    exact all_isPrintable_behind (all_isPrintable_start _ _)
      (all_isPrintable_itemsChunk _ hwhole.2 hitem)
  | .object (.cons k v _ rest), hwhole => by
    rw [Json.hasReal, Json.membersHaveReal, Bool.or_eq_false_iff] at hwhole
    have hmember :=
      all_isPrintable_member (all_isPrintable_valueChunk (.member p.members k) hwhole.1)
    exact all_isPrintable_behind (all_isPrintable_start _ _)
      (all_isPrintable_membersChunk _ hwhole.2 hmember)
  | .null, hwhole | .bool _, hwhole | .number _, hwhole | .string _, hwhole | .array [], hwhole
  | .object .nil, hwhole => all_isPrintable_behind rfl (all_isPrintable_leafChunk hwhole _)

/-- So are the items that follow. -/
theorem all_isPrintable_itemsChunk (b : Nat) : ∀ {items : List Json} {c : Chunk},
    Json.itemsHaveReal items = false → c.text.all isPrintable = true →
    (itemsChunk b c items).text.all isPrintable = true
  | [], _, _, hc => hc
  | item :: rest, c, hwhole, hc => by
    rw [Json.itemsHaveReal, Bool.or_eq_false_iff] at hwhole
    have hitem := all_isPrintable_item (all_isPrintable_valueChunk (.item b) hwhole.1)
    rw [Chunk.itemsChunk_cons]
    exact all_isPrintable_behind (all_isPrintable_newLine hc b)
      (all_isPrintable_itemsChunk b hwhole.2 hitem)

/-- So are the members that follow. -/
theorem all_isPrintable_membersChunk (b : Nat) : ∀ {lo : Option String}
    {members : Entries String Json lo} {c : Chunk}, Json.membersHaveReal members = false →
    c.text.all isPrintable = true → (membersChunk b c members).text.all isPrintable = true
  | _, .nil, _, _, hc => hc
  | _, .cons k v _ rest, c, hwhole, hc => by
    rw [Json.membersHaveReal, Bool.or_eq_false_iff] at hwhole
    have hmember := all_isPrintable_member (all_isPrintable_valueChunk (.member b k) hwhole.1)
    rw [Chunk.membersChunk_cons]
    exact all_isPrintable_behind (all_isPrintable_newLine hc b)
      (all_isPrintable_membersChunk b hwhole.2 hmember)

end

/-- The text of an object is made of characters that may stand in a text. -/
theorem all_isAllowed_print {members : SortedMap String Json}
    (hwhole : Json.membersHaveReal members = false) :
    (print (.object members)).toList.all isAllowed = true := by
  have hprint : ((documentChunk (.object members)).newLine 0).all isPrintable = true := by
    refine all_isPrintable_newLine ?_ 0
    cases members with
    | nil => rfl
    | cons k v above rest =>
      rw [Json.membersHaveReal, Bool.or_eq_false_iff] at hwhole
      exact all_isPrintable_membersChunk 0 hwhole.2
        (all_isPrintable_member (all_isPrintable_valueChunk (.member 0 k) hwhole.1))
  rw [print, String.toList_ofList]
  exact List.all_eq_true.mpr fun c hc => isAllowed_of_isPrintable (List.all_eq_true.mp hprint c hc)

end LayeredConfig.Yaml
