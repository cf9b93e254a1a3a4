import LayeredConfig.Proofs.Yaml.Collections
import LayeredConfig.Proofs.Json.RoundTrip

/-!
# The end of a printed document

The text of a document ends with its last leaf.  Trimming takes the line end behind the leaf, and
more than that only where the leaf is a string without quotes that ends with white space of its own.

## Key results

- `endsWith_documentChunk`: the text of an object ends with its last leaf
- `trimBlanksEnd_print`: what trimming takes from the text of an object
-/

namespace LayeredConfig

namespace Yaml

variable {s w g : List Char} {n : Nat}

/-! ## The last leaf -/

mutual

/-- The scalar or empty collection at the end of a document. -/
def lastLeaf : Json → Json
  | .array (item :: rest) => lastLeafItems (lastLeaf item) rest
  | .object (.cons _ v _ rest) => lastLeafMembers (lastLeaf v) rest
  | v => v

/-- The last leaf of the items of a sequence, behind `before`. -/
def lastLeafItems (before : Json) : List Json → Json
  | [] => before
  | item :: rest => lastLeafItems (lastLeaf item) rest

/-- The last leaf of the members of a mapping, behind `before`. -/
def lastLeafMembers (before : Json) {lo : Option String} : Entries String Json lo → Json
  | .nil => before
  | .cons _ v _ rest => lastLeafMembers (lastLeaf v) rest

end

/-- Whether a chunk ends with a leaf. -/
def EndsWith (c : Chunk) (leaf : Json) : Prop :=
  leaf.hasReal = false ∧ ∃ s n, c = (leafChunk n leaf).behind s

/-- What stands before it does not change the end of a chunk. -/
theorem EndsWith.behind {c : Chunk} {leaf : Json} (h : EndsWith c leaf) (s : List Char) :
    EndsWith (c.behind s) leaf := by
  obtain ⟨hwhole, t, n, rfl⟩ := h
  exact ⟨hwhole, s ++ t, n, Chunk.behind_behind s t _⟩

/-- The lead of an entry does not change its end. -/
theorem EndsWith.entry {p : Place} {v leaf : Json} (h : EndsWith (valueChunk p v) leaf) :
    EndsWith (entryChunk p v) leaf := by
  rw [entryChunk_eq]
  exact h.behind p.lead

mutual

/-- A value ends with its last leaf, and so do items and members. -/
theorem endsWith_valueChunk (p : Place) : ∀ {j : Json}, j.hasReal = false →
    EndsWith (valueChunk p j) (lastLeaf j)
  | .array (item :: rest), hwhole => by
    rw [Json.hasReal, Json.itemsHaveReal, Bool.or_eq_false_iff] at hwhole
    have hitem := (endsWith_valueChunk (.item p.items) hwhole.1).entry
    exact (endsWith_itemsChunk _ hwhole.2 hitem).behind _
  | .object (.cons k v _ rest), hwhole => by
    rw [Json.hasReal, Json.membersHaveReal, Bool.or_eq_false_iff] at hwhole
    have hmember := (endsWith_valueChunk (.member p.members k) hwhole.1).entry
    exact (endsWith_membersChunk _ hwhole.2 hmember).behind _
  | .null, hwhole | .bool _, hwhole | .number _, hwhole | .string _, hwhole | .array [], hwhole
  | .object .nil, hwhole => ⟨hwhole, _, _, rfl⟩

theorem endsWith_itemsChunk (b : Nat) : ∀ {items : List Json} {c : Chunk} {before : Json},
    Json.itemsHaveReal items = false → EndsWith c before →
    EndsWith (itemsChunk b c items) (lastLeafItems before items)
  | [], _, _, _, h => h
  -- The item at hand takes the place of what stood before it.
  | item :: rest, c, _, hwhole, _ => by
    rw [Json.itemsHaveReal, Bool.or_eq_false_iff] at hwhole
    have hitem := (endsWith_valueChunk (.item b) hwhole.1).entry
    rw [Chunk.itemsChunk_cons]
    exact (endsWith_itemsChunk b hwhole.2 hitem).behind _

theorem endsWith_membersChunk (b : Nat) : ∀ {lo : Option String} {members : Entries String Json lo}
    {c : Chunk} {before : Json}, Json.membersHaveReal members = false → EndsWith c before →
    EndsWith (membersChunk b c members) (lastLeafMembers before members)
  | _, .nil, _, _, _, h => h
  | _, .cons k v _ rest, c, _, hwhole, _ => by
    rw [Json.membersHaveReal, Bool.or_eq_false_iff] at hwhole
    have hmember := (endsWith_valueChunk (.member b k) hwhole.1).entry
    rw [Chunk.membersChunk_cons]
    exact (endsWith_membersChunk b hwhole.2 hmember).behind _

end

/-- The text of an object ends with its last leaf. -/
theorem endsWith_documentChunk {members : SortedMap String Json}
    (hwhole : Json.membersHaveReal members = false) :
    EndsWith (documentChunk (.object members)) (lastLeaf (.object members)) := by
  cases members with
  | nil => exact ⟨rfl, [], 2, rfl⟩
  | cons k v above rest =>
    rw [Json.membersHaveReal, Bool.or_eq_false_iff] at hwhole
    exact endsWith_membersChunk 0 hwhole.2 (endsWith_valueChunk (.member 0 k) hwhole.1).entry

/-! ## What trimming takes -/

/-- Whether a text ends with a character that is not blank, or with one in front of a line feed. -/
def endsInk (s : List Char) : Bool :=
  match s.reverse with
  | [] => false
  | c :: rest => if c = '\n' then rest.head?.any (!Text.isBlank ·) else !Text.isBlank c

/-- Whether trimming takes nothing of a leaf: strings are safe in quotes, or where they end with
ink. -/
def survivesTrim : Json → Bool
  | .string s =>
    Style.choose false s.toList == .singleQuoted || Style.choose false s.toList == .doubleQuoted ||
      endsInk s.toList
  | _ => true

/-- Ink is the last character, or stands before a line feed at the end. -/
theorem exists_of_endsInk (h : endsInk s = true) :
    ∃ w c, Text.isBlank c = false ∧ (s = w ++ [c] ∨ s = w ++ [c, '\n']) := by
  rcases List.eq_nil_or_concat s with rfl | ⟨w, c, rfl⟩
  · cases h
  rw [List.concat_eq_append, endsInk, List.reverse_append] at h
  by_cases hc : c = '\n'
  · rw [hc] at h ⊢
    rcases List.eq_nil_or_concat w with rfl | ⟨w, d, rfl⟩
    · cases h
    · exact ⟨w, d, by simpa using h, .inr (by simp)⟩
  · exact ⟨w, c, by simpa [hc] using h, .inl (by simp)⟩

/-- Breaks are white space. -/
theorem isBreak_eq_false_of_isBlank {c : Char} (h : Text.isBlank c = false) :
    isBreak c = false := by
  by_contra hbreak
  simp only [isBreak, Bool.not_eq_false, Bool.or_eq_true, beq_iff_eq] at hbreak
  rcases hbreak with (((rfl | rfl) | rfl) | rfl) | rfl <;> cases h

/-- Where a literal block ends in a character of its text, so does the text behind it. -/
theorem literalLines_append {c : Char} (hc : isBreak c = false) (fresh : Bool) :
    ∃ x, literalLines n fresh (w ++ c :: g) = x ++ c :: literalLines n false g := by
  -- On the text before the character: a break is kept, and any other character may be indented.
  induction w generalizing fresh with
  | nil =>
    refine ⟨if fresh then spaces n else [], ?_⟩
    rw [List.nil_append, literalLines, if_neg (by simp [hc])]
  | cons d w ih =>
    obtain ⟨x, hx⟩ := ih (isBreak d)
    rw [List.cons_append, literalLines]
    split
    · next hd => exact ⟨d :: x, by rw [hd] at hx; rw [hx]; rfl⟩
    · next hd =>
      rw [Bool.not_eq_true] at hd
      rw [hd] at hx
      exact ⟨(if fresh then spaces n else []) ++ d :: x, by rw [hx]; simp⟩

/-- The end of the line is all that follows on an entry of the outermost collection. -/
theorem newLine_zero (s : List Char) : Chunk.newLine ⟨s, false⟩ 0 = s ++ ['\n'] := by
  simp [Chunk.newLine, spaces]

/-- A word that holds no blank ends with ink. -/
theorem newLine_word (hne : s ≠ []) (h : s.all (!Text.isBlank ·) = true) :
    ∃ w c, Text.isBlank c = false ∧ Chunk.newLine ⟨s, false⟩ 0 = w ++ [c, '\n'] := by
  obtain ⟨w, c, rfl⟩ := (List.eq_nil_or_concat s).resolve_left hne
  have hc : Text.isBlank c = false := by simpa using List.all_eq_true.mp h c (by simp)
  exact ⟨w, c, hc, by simp [newLine_zero]⟩

/-- A block that ends with ink has one line end behind it, its own or that of the chunk. -/
theorem newLine_literal {w : List Char} {c : Char} (hc : Text.isBlank c = false)
    (h : s = w ++ [c] ∨ s = w ++ [c, '\n']) :
    ∃ w, Chunk.newLine ⟨'|' :: literalHints s ++ '\n' :: literalLines n true s,
      s.getLast?.any isBreak⟩ 0 = w ++ [c, '\n'] := by
  have hbreak := isBreak_eq_false_of_isBlank hc
  rcases h with rfl | rfl
  · obtain ⟨x, hx⟩ := literalLines_append (n := n) (w := w) (g := []) hbreak true
    refine ⟨'|' :: literalHints (w ++ [c]) ++ '\n' :: x, ?_⟩
    rw [hx, literalLines]
    simp [Chunk.newLine, spaces, hbreak]
  · obtain ⟨x, hx⟩ := literalLines_append (n := n) (w := w) (g := ['\n']) hbreak true
    refine ⟨'|' :: literalHints (w ++ [c, '\n']) ++ '\n' :: x, ?_⟩
    rw [hx]
    simp [Chunk.newLine, spaces, literalLines, isBreak]

/-- A string that survives ends with ink or with a quote. -/
theorem newLine_string {t : List Char} (h : (Style.choose false t == .singleQuoted ||
      Style.choose false t == .doubleQuoted || endsInk t) = true) :
    ∃ w c, Text.isBlank c = false ∧ (stringChunk false n t).newLine 0 = w ++ [c, '\n'] := by
  -- Quotes are ink, and the other two styles show the end of the string.
  cases hstyle : Style.choose false t with
  | plain =>
    rw [hstyle] at h
    obtain ⟨w, c, hc, rfl | rfl⟩ := exists_of_endsInk h
    · exact ⟨w, c, hc, by simp [stringChunk, hstyle, newLine_zero]⟩
    · exact absurd ((isPlainText_of_choose hstyle).noBreak '\n' (by simp)) (by decide)
  | singleQuoted =>
    exact ⟨'\'' :: singleQuotedFrom n false t, '\'', rfl,
      by simp [stringChunk, hstyle, newLine_zero]⟩
  | doubleQuoted =>
    exact ⟨'"' :: t.flatMap escape, '"', rfl, by simp [stringChunk, hstyle, newLine_zero]⟩
  | literal =>
    rw [hstyle] at h
    obtain ⟨w, c, hc, hends⟩ := exists_of_endsInk h
    obtain ⟨x, hx⟩ := newLine_literal (n := n) hc hends
    exact ⟨x, c, hc, by rw [stringChunk, hstyle]; exact hx⟩

/-- No part of an integer is blank. -/
theorem isBlank_of_mem_ofInt {i : Int} {c : Char} (h : c ∈ Numeral.ofInt i) :
    Text.isBlank c = false := by
  have hdigit : ∀ d : Fin 10, Text.isBlank (Nat.digitChar d) = false := by decide
  obtain ⟨d, t, hdigits, htext⟩ := ofInt_eq i
  have hmem : c = '-' ∨ c ∈ Nat.digitChar d :: t := by
    rcases htext with htext | htext <;> rw [htext] at h
    · exact .inr h
    · exact List.mem_cons.mp h
  rcases hmem with rfl | hmem
  · rfl
  · obtain ⟨d, rfl⟩ := hdigits c hmem
    exact hdigit d

/-- A leaf that survives ends with ink in front of its line end. -/
theorem newLine_leafChunk {leaf : Json} (hwhole : leaf.hasReal = false)
    (h : survivesTrim leaf = true) (n : Nat) :
    ∃ w c, Text.isBlank c = false ∧ (leafChunk n leaf).newLine 0 = w ++ [c, '\n'] := by
  cases leaf with
  | null => exact newLine_word (List.cons_ne_nil _ _) rfl
  | bool b => cases b <;> exact newLine_word (List.cons_ne_nil _ _) rfl
  | number m =>
    cases m with
    | integer i range =>
      exact newLine_word (isPlainText_ofInt i).ne_nil
        (List.all_eq_true.mpr fun c hc => by simp [isBlank_of_mem_ofInt hc])
    | real => cases hwhole
  | string s => exact newLine_string h
  | array | object => exact newLine_word (List.cons_ne_nil _ _) rfl

/-- Trimming takes the line end from the text of an object and no more, if the last leaf
survives. -/
theorem trimBlanksEnd_print {members : SortedMap String Json}
    (hwhole : Json.membersHaveReal members = false)
    (h : survivesTrim (lastLeaf (.object members)) = true) :
    (print (.object members)).trimBlanksEnd ++ "\n" = print (.object members) := by
  obtain ⟨hleaf, s, n, hchunk⟩ := endsWith_documentChunk hwhole
  obtain ⟨w, c, hc, hend⟩ := newLine_leafChunk hleaf h n
  have htext : (documentChunk (.object members)).newLine 0 = (s ++ w ++ [c]) ++ ['\n'] := by
    rw [hchunk, Chunk.newLine_behind, hend]
    simp
  have hline : "\n" = String.ofList ['\n'] := rfl
  rw [String.trimBlanksEnd, print, String.toList_ofList, htext, Text.trimEnd_append_blank _ rfl,
    Text.trimEnd_append_of_not_isBlank _ hc, hline, ← String.ofList_append]

end Yaml
end LayeredConfig
