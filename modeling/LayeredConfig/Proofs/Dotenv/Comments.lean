import LayeredConfig.Proofs.Dotenv.Quoting

/-!
# Comments behind values

A value without quotes ends where a space and a number sign stand.  Where there is no value, the
spaces in front of the comment are trimmed before the comment is looked for, so the comment itself
is taken for the value.

## Key results

- `Dotenv.beforeComment?_eq_none_iff` and `Dotenv.beforeComment?_append`: where a comment begins
- `Dotenv.unquote_comment`: a comment behind a value is not read
- `Dotenv.unquote_misread`: what is read of a comment behind no value
- `Dotenv.parse_trailing`: a line with a comment and the same line without
-/

namespace LayeredConfig.Dotenv

open Text

variable {s t : List Char}

/-! ## Where a comment begins -/

/-- A character that does not begin a comment is passed. -/
theorem beforeComment?_cons {c : Char} (h : ∀ rest, c = ' ' → s = '#' :: rest → False) :
    beforeComment? (c :: s) = (beforeComment? s).map (c :: ·) := by
  rw [beforeComment?]
  exact h

/-- A comment begins wherever a space and a number sign stand. -/
theorem beforeComment?_eq_none_iff : beforeComment? s = none ↔ ¬ [' ', '#'] <:+: s := by
  -- As the comment is looked for, a space and a number sign being the one case that finds it.
  induction s using beforeComment?.induct with
  | case1 rest =>
    have hinfix : [' ', '#'] <:+: ' ' :: '#' :: rest := ⟨[], rest, rfl⟩
    simp [beforeComment?, hinfix]
  | case2 c s hc ih =>
    have hbegins : ¬ [' ', '#'] <+: c :: s := by
      rw [List.cons_prefix_cons]
      rintro ⟨rfl, rest, rfl⟩
      exact hc rest rfl rfl
    rw [beforeComment?_cons hc, Option.map_eq_none_iff, ih, List.infix_cons_iff]
    simp [hbegins]
  | case3 => simp [beforeComment?]

/-- Behind a text without a comment the first comment is that of the rest, since a space ends what
could begin one. -/
theorem beforeComment?_append (h : beforeComment? s = none) (t : List Char) :
    beforeComment? (s ++ ' ' :: t) = (beforeComment? (' ' :: t)).map (s ++ ·) := by
  induction s using beforeComment?.induct with
  | case1 rest => exact nomatch h
  | case2 c s hc ih =>
    rw [beforeComment?_cons hc, Option.map_eq_none_iff] at h
    rw [List.cons_append, beforeComment?_cons, ih h, Option.map_map]
    · rfl
    -- The number sign could only be the next character of `s`, or the space behind it.
    · intro rest hspace hmark
      cases s with
      | nil => simp at hmark
      | cons d s => exact hc s hspace (by rw [(List.cons.inj hmark).1])
  | case3 => simp

/-- Of several spaces in front of a number sign, the last begins the comment. -/
theorem beforeComment?_spaces (n : Nat) (t : List Char) :
    beforeComment? (' ' :: (List.replicate n ' ' ++ '#' :: t)) = some (List.replicate n ' ') := by
  induction n with
  | zero => rfl
  | succ n ih =>
    rw [List.replicate_succ, List.cons_append, beforeComment?_cons, ih]
    · rfl
    · intro rest _ hmark
      simp at hmark

/-- Blanks at the end of a text begin no comment. -/
theorem beforeComment?_trimEnd (s : List Char) : beforeComment? (trimEnd s) = beforeComment? s := by
  induction s using beforeComment?.induct with
  | case1 rest =>
    have hmark : trimEnd (' ' :: '#' :: rest) = ' ' :: '#' :: trimEnd rest :=
      trimEnd_append_cons [' '] (by decide) rest
    rw [hmark, beforeComment?, beforeComment?]
  | case2 c s hc ih =>
    rw [beforeComment?_cons hc, ← ih, trimEnd]
    -- Either all behind the first character is blank, or it goes on as before.
    cases hs : trimEnd s with
    | nil => by_cases hblank : isBlank c <;> simp [hblank, beforeComment?]
    | cons d kept =>
      refine beforeComment?_cons fun rest hspace hmark => ?_
      -- What is left is the beginning of what was there.
      have hbegins : trimEnd s <+: s := by
        rw [trimEnd_eq_rdropWhile]
        exact List.rdropWhile_prefix _ _
      obtain ⟨after, hafter⟩ := hbegins
      exact hc (rest ++ after) hspace (by rw [← hafter, hs, hmark]; rfl)
  | case3 => rfl

/-! ## Values -/

/-- A value that is written without quotes. -/
structure Unquoted where
  text : String
  trimmed : trim text.toList = text.toList
  unbroken : '\n' ∉ text.toList
  no_quote : text.toList.head? ≠ some '"' ∧ text.toList.head? ≠ some '\''
  no_comment : text.toList.head? ≠ some '#' ∧ ¬ [' ', '#'] <:+: text.toList

/-- What is read of a comment that stands behind no value: all of it up to a further comment. -/
def misread (comment : List Char) : List Char :=
  '#' :: trimEnd ((beforeComment? comment).getD comment)

/-- Spaces are blank. -/
theorem isBlank_of_mem_spaces (n : Nat) : ∀ c ∈ List.replicate n ' ', isBlank c = true := by
  intro c hc
  rw [List.eq_of_mem_replicate hc]
  rfl

/-- A text that does not begin with a quote is not between quotes. -/
theorem inside?_eq_none {quote : Char} (h : s.head? ≠ some quote) : inside? quote s = none := by
  cases s with
  | nil => rfl
  | cons c s =>
    rw [List.head?_cons, ne_eq, Option.some.injEq] at h
    simp [inside?, h]

/-- A value that begins with no quote ends where a comment begins, if there is one. -/
theorem unquote_of_head (hdouble : s.head? ≠ some '"') (hsingle : s.head? ≠ some '\'') :
    unquote s = ((beforeComment? s).map trimEnd).getD s := by
  rw [unquote, inside?_eq_none hdouble, inside?_eq_none hsingle]
  cases beforeComment? s <;> rfl

/-- A value that is written without quotes is read as it is. -/
theorem unquote_unquoted (u : Unquoted) : unquote (trim u.text.toList) = u.text.toList := by
  rw [u.trimmed, unquote_of_head u.no_quote.1 u.no_quote.2, beforeComment?_eq_none_iff.mpr u.no_comment.2]
  rfl

/-- A comment behind a value is not read. -/
theorem unquote_comment (u : Unquoted) (h : u.text.toList ≠ []) (n : Nat) (comment : List Char) :
    unquote (trim (u.text.toList ++ (List.replicate (n + 1) ' ' ++ '#' :: comment))) =
      u.text.toList := by
  obtain ⟨c, rest, hu⟩ := List.exists_cons_of_ne_nil h
  have hc : isBlank c = false := isBlank_of_trim_cons (hu ▸ u.trimmed)
  have htrim : trim (u.text.toList ++ (List.replicate (n + 1) ' ' ++ '#' :: comment)) =
      u.text.toList ++ ' ' :: (List.replicate n ' ' ++ '#' :: trimEnd comment) := by
    have hmark : isBlank '#' = false := by decide
    simpa [hu, List.replicate_succ] using
      trim_between hc hmark (rest ++ List.replicate (n + 1) ' ') comment
  have hhead : (u.text.toList ++ ' ' :: (List.replicate n ' ' ++ '#' :: trimEnd comment)).head? =
      u.text.toList.head? := by simp [hu]
  rw [htrim, unquote_of_head (by rw [hhead]; exact u.no_quote.1) (by rw [hhead]; exact u.no_quote.2),
    beforeComment?_append (beforeComment?_eq_none_iff.mpr u.no_comment.2), beforeComment?_spaces]
  -- The spaces that are left between value and comment go with the comment.
  show trimEnd (u.text.toList ++ List.replicate n ' ') = u.text.toList
  rw [trimEnd_append_blanks _ (isBlank_of_mem_spaces n), trimEnd_eq_self u.trimmed]

/-- A comment behind no value is taken for the value. -/
theorem unquote_misread (n : Nat) (comment : List Char) :
    unquote (trim (List.replicate n ' ' ++ '#' :: comment)) = misread comment := by
  have hmark (t : List Char) : trimEnd ('#' :: t) = '#' :: trimEnd t :=
    trimEnd_append_cons [] (by decide) t
  rw [trim_blanks_append (isBlank_of_mem_spaces n), trim_cons (by decide), unquote_of_head (by simp) (by simp),
    beforeComment?_cons (by simp), beforeComment?_trimEnd, misread]
  cases beforeComment? comment with
  | none => rfl
  | some t => exact hmark t

/-! ## Lines -/

/-- A line that begins with a key gives the key and what its value stands for. -/
theorem parse_key (key : Key) {value : List Char} (h : '\n' ∉ value) :
    parse (.ofList (key.text.toList ++ '=' :: value)) =
      .ok [(key.text, .ofList (unquote (trim value)))] := by
  have hentry : entry (key.text.toList ++ '=' :: value) = _ :=
    entry_key ⟨[], List.forall_mem_nil _, List.not_mem_nil⟩ false key value
  have hline : '\n' ∉ key.text.toList ++ '=' :: value := by simp [key.unbroken, h]
  rw [parse, String.toList_ofList, entries_line hline hentry]
  rfl

/-- A comment behind a value without quotes is not read.  Where the value is empty the comment is
read in its place. -/
theorem parse_trailing (key : Key) (u : Unquoted) {n : Nat} (hn : 0 < n) {comment : String}
    (hcomment : '\n' ∉ comment.toList) :
    parse (key.text ++ "=" ++ u.text) = .ok [(key.text, u.text)] ∧
      parse (key.text ++ "=" ++ u.text ++ .ofList (List.replicate n ' ') ++ "#" ++ comment) =
        .ok [(key.text, if u.text = "" then .ofList (misread comment.toList) else u.text)] := by
  constructor
  · have htext : key.text ++ "=" ++ u.text = .ofList (key.text.toList ++ '=' :: u.text.toList) := by
      simp [← String.toList_inj]
    rw [htext, parse_key key u.unbroken, unquote_unquoted, String.ofList_toList]
  -- The first space may stand behind the value, and the last one begins the comment.
  · obtain ⟨n, rfl⟩ := Nat.exists_eq_succ_of_ne_zero hn.ne'
    have htext : key.text ++ "=" ++ u.text ++ .ofList (List.replicate (n + 1) ' ') ++ "#" ++ comment =
        .ofList (key.text.toList ++
          '=' :: (u.text.toList ++ (List.replicate (n + 1) ' ' ++ '#' :: comment.toList))) := by
      simp [← String.toList_inj]
    have hvalue : '\n' ∉ u.text.toList ++ (List.replicate (n + 1) ' ' ++ '#' :: comment.toList) := by
      simp [u.unbroken, hcomment]
    rw [htext, parse_key key hvalue]
    split
    · next hempty => rw [hempty, String.toList_empty, List.nil_append, unquote_misread]
    · next hne =>
      have hu : u.text.toList ≠ [] := by simpa using hne
      rw [unquote_comment u hu, String.ofList_toList]

/-- A value that holds quotes and number signs, and a comment that ends with a quote. -/
theorem parse_trailing_quoteMarks :
    let key : Key := ⟨"a b", by decide, by decide, by decide, by decide, by decide, by decide⟩
    let u : Unquoted := ⟨"x'#\"y= \t#", by decide, by decide, by decide,
      by decide, beforeComment?_eq_none_iff.mp rfl⟩
    0 < 2 ∧ '\n' ∉ " it's # \"so\" \r".toList ∧
      parse (key.text ++ "=" ++ u.text ++ .ofList (List.replicate 2 ' ') ++ "#" ++
        " it's # \"so\" \r") = .ok [(key.text, u.text)] := by
  intro key u
  have hspaces : 0 < 2 := by decide
  have hcomment : '\n' ∉ " it's # \"so\" \r".toList := by decide
  have hu : u.text ≠ "" := by decide
  obtain ⟨-, h⟩ := parse_trailing key u hspaces hcomment
  rw [if_neg hu] at h
  exact ⟨hspaces, hcomment, h⟩

/-- Behind no value a comment is not recognised. -/
theorem parse_trailing_empty :
    parse "EMPTY=" = .ok [("EMPTY", "")] ∧ parse "EMPTY= # note" = .ok [("EMPTY", "# note")] ∧
      parse "EMPTY= # note" ≠ parse "EMPTY=" := by
  have hempty : parse "EMPTY=" = .ok [("EMPTY", "")] := rfl
  have hnote : parse "EMPTY= # note" = .ok [("EMPTY", "# note")] := rfl
  refine ⟨hempty, hnote, ?_⟩
  rw [hempty, hnote]
  simp

end LayeredConfig.Dotenv
