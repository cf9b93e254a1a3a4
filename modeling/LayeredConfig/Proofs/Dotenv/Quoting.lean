import LayeredConfig.Proofs.Dotenv.Acceptance

/-!
# Written texts

Values of every kind can be written between quotes.  However the lines are indented, ended and mixed
with comments, the pairs that were written are read back.

## Key results

- `Dotenv.entry_key`: what a line with a key comes to
- `Dotenv.unescape_escape` and `Dotenv.unquote_text`: a quoted value is read back
- `Dotenv.entry_text`: a written line is read back
- `Dotenv.parse_write`: a written text is read back
-/

namespace LayeredConfig.Dotenv

open Text

/-! ## Keys -/

/-- White space in front of a line, or a line of white space. -/
structure Indent where
  chars : List Char
  blank : ∀ c ∈ chars, isBlank c = true
  unbroken : '\n' ∉ chars

/-- A key that can be written as it is. -/
structure Key where
  text : String
  ne_nil : text.toList ≠ []
  trimmed : trim text.toList = text.toList
  no_equals : '=' ∉ text.toList
  unbroken : '\n' ∉ text.toList
  no_comment : text.toList.head? ≠ some '#'
  no_export : ¬ "export ".toList <+: text.toList

/-- The word in front of a key that is exported. -/
def exportWord (exported : Bool) : List Char := if exported then "export ".toList else []

/-- The first character of a key is no blank. -/
theorem Key.exists_cons (key : Key) : ∃ c rest, key.text.toList = c :: rest ∧ isBlank c = false := by
  obtain ⟨c, rest, hkey⟩ := List.exists_cons_of_ne_nil key.ne_nil
  have htrimmed := key.trimmed
  rw [hkey] at htrimmed
  exact ⟨c, rest, hkey, isBlank_of_trim_cons htrimmed⟩

/-- The word in front of a key is taken off. -/
theorem dropExport_exportWord (s : List Char) : dropExport ("export ".toList ++ s) = s := by
  rw [dropExport, if_pos (List.isPrefixOf_iff_prefix.mpr (List.prefix_append _ _))]
  rfl

/-- The word is not found where a key and an equals sign stand. -/
theorem dropExport_key (key : Key) (value : List Char) :
    dropExport (key.text.toList ++ '=' :: value) = key.text.toList ++ '=' :: value := by
  have hequals : '=' ∉ "export ".toList := by decide
  rw [dropExport, if_neg]
  intro hbegins
  have hword : "export ".toList <+: key.text.toList ++ '=' :: value :=
    List.isPrefixOf_iff_prefix.mp hbegins
  have hkey : key.text.toList ++ ['='] <+: key.text.toList ++ '=' :: value :=
    (List.prefix_append_right_inj _).mpr ⟨value, rfl⟩
  -- One of two beginnings of a text is the beginning of the other.
  rcases List.prefix_or_prefix_of_prefix hword hkey with h | h
  · rcases List.prefix_concat_iff.mp h with h | h
    · exact hequals (by rw [h]; simp)
    · exact key.no_export h
  · exact hequals (h.subset (by simp))

/-- What a line comes to that has a key. -/
theorem entry_key (indent : Indent) (exported : Bool) (key : Key) (value : List Char) :
    entry (indent.chars ++ (exportWord exported ++ (key.text.toList ++ '=' :: value))) =
      .ok (some (key.text, .ofList (unquote (trim value)))) := by
  obtain ⟨c, rest, hkey, hc⟩ := key.exists_cons
  have hequals : isBlank '=' = false := by decide
  -- Trimming takes the indentation and what stands behind the value.
  have htrim : trim (indent.chars ++ (exportWord exported ++ (key.text.toList ++ '=' :: value))) =
      exportWord exported ++ (key.text.toList ++ '=' :: trimEnd value) := by
    rw [trim_blanks_append indent.blank]
    cases exported with
    | true =>
      have hword : isBlank 'e' = false := by decide
      simpa [exportWord] using trim_between hword hequals ("xport ".toList ++ key.text.toList) value
    | false => simpa [exportWord, hkey] using trim_between hc hequals rest value
  have hline : dropExport (exportWord exported ++ (key.text.toList ++ '=' :: trimEnd value)) =
      key.text.toList ++ '=' :: trimEnd value := by
    cases exported with
    | true => exact dropExport_exportWord _
    | false => exact dropExport_key key _
  have hsays : Significant
      (indent.chars ++ (exportWord exported ++ (key.text.toList ++ '=' :: value))) := by
    rw [Significant, htrim]
    cases exported with
    | true => simp [exportWord]
    | false =>
      have hcomment := key.no_comment
      rw [hkey] at hcomment ⊢
      simpa [exportWord] using hcomment
  rw [entry_of_split hsays (by rw [assignment, htrim, hline]) key.no_equals, key.trimmed,
    if_neg key.ne_nil, trim_trimEnd, String.ofList_toList]

/-! ## Quotes -/

/-- One character between double quotes. -/
def escape (c : Char) : List Char :=
  if c = '\\' then ['\\', '\\'] else if c = '"' then ['\\', '"']
  else if c = '\n' then ['\\', 'n'] else [c]

/-- A value between quotes.  A line feed cannot be written between single quotes. -/
inductive Quoted
  | double (value : String)
  | single (value : String) (unbroken : '\n' ∉ value.toList)

namespace Quoted

def value : Quoted → String
  | double value => value
  | single value _ => value

def text : Quoted → List Char
  | double value => '"' :: (value.toList.flatMap escape ++ ['"'])
  | single value _ => '\'' :: (value.toList ++ ['\''])

end Quoted

/-- Only a backslash begins an escape. -/
theorem unescape_cons {c : Char} (h : c ≠ '\\') (rest : List Char) :
    unescape (c :: rest) = c :: unescape rest := by
  rw [unescape] <;> simp [h]

/-- Escaped characters are read back. -/
theorem unescape_escape (s : List Char) : unescape (s.flatMap escape) = s := by
  induction s with
  | nil => rfl
  | cons c s ih =>
    rw [List.flatMap_cons, escape]
    -- Three characters are escaped.
    split
    · next h => simp [unescape, ih, h]
    · split
      · next h => simp [unescape, ih, h]
      · split
        · next h => simp [unescape, ih, h]
        · next h _ _ => rw [List.singleton_append, unescape_cons h, ih]

/-- A quoted value is read back. -/
theorem unquote_text (q : Quoted) : unquote q.text = q.value.toList := by
  cases q with
  | double value =>
    have hinside : inside? '"' (Quoted.double value).text = some (value.toList.flatMap escape) := by
      simp [inside?, Quoted.text]
    simp only [unquote, hinside, unescape_escape, Quoted.value]
  | single value unbroken =>
    have hdouble : inside? '"' (Quoted.single value unbroken).text = none := by
      simp [inside?, Quoted.text]
    have hinside : inside? '\'' (Quoted.single value unbroken).text = some value.toList := by
      simp [inside?, Quoted.text]
    simp only [unquote, hdouble, hinside, Quoted.value]

/-- Quotes are no blanks, so nothing is taken of a value between them. -/
theorem Quoted.trim_text (q : Quoted) : trim q.text = q.text := by
  cases q with
  | double value => exact trim_between (by decide) (by decide) _ []
  | single value unbroken => exact trim_between (by decide) (by decide) _ []

/-- A quoted value stands on one line. -/
theorem Quoted.unbroken (q : Quoted) : '\n' ∉ q.text := by
  cases q with
  | double value =>
    simp only [text, List.mem_cons, List.mem_append, List.mem_flatMap, not_or]
    refine ⟨by decide, ?_, by decide⟩
    rintro ⟨c, -, hc⟩
    unfold escape at hc
    -- Only a line feed could bring a line feed, and it is escaped.
    split at hc
    · simp at hc
    · split at hc
      · simp at hc
      · split at hc
        · simp at hc
        · next h => exact h (List.mem_singleton.mp hc).symm
  | single value unbroken => simpa [text] using unbroken

/-! ## Lines -/

/-- A line as it is written. -/
inductive Line
  | blank (indent : Indent)
  | comment (indent : Indent) (text : List Char) (unbroken : '\n' ∉ text)
  | pair (indent : Indent) (exported : Bool) (key : Key) (quoted : Quoted)

namespace Line

def text : Line → List Char
  | blank indent => indent.chars
  | comment indent text _ => indent.chars ++ '#' :: text
  | pair indent exported key quoted =>
    indent.chars ++ (exportWord exported ++ (key.text.toList ++ '=' :: quoted.text))

/-- The key and the value that are written on a line. -/
def pair? : Line → Option (String × String)
  | pair _ _ key quoted => some (key.text, quoted.value)
  | _ => none

/-- A written line is one line. -/
theorem unbroken (l : Line) : '\n' ∉ l.text := by
  cases l with
  | blank indent => exact indent.unbroken
  | comment indent text unbroken => simp [Line.text, indent.unbroken, unbroken]
  | pair indent exported key quoted =>
    have hword : '\n' ∉ exportWord exported := by cases exported <;> decide
    simp [Line.text, indent.unbroken, hword, key.unbroken, quoted.unbroken]

end Line

/-- A written line is read back. -/
theorem entry_text (l : Line) : entry l.text = .ok l.pair? := by
  cases l with
  | blank indent =>
    have htrim : trim indent.chars = [] := trim_eq_nil_iff.mpr indent.blank
    exact entry_of_not_significant fun h => h.1 htrim
  | comment indent text unbroken =>
    have htrim : trim (indent.chars ++ '#' :: text) = '#' :: trimEnd text := by
      rw [trim_blanks_append indent.blank, trim_cons (by decide)]
    refine entry_of_not_significant fun h => h.2 ?_
    rw [Line.text, htrim]
    rfl
  | pair indent exported key quoted =>
    rw [Line.text, entry_key, quoted.trim_text, unquote_text, String.ofList_toList]
    rfl

/-! ## Texts -/

/-- Lines with their ends, and a last line that is not ended. -/
def write (ls : List (Line × LineEnd)) (last : Line) : List Char :=
  ls.flatMap (fun l => l.1.text ++ l.2.text) ++ last.text

/-- Written lines give the pairs on them, whatever their number. -/
theorem entries_write (ls : List (Line × LineEnd)) (last : Line) (number : Nat) :
    entries number (lines (write ls last)) =
      .ok (ls.filterMap (·.1.pair?) ++ last.pair?.toList) := by
  -- The first line and its end are found again, and the others are read as a text of their own.
  induction ls generalizing number with
  | nil => exact entries_line last.unbroken (entry_text last) number
  | cons first ls ih =>
    obtain ⟨l, e⟩ := first
    have htext : write ((l, e) :: ls) last = l.text ++ (e.text ++ write ls last) := by simp [write]
    rw [htext, lines_line l.unbroken, entries_cons ((entry_strip _ e).trans (entry_text l)), ih]
    cases l <;> rfl

/-- A text of written lines is read as the pairs on them, in order. -/
theorem parse_write (ls : List (Line × LineEnd)) (last : Line) :
    parse (.ofList (write ls last)) = .ok ((ls.map Prod.fst ++ [last]).filterMap Line.pair?) := by
  have hlast : [last].filterMap Line.pair? = last.pair?.toList := by cases last <;> rfl
  rw [parse, String.toList_ofList, entries_write, List.filterMap_append, List.filterMap_map, hlast]
  rfl

/-- A key that looks like a word in quotes, and values with quotes, escapes, line ends, comment
characters and blanks at their ends. -/
theorem parse_write_awkward :
    let key : Key := ⟨"\"export\" b", by decide, by decide, by decide, by decide, by decide, by decide⟩
    let indent : Indent :=
      ⟨[' ', '\t'], List.forall_mem_cons.mpr ⟨rfl, List.forall_mem_singleton.mpr rfl⟩, by decide⟩
    parse (.ofList (write
      [(.comment indent "A=1\r".toList (by decide), .feed),
        (.pair indent true key (.double " \"#\\n\r\n= \\"), .returnFeed),
        (.blank indent, .returnFeed)]
      (.pair ⟨[], List.forall_mem_nil _, List.not_mem_nil⟩ false key (.single "\"' #\\" (by decide))))) =
      .ok [("\"export\" b", " \"#\\n\r\n= \\"), ("\"export\" b", "\"' #\\")] := by
  intro key indent
  exact parse_write _ _

end LayeredConfig.Dotenv
