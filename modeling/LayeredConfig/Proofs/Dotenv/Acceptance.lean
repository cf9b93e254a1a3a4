import LayeredConfig.Proofs.Text.Lines
import LayeredConfig.SortedMap.Lemmas
import LayeredConfig.Source.Dotenv

/-!
# Which texts have entries

A line that is neither blank nor a comment has to assign something to a key.  A text is accepted if
all such lines do, and then each of them gives one pair.  Otherwise the first line that does not is
told.  What a line gives depends on nothing but the line.

## Key results

- `Dotenv.entry_cases`: what one line comes to
- `Dotenv.entries_cases`: what lines come to, one after the other
- `Dotenv.entries_line`: what a text of one line comes to
- `Dotenv.parse_eq_ok_iff`: the texts that are accepted, and their pairs
- `Dotenv.accepted`: acceptance, pairs, faults, and texts put together
-/

namespace LayeredConfig.Dotenv

open Text

variable {line before after : List Char} {number : Nat} {ls : List (List Char)}

/-! ## One line -/

/-- A line says something: it is neither blank nor a comment. -/
def Significant (line : List Char) : Prop := trim line ≠ [] ∧ (trim line).head? ≠ some '#'

instance : DecidablePred Significant := fun _ => inferInstanceAs (Decidable (_ ∧ _))

/-- A line without the blanks around it and without the word `export`. -/
def assignment (line : List Char) : List Char := dropExport (trim line)

/-- A line has an equals sign with something before it. -/
def Assigns (line : List Char) : Prop :=
  ∃ before after, assignment line = before ++ '=' :: after ∧ '=' ∉ before ∧
    ∃ c ∈ before, isBlank c = false

/-- The key and the value that are told by what stands before and behind the first equals sign. -/
def pair (line : List Char) : String × String :=
  (.ofList (trim ((assignment line).takeWhile (· ≠ '='))),
    .ofList (unquote (trim ((assignment line).dropWhile (· ≠ '=')).tail)))

/-- The first equals sign ends the one part and begins the other. -/
theorem split_first (h : '=' ∉ before) (after : List Char) :
    (before ++ '=' :: after).takeWhile (· ≠ '=') = before ∧
      (before ++ '=' :: after).dropWhile (· ≠ '=') = '=' :: after := by
  have hbefore : ∀ c ∈ before, decide (c ≠ '=') = true := by
    intro c hc
    exact decide_eq_true (ne_of_mem_of_not_mem hc h)
  constructor
  · rw [List.takeWhile_append_of_pos hbefore]
    simp
  · rw [List.dropWhile_append_of_pos hbefore]
    simp

/-- The pair of a line is that of its parts before and behind the first equals sign. -/
theorem pair_of_split (hline : assignment line = before ++ '=' :: after) (hfirst : '=' ∉ before) :
    pair line = (.ofList (trim before), .ofList (unquote (trim after))) := by
  obtain ⟨htake, hdrop⟩ := split_first hfirst after
  rw [pair, hline, htake, hdrop]
  rfl

/-- A line that says nothing gives no pair. -/
theorem entry_of_not_significant (h : ¬ Significant line) : entry line = .ok none := by
  have hskip : trim line = [] ∨ (trim line).head? = some '#' := by
    by_contra hsays
    exact h (not_or.mp hsays)
  simp only [entry, if_pos hskip]

/-- A line that says something without an equals sign is at fault. -/
theorem entry_of_not_mem (h : Significant line) (hline : '=' ∉ assignment line) :
    entry line = .error .noEquals := by
  have hdrop : (dropExport (trim line)).dropWhile (· ≠ '=') = [] := by
    rw [List.dropWhile_eq_nil_iff]
    intro c hc
    exact decide_eq_true (ne_of_mem_of_not_mem hc hline)
  simp only [entry, if_neg (not_or.mpr h), hdrop]

/-- A line with an equals sign needs a key before it. -/
theorem entry_of_split (h : Significant line) (hline : assignment line = before ++ '=' :: after)
    (hfirst : '=' ∉ before) :
    entry line = if trim before = [] then .error .emptyKey
      else .ok (some (.ofList (trim before), .ofList (unquote (trim after)))) := by
  obtain ⟨htake, hdrop⟩ := split_first hfirst after
  rw [assignment] at hline
  simp only [entry, if_neg (not_or.mpr h), hline, htake, hdrop]

/-- What a line comes to: a pair if it says something and nothing if it does not, or a fault. -/
theorem entry_cases (line : List Char) :
    (Significant line → Assigns line) ∧
        entry line = .ok (if Significant line then some (pair line) else none) ∨
      Significant line ∧ ¬ Assigns line ∧ ∃ f : Fault, entry line = .error f := by
  by_cases h : Significant line
  case neg => exact .inl ⟨fun hsays => absurd hsays h, by rw [entry_of_not_significant h, if_neg h]⟩
  rw [if_pos h]
  -- If there is an equals sign, the first one splits the line, and a key may still be missing.
  by_cases hmem : '=' ∈ assignment line
  · obtain ⟨before, after, hline, hfirst⟩ := List.eq_append_cons_of_mem hmem
    rw [entry_of_split h hline hfirst, pair_of_split hline hfirst]
    by_cases hkey : trim before = []
    · refine .inr ⟨h, ?_, .emptyKey, if_pos hkey⟩
      rintro ⟨before', after', hline', hfirst', c, hc, hblank⟩
      -- What is before the first equals sign is the same for both.
      have hbefore : before' = before := by
        rw [← (split_first hfirst' after').1, ← hline', hline, (split_first hfirst after).1]
      rw [hbefore] at hc
      exact absurd (trim_eq_nil_iff.mp hkey c hc) (by simp [hblank])
    · have hblank : ∃ c ∈ before, isBlank c = false := by simpa [trim_eq_nil_iff] using hkey
      exact .inl ⟨fun _ => ⟨before, after, hline, hfirst, hblank⟩, if_neg hkey⟩
  · refine .inr ⟨h, ?_, .noEquals, entry_of_not_mem h hmem⟩
    rintro ⟨before, after, hline, -⟩
    exact hmem (by simp [hline])

/-! ## Lines -/

/-- The pairs that lines give, one after the other. -/
def pairs (ls : List (List Char)) : List (String × String) :=
  (ls.filter (Significant ·)).map pair

/-- The pairs of lines are those of one after the other. -/
theorem pairs_append (ls others : List (List Char)) :
    pairs (ls ++ others) = pairs ls ++ pairs others := by
  simp [pairs]

/-- The first line gives one pair or none. -/
theorem pairs_cons (line : List Char) (rest : List (List Char)) :
    pairs (line :: rest) =
      (if Significant line then some (pair line) else none).toList ++ pairs rest := by
  by_cases h : Significant line <;> simp [pairs, h]

/-- A line without a fault is passed, with or without a pair. -/
theorem entries_cons {o : Option (String × String)} (h : entry line = .ok o) (number : Nat)
    (rest : List (List Char)) :
    entries number (line :: rest) = (entries (number + 1) rest).map (o.toList ++ ·) := by
  cases o with
  | none =>
    simp only [entries, h, Option.toList_none, List.nil_append]
    cases entries (number + 1) rest <;> rfl
  | some p => simp only [entries, h, Option.toList_some, List.singleton_append]

/-- A text without line feeds is read as one line, also where it is empty. -/
theorem entries_line {o : Option (String × String)} (hline : '\n' ∉ line) (h : entry line = .ok o)
    (number : Nat) : entries number (lines line) = .ok o.toList := by
  rw [lines_of_not_mem hline]
  split
  · next hempty =>
    rw [hempty] at h
    rw [← Except.ok.inj h]
    rfl
  · rw [entries_cons h, entries]
    exact congrArg Except.ok (List.append_nil _)

/-- Lines give a pair each as far as they say something, or the first that does not is told. -/
theorem entries_cases (number : Nat) (ls : List (List Char)) :
    (∀ line ∈ ls, Significant line → Assigns line) ∧ entries number ls = .ok (pairs ls) ∨
      ∃ before line after, ∃ f : Fault, ls = before ++ line :: after ∧
        (∀ l ∈ before, Significant l → Assigns l) ∧ Significant line ∧ ¬ Assigns line ∧
        entries number ls = .error (f.toError (number + before.length)) := by
  -- For any number of the first line, since the others are counted on from it.
  induction ls generalizing number with
  | nil => exact .inl ⟨List.forall_mem_nil _, rfl⟩
  | cons line rest ih =>
    -- A line in order leaves the decision to the others, and one at fault is the first such line.
    rcases entry_cases line with ⟨hfirst, hentry⟩ | ⟨h, hbad, f, hentry⟩
    · rw [entries_cons hentry]
      rcases ih (number + 1) with
        ⟨hrest, hresult⟩ | ⟨before, l, after, f, rfl, hbefore, hl, hbad, hresult⟩
      · refine .inl ⟨List.forall_mem_cons.mpr ⟨hfirst, hrest⟩, ?_⟩
        rw [hresult, pairs_cons]
        rfl
      · have hnumber : number + 1 + before.length = number + (line :: before).length := by
          simp only [List.length_cons]
          omega
        refine .inr ⟨line :: before, l, after, f, rfl, List.forall_mem_cons.mpr ⟨hfirst, hbefore⟩, hl,
          hbad, ?_⟩
        rw [hresult, hnumber]
        rfl
    · -- Nothing stands before the first line.
      refine .inr ⟨[], line, rest, f, rfl, List.forall_mem_nil _, h, hbad, ?_⟩
      simp only [entries, hentry]
      rfl

/-- The texts that are accepted, and their pairs. -/
theorem parse_eq_ok_iff {text : String} {es : List (String × String)} :
    parse text = .ok es ↔
      (∀ line ∈ lines text.toList, Significant line → Assigns line) ∧
        es = pairs (lines text.toList) := by
  rcases entries_cases 1 (lines text.toList) with
    ⟨hall, hresult⟩ | ⟨before, line, after, f, hls, -, hline, hbad, hresult⟩
  · rw [parse, hresult, Except.ok.injEq]
    exact ⟨fun h => ⟨hall, h.symm⟩, fun h => h.2.symm⟩
  · rw [parse, hresult]
    constructor
    · exact nofun
    · rintro ⟨hall, -⟩
      exact absurd (hall line (by simp [hls]) hline) hbad

/-! ## Faults and keys -/

theorem Fault.code_toError (f : Fault) (number : Nat) : (f.toError number).code = .decode := rfl

/-- Every fault tells the number of its line. -/
theorem Fault.line_toError (f : Fault) (number : Nat) :
    (f.toError number).context.find? "line" = some (toString number) := by
  cases f <;> simp [toError, Error.withContext, Entries.find?_insert]

/-- A key is trimmed and not empty, and there is no equals sign in it. -/
theorem key_of_assigns (h : Assigns line) :
    (pair line).1 ≠ "" ∧ trim (pair line).1.toList = (pair line).1.toList ∧
      '=' ∉ (pair line).1.toList := by
  obtain ⟨before, after, hline, hfirst, c, hc, hblank⟩ := h
  rw [pair_of_split hline hfirst]
  refine ⟨?_, ?_, ?_⟩
  · intro hempty
    have htrim : trim before = [] := by simpa using congrArg String.toList hempty
    exact absurd (trim_eq_nil_iff.mp htrim c hc) (by simp [hblank])
  · rw [String.toList_ofList, trim_trim]
  · rw [String.toList_ofList]
    exact fun hmem => hfirst (mem_of_mem_trim hmem)

/-! ## Texts put together -/

section
variable (e : LineEnd) (line)

/-- The line end that is taken with a line is blank, so the line gives the same. -/
theorem entry_strip : entry (e.strip line) = entry line := by
  rw [entry, entry, trim_strip]

theorem significant_strip : Significant (e.strip line) ↔ Significant line := by
  rw [Significant, Significant, trim_strip]

theorem assigns_strip : Assigns (e.strip line) ↔ Assigns line := by
  rw [Assigns, Assigns, assignment, assignment, trim_strip]

theorem pair_strip : pair (e.strip line) = pair line := by
  rw [pair, pair, assignment, assignment, trim_strip]

end

/-- A line end behind a text changes nothing. -/
theorem parse_append_lineEnd {text : String} {es : List (String × String)} (h : parse text = .ok es)
    (e : LineEnd) :
    (∀ line ∈ lines (text.toList ++ e.text), Significant line → Assigns line) ∧
      pairs (lines (text.toList ++ e.text)) = es := by
  obtain ⟨hall, rfl⟩ := parse_eq_ok_iff.mp h
  rcases lines_append_lineEnd text.toList e with hlines | ⟨before, last, htext, hlines⟩
  · -- One more line, which is empty.
    have hempty : ¬ Significant [] := by decide
    rw [hlines]
    refine ⟨List.forall_mem_append.mpr ⟨hall, by simp [hempty]⟩, ?_⟩
    simp [pairs, hempty]
  -- The last line may lose a carriage return, which is blank.
  · rw [htext] at hall ⊢
    rw [hlines]
    simp only [List.forall_mem_append, List.forall_mem_singleton, significant_strip, assigns_strip,
      pairs, List.filter_append, List.filter_singleton, List.map_append] at hall ⊢
    refine ⟨hall, ?_⟩
    by_cases hlast : Significant last <;> simp [hlast, pair_strip]

/-! ## Acceptance -/

/-- A text is accepted if every line that says something has an equals sign with something before
it.  Then each such line gives one pair, in order, with a trimmed key.  Otherwise the error is about
the first line that has not, and tells its number.  Pairs depend on their own lines only, so those
of two texts that are put together are the pairs of the one and then of the other. -/
theorem accepted (text : String) :
    ((∃ es, parse text = .ok es) ↔
      ∀ line ∈ lines text.toList, Significant line → Assigns line) ∧
    (∀ es, parse text = .ok es →
      es = ((lines text.toList).filter (Significant ·)).map pair ∧
      ∀ p ∈ es, p.1 ≠ "" ∧ trim p.1.toList = p.1.toList ∧ '=' ∉ p.1.toList) ∧
    (∀ e, parse text = .error e → ∃ before line after, lines text.toList = before ++ line :: after ∧
      (∀ l ∈ before, Significant l → Assigns l) ∧ Significant line ∧ ¬ Assigns line ∧
      e.code = .decode ∧ e.context.find? "line" = some (toString (before.length + 1))) ∧
    ∀ (e : LineEnd) (other : String) (es others : List (String × String)),
      parse text = .ok es → parse other = .ok others →
        parse (text ++ .ofList e.text ++ other) = .ok (es ++ others) := by
  refine ⟨⟨?_, ?_⟩, ?_, ?_, ?_⟩
  · rintro ⟨es, h⟩
    exact (parse_eq_ok_iff.mp h).1
  · intro hall
    exact ⟨_, parse_eq_ok_iff.mpr ⟨hall, rfl⟩⟩
  · intro es h
    obtain ⟨hall, rfl⟩ := parse_eq_ok_iff.mp h
    refine ⟨rfl, fun p hp => ?_⟩
    obtain ⟨line, hline, rfl⟩ := List.mem_map.mp hp
    rw [List.mem_filter, decide_eq_true_eq] at hline
    exact key_of_assigns (hall line hline.1 hline.2)
  -- The reading stops at the first line that is at fault, so all lines before it are not.
  · intro e h
    rcases entries_cases 1 (lines text.toList) with
      ⟨-, hresult⟩ | ⟨before, line, after, f, hls, hbefore, hline, hbad, hresult⟩
    · rw [parse, hresult] at h
      exact nomatch h
    · rw [parse, hresult, Except.error.injEq] at h
      subst h
      refine ⟨before, line, after, hls, hbefore, hline, hbad, f.code_toError _, ?_⟩
      rw [f.line_toError, Nat.add_comm]
  · intro e other es others h hother
    obtain ⟨hall, hes⟩ := parse_append_lineEnd h e
    obtain ⟨hrest, rfl⟩ := parse_eq_ok_iff.mp hother
    -- Behind a line end the lines of the other text begin, so each text keeps its own.
    have htext : (text ++ .ofList e.text ++ other).toList =
        text.toList ++ (e.text ++ other.toList) := by simp
    rw [parse_eq_ok_iff, htext, lines_append_text, pairs_append, hes]
    exact ⟨List.forall_mem_append.mpr ⟨hall, hrest⟩, rfl⟩

/-- Two texts are put together, of which the one ends with a comment character as a key and the
other has a key twice.  In a third one the word `export` stands before a key of blanks. -/
theorem accepted_putTogether :
    parse "#x=1\n\nexport #=1\r\nA=1\r\n A = 2" = .ok [("#", "1"), ("A", "1"), ("A", "2")] ∧
      ∃ before line after, lines "A=1\n\r\n export  =2\nB".toList = before ++ line :: after ∧
        ¬ Assigns line ∧ toString (before.length + 1) = "3" := by
  obtain ⟨-, -, -, hjoin⟩ := accepted "#x=1\n\nexport #=1"
  obtain ⟨-, -, hfault, -⟩ := accepted "A=1\n\r\n export  =2\nB"
  constructor
  · exact hjoin .returnFeed "A=1\r\n A = 2" [("#", "1")] [("A", "1"), ("A", "2")] rfl rfl
  · obtain ⟨before, line, after, hls, -, -, hbad, -, hnumber⟩ :=
      hfault (Fault.emptyKey.toError 3) rfl
    rw [Fault.line_toError, Option.some.injEq] at hnumber
    exact ⟨before, line, after, hls, hbad, hnumber.symm⟩

end LayeredConfig.Dotenv
