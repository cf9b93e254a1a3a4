import LayeredConfig.Proofs.Bag.Writes
import LayeredConfig.Proofs.Source.Construction
import Mathlib.Data.List.Forall2
import Mathlib.Data.List.Induction

/-!
# What becomes of variables

A variable has the value that the process gives to it, or else the last value that a file gives to
it, where later files outrank earlier ones.  This effective value is all that matters of files and
process, and it matters for mapped variables only.

## Key results

- `EnvSource.readFiles_cases`: all files are read, or the first that cannot be read is told
- `EnvSource.find?_ofList_entries`: the value that counts among all entries
- `EnvSource.Holds.place`: one more variable is placed
- `EnvSource.load_effective`: what becomes of the variables of files and of the process
-/

namespace LayeredConfig

/-- Of pairs with one key the last one counts. -/
theorem Entries.find?_ofList {α : Type} (pairs : List (String × α)) (k : String) :
    (Entries.ofList pairs).find? k = pairs.reverse.lookup k := by
  induction pairs using List.reverseRecOn with
  | nil => rfl
  | append_singleton pairs p ih =>
    have hlast : Entries.ofList (pairs ++ [p]) = (Entries.ofList pairs).insert p.1 p.2 := by
      rw [ofList, List.foldl_append]
      rfl
    rw [hlast, find?_insert, ih, List.reverse_append, List.reverse_singleton, List.singleton_append,
      List.lookup_cons]
    by_cases hk : k = p.1
    · simp [hk]
    · have hne : (k == p.1) = false := beq_eq_false_iff_ne.mpr hk
      rw [if_neg hk, hne]

namespace EnvSource

variable {σ : Type} {files : Files} {paths : List String} {contents : List (List (String × String))}
  {value? : String → Option String} {mappings : SortedMap String String}

/-! ## Files -/

/-- The entries of a file, or why it has none. -/
def entries (files : Files) (path : String) : Except Error (List (String × String)) :=
  files.readText path >>= fun text => (Dotenv.parse text).mapError (·.withContext "path" path)

/-- Files that are all read, with their entries. -/
def Read (files : Files) (paths : List String) (contents : List (List (String × String))) : Prop :=
  List.Forall₂ (fun path es => entries files path = .ok es) paths contents

/-- A file is read as its entries. -/
theorem result_readFile (files : Files) (path : String) (s : σ) :
    (readFile files path s).result = entries files path := by
  simp only [readFile, entries, Act.result_bind, Act.result_ofExcept, Act.state_ofExcept]
  exact bind_congr fun text => bind_pure _

/-- Several files are read as the entries of all, unless one of them has none. -/
theorem result_readFiles_cons (files : Files) (path : String) (rest : List String) (s : σ) :
    (readFiles files (path :: rest) s).result =
      entries files path >>= fun es => (readFiles files rest s).result.map (es ++ ·) := by
  rw [readFiles, Act.result_bind, result_readFile, (blind_readFile files path).state]
  refine bind_congr fun es => ?_
  rw [Act.result_bind]
  cases (readFiles files rest s).result <;> rfl

/-- Files that can be read are read as all their entries, in order. -/
theorem Read.result (h : Read files paths contents) (s : σ) :
    (readFiles files paths s).result = .ok contents.flatten := by
  induction h with
  | nil => rfl
  | cons hfirst _ ih =>
    rw [result_readFiles_cons, hfirst, ih]
    rfl

/-- All files are read, or one of them cannot be read and nothing behind it is tried. -/
theorem readFiles_cases (files : Files) (paths : List String) :
    (∃ contents, Read files paths contents) ∨
      ∃ before path after e, paths = before ++ path :: after ∧
        (∀ p ∈ before, ∃ es, entries files p = .ok es) ∧ entries files path = .error e ∧
        ∀ s : σ, (readFiles files paths s).result = .error e := by
  -- The first file decides if it fails, and else the first failure among the others does.
  induction paths with
  | nil => exact .inl ⟨[], .nil⟩
  | cons path rest ih =>
    cases hfirst : entries files path with
    -- Nothing stands before this file, so nothing has to be readable.
    | error e =>
      refine .inr ⟨[], path, rest, e, rfl, List.forall_mem_nil _, hfirst, ?_⟩
      intro s
      rw [result_readFiles_cons, hfirst]
      rfl
    | ok es =>
      rcases ih with ⟨contents, hrest⟩ | ⟨before, p, after, e, rfl, hbefore, hp, hresult⟩
      · exact .inl ⟨es :: contents, .cons hfirst hrest⟩
      · refine .inr ⟨path :: before, p, after, e, rfl, ?_, hp, ?_⟩
        · exact List.forall_mem_cons.mpr ⟨⟨es, hfirst⟩, hbefore⟩
        · intro s
          rw [result_readFiles_cons, hfirst, hresult]
          rfl

/-! ## Effective values -/

/-- The value that the last entry of a variable gives to it. -/
def lastValue? (name : String) (es : List (String × String)) : Option String :=
  es.reverse.lookup name

/-- The value of a variable: that of the process, or else that of the last file that has one. -/
def effective? (environment : List (String × String)) (contents : List (List (String × String)))
    (name : String) : Option String :=
  (lastValue? name environment).or (contents.reverse.findSome? (lastValue? name))

/-- Entries of later files hide those of earlier ones. -/
theorem lastValue?_append (name : String) (es others : List (String × String)) :
    lastValue? name (es ++ others) = (lastValue? name others).or (lastValue? name es) := by
  rw [lastValue?, List.reverse_append, List.lookup_append]
  rfl

/-- The last file that has any entry for the variable decides. -/
theorem lastValue?_flatten (name : String) (contents : List (List (String × String))) :
    lastValue? name contents.flatten = contents.reverse.findSome? (lastValue? name) := by
  induction contents with
  | nil => rfl
  | cons es contents ih =>
    rw [List.flatten_cons, lastValue?_append, ih, List.reverse_cons, List.findSome?_append]
    simp

/-- What counts among all entries is the effective value. -/
theorem find?_ofList_entries (environment : List (String × String))
    (contents : List (List (String × String))) (name : String) :
    (Entries.ofList (contents.flatten ++ environment)).find? name =
      effective? environment contents name := by
  rw [Entries.find?_ofList, ← lastValue?, lastValue?_append, lastValue?_flatten, effective?]

/-! ## Variables at their paths -/

/-- Write the value of a variable, if it has one, at the path that it is mapped to. -/
def place (value? : String → Option String) (b : Bag) (m : String × String) : Except Error Bag :=
  match value? m.1 with
  | none => .ok b
  | some value =>
    match b.set? m.2 (.string value) with
    | some b => .ok b
    | none => .error (.invalidPath m.2)

/-- A bag holds the values of variables at the paths that they are mapped to, each written over
those before it, and nothing else. -/
structure Holds (value? : String → Option String) (ms : List (String × String)) (b : Bag) :
    Prop where
  /-- No path of a variable that has a value is malformed. -/
  paths : ∀ m ∈ ms, (value? m.1).isSome → ¬ Path.Malformed m.2
  /-- What is no bag is the value of a variable that is mapped there. -/
  mapped : ∀ q v, b.lookup q = some v → v.isBag = false →
    ∃ m ∈ ms, Path.parse? m.2 = some q ∧ ∃ value, value? m.1 = some value ∧ v = .string value
  /-- A value is there unless a later one was written in its place, above it or below it. -/
  found : ∀ before m after value q, ms = before ++ m :: after → value? m.1 = some value →
    Path.parse? m.2 = some q →
    (∀ m' ∈ after, ∀ q', (value? m'.1).isSome → Path.parse? m'.2 = some q' → q'.Apart q) →
    b.lookup q = some (.string value)

/-- Without mappings the bag is empty. -/
theorem holds_nil (value? : String → Option String) : Holds value? [] .nil where
  paths _ hm := nomatch hm
  mapped q v h := by
    rw [Bag.lookup_nil] at h
    exact nomatch h
  found before m after _ _ hms := by simp at hms

/-- An item of a list is the last one, or one of those before it. -/
theorem append_singleton_eq_cases {α : Type} {l before after : List α} {a last : α}
    (h : l ++ [last] = before ++ a :: after) :
    after = [] ∧ a = last ∨ ∃ rest, after = rest ++ [last] ∧ l = before ++ a :: rest := by
  rcases after.eq_nil_or_concat' with rfl | ⟨rest, b, rfl⟩
  · obtain ⟨-, hlast⟩ := List.append_inj' h rfl
    exact .inl ⟨rfl, (List.singleton_inj.mp hlast).symm⟩
  · rw [← List.cons_append, ← List.append_assoc] at h
    obtain ⟨hl, hlast⟩ := List.append_inj' h rfl
    exact .inr ⟨rest, by rw [List.singleton_inj.mp hlast], hl⟩

variable {ms : List (String × String)} {m : String × String} {b : Bag}

/-- A variable without a value leaves no trace. -/
theorem Holds.skip (h : Holds value? ms b) (hm : value? m.1 = none) :
    Holds value? (ms ++ [m]) b where
  paths m' hmem hset := by
    rcases List.mem_append.mp hmem with hmem | hmem
    · exact h.paths m' hmem hset
    · rw [List.mem_singleton.mp hmem, hm] at hset
      exact nomatch hset
  mapped q v hv hbag := by
    obtain ⟨m', hmem, hm'⟩ := h.mapped q v hv hbag
    exact ⟨m', List.mem_append_left _ hmem, hm'⟩
  found before m' after value q hms hvalue hq hafter := by
    obtain ⟨-, rfl⟩ | ⟨rest, rfl, rfl⟩ := append_singleton_eq_cases hms
    · rw [hm] at hvalue
      exact nomatch hvalue
    · exact h.found before m' rest value q rfl hvalue hq fun m'' hmem =>
        hafter m'' (List.mem_append_left _ hmem)

/-- The value of a variable is written over those before it. -/
theorem Holds.write (h : Holds value? ms b) {value : String} (hm : value? m.1 = some value) {p : Path}
    (hp : Path.parse? m.2 = some p) : Holds value? (ms ++ [m]) (b.write p (.string value)) where
  paths m' hmem hset := by
    rcases List.mem_append.mp hmem with hmem | hmem
    · exact h.paths m' hmem hset
    · rw [List.mem_singleton.mp hmem, ← Path.parse?_eq_none_iff, hp]
      exact nofun
  mapped q v hv hbag := by
    obtain ⟨rfl, rfl⟩ | ⟨-, hbefore⟩ := Bag.lookup_write_cases rfl hbag hv
    · exact ⟨m, List.mem_append_right _ List.mem_cons_self, hp, value, hm, rfl⟩
    · obtain ⟨m', hmem, hm'⟩ := h.mapped q v hbefore hbag
      exact ⟨m', List.mem_append_left _ hmem, hm'⟩
  -- The value in question is the one just written, or it was there and the write spares it.
  found before m' after value' q hms hvalue hq hafter := by
    obtain ⟨-, rfl⟩ | ⟨rest, rfl, rfl⟩ := append_singleton_eq_cases hms
    · rw [hm, Option.some.injEq] at hvalue
      rw [hp, Option.some.injEq] at hq
      rw [← hvalue, ← hq, Bag.lookup_write_self]
    · -- The last variable is one of those that were written later.
      have hapart : p.Apart q := hafter m (by simp) p (by rw [hm]; rfl) hp
      rw [Bag.lookup_write_of_apart hapart]
      exact h.found before m' rest value' q rfl hvalue hq fun m'' hmem =>
        hafter m'' (List.mem_append_left _ hmem)

/-- One more variable is placed, unless its path is malformed. -/
theorem Holds.place (h : Holds value? ms b) (m : String × String) :
    (∃ b', place value? b m = .ok b' ∧ Holds value? (ms ++ [m]) b') ∨
      (value? m.1).isSome ∧ Path.Malformed m.2 ∧ place value? b m = .error (.invalidPath m.2) := by
  cases hm : value? m.1 with
  | none => exact .inl ⟨b, by simp only [EnvSource.place, hm], h.skip hm⟩
  | some value =>
    cases hp : Path.parse? m.2 with
    | none =>
      refine .inr ⟨rfl, Path.parse?_eq_none_iff.mp hp, ?_⟩
      simp only [EnvSource.place, hm, Bag.set?, hp, Option.map_none]
    | some p =>
      refine .inl ⟨_, ?_, h.write hm hp⟩
      simp only [EnvSource.place, hm, Bag.set?_of_parse? hp]

/-- All variables are placed, or one of them has a malformed path and those before it have not. -/
theorem foldlM_place (value? : String → Option String) (ms : List (String × String)) :
    (∃ b, ms.foldlM (EnvSource.place value?) .nil = .ok b ∧ Holds value? ms b) ∨
      ∃ before m after b, ms = before ++ m :: after ∧ Holds value? before b ∧
        (value? m.1).isSome ∧ Path.Malformed m.2 ∧
        ms.foldlM (EnvSource.place value?) .nil = .error (.invalidPath m.2) := by
  -- The last mapping is taken off, since it is written last: what the others came to is the
  -- hypothesis.
  induction ms using List.reverseRecOn with
  | nil => exact .inl ⟨.nil, rfl, holds_nil value?⟩
  | append_singleton ms last ih =>
    have hlast : (ms ++ [last]).foldlM (EnvSource.place value?) Entries.nil =
        ms.foldlM (EnvSource.place value?) .nil >>= fun b => EnvSource.place value? b last := by
      simp only [List.foldlM_append, List.foldlM_cons, List.foldlM_nil, bind_pure]
    rw [hlast]
    rcases ih with ⟨b, hb, hholds⟩ | ⟨before, m, after, b, rfl, hholds, hset, hbad, herror⟩
    · rw [hb]
      rcases hholds.place last with hplaced | ⟨hset, hbad, herror⟩
      · exact .inl hplaced
      · exact .inr ⟨ms, last, [], b, rfl, hholds, hset, hbad, herror⟩
    · refine .inr ⟨before, m, after ++ [last], b, by simp, hholds, hset, hbad, ?_⟩
      rw [herror]
      rfl

/-! ## Loading variables -/

/-- A bag holds the values of mapped variables and nothing else.  They were written in the order of
names, each over those before it. -/
structure Shows (value? : String → Option String) (mappings : SortedMap String String) (b : Bag) :
    Prop where
  /-- What is no bag is the value of a variable that is mapped there. -/
  mapped : ∀ q v, b.lookup q = some v → v.isBag = false →
    ∃ name dest value, mappings.find? name = some dest ∧ Path.parse? dest = some q ∧
      value? name = some value ∧ v = .string value
  /-- A value is there unless a variable with a greater name has a value, too, and is mapped to the
  same place, above it or below it. -/
  found : ∀ name dest value q, mappings.find? name = some dest → value? name = some value →
    Path.parse? dest = some q →
    (∀ name' dest' q', name < name' → mappings.find? name' = some dest' → (value? name').isSome →
      Path.parse? dest' = some q' → q'.Apart q) →
    b.lookup q = some (.string value)

/-- What comes of the variables of files and of the process. -/
inductive Verdict (around : Surroundings) (paths : List String)
    (mappings : SortedMap String String) : Except Error Bag → Prop
  /-- A file cannot be read, and those before it can. -/
  | unread {before after : List String} {path : String} {e : Error}
      (hpaths : paths = before ++ path :: after)
      (hbefore : ∀ p ∈ before, ∃ es, entries around.files p = .ok es)
      (h : entries around.files path = .error e) : Verdict around paths mappings (.error e)
  /-- A variable that has a value is mapped to a malformed path, and none before it is. -/
  | astray {contents : List (List (String × String))} {name dest : String}
      (hread : Read around.files paths contents) (hdest : mappings.find? name = some dest)
      (hset : (effective? around.environment contents name).isSome) (hbad : Path.Malformed dest)
      (hfirst : ∀ name' dest', name' < name → mappings.find? name' = some dest' →
        (effective? around.environment contents name').isSome → ¬ Path.Malformed dest') :
      Verdict around paths mappings (.error (.invalidPath dest))
  /-- No variable that has a value is mapped to a malformed path. -/
  | placed {contents : List (List (String × String))} {b : Bag}
      (hread : Read around.files paths contents)
      (hpaths : ∀ name dest, mappings.find? name = some dest →
        (effective? around.environment contents name).isSome → ¬ Path.Malformed dest)
      (h : Shows (effective? around.environment contents) mappings b) :
      Verdict around paths mappings (.ok b)

/-- The keys before and behind an entry are less and greater. -/
theorem lt_of_toList_eq {before after : List (String × String)} {m : String × String}
    (h : mappings.toList = before ++ m :: after) :
    (∀ m' ∈ before, m'.1 < m.1) ∧ ∀ m' ∈ after, m.1 < m'.1 := by
  have hsorted := mappings.pairwise_lt_keys
  rw [Entries.keys, h, List.pairwise_map, List.pairwise_append] at hsorted
  obtain ⟨-, hafter, hbefore⟩ := hsorted
  exact ⟨fun m' hm' => hbefore m' hm' m List.mem_cons_self, (List.pairwise_cons.mp hafter).1⟩

/-- The order of names is that of the entries. -/
theorem Holds.shows (h : Holds value? mappings.toList b) : Shows value? mappings b where
  mapped q v hv hbag := by
    obtain ⟨⟨name, dest⟩, hmem, hq, value, hvalue, hv⟩ := h.mapped q v hv hbag
    exact ⟨name, dest, value, Entries.find?_eq_some_iff_mem.mpr hmem, hq, hvalue, hv⟩
  found name dest value q hdest hvalue hq hapart := by
    obtain ⟨before, after, hms⟩ :=
      List.append_of_mem (Entries.find?_eq_some_iff_mem.mp hdest)
    refine h.found before (name, dest) after value q hms hvalue hq fun m' hm' q' hset hq' => ?_
    have hmem : m' ∈ mappings.toList := by
      rw [hms]
      exact List.mem_append_right _ (List.mem_cons_of_mem _ hm')
    exact hapart m'.1 m'.2 q' ((lt_of_toList_eq hms).2 m' hm')
      (Entries.find?_eq_some_iff_mem.mpr hmem) hset hq'

/-- Of variables that can all be read, the effective values are placed. -/
theorem Read.result_load {around : Surroundings} (h : Read around.files paths contents) (s : σ) :
    (load around paths mappings s).result =
      mappings.toList.foldlM (place (effective? around.environment contents)) .nil := by
  have hvalues : (Entries.ofList (contents.flatten ++ around.environment)).find? =
      effective? around.environment contents :=
    funext fun name => find?_ofList_entries around.environment contents name
  rw [load, Act.result_bind, h.result, ← hvalues]
  exact Act.result_ofExcept _ _

/-- What is placed depends on the values of mapped variables only. -/
theorem foldlM_place_congr {other? : String → Option String} {ms : List (String × String)}
    (h : ∀ m ∈ ms, value? m.1 = other? m.1) (b : Bag) :
    ms.foldlM (place value?) b = ms.foldlM (place other?) b := by
  induction ms generalizing b with
  | nil => rfl
  | cons m ms ih =>
    obtain ⟨hm, hms⟩ := List.forall_mem_cons.mp h
    have hplace : place value? b m = place other? b m := by rw [place, place, hm]
    rw [List.foldlM_cons, List.foldlM_cons, hplace]
    exact bind_congr fun b' => ih hms b'

/-- What comes of the variables of files and of the process, and that it is the same wherever the
mapped variables have the same effective values. -/
theorem load_effective (around : Surroundings) (paths : List String)
    (mappings : SortedMap String String) (s : σ) :
    Verdict around paths mappings (load around paths mappings s).result ∧
      ∀ (around' : Surroundings) (paths' : List String) (s' : σ)
        (contents contents' : List (List (String × String))),
        Read around.files paths contents → Read around'.files paths' contents' →
        (∀ name ∈ mappings.keys, effective? around.environment contents name =
          effective? around'.environment contents' name) →
        (load around' paths' mappings s').result = (load around paths mappings s).result := by
  constructor
  · obtain ⟨contents, hread⟩ | ⟨before, path, after, e, hpaths, hbefore, he, hresult⟩ :=
      readFiles_cases around.files paths
    · rw [hread.result_load]
      rcases foldlM_place (effective? around.environment contents) mappings.toList with
        ⟨b, hb, hholds⟩ | ⟨before, m, after, b, hms, hholds, hset, hbad, herror⟩
      · rw [hb]
        refine .placed hread (fun name dest hdest hset => ?_) hholds.shows
        exact hholds.paths (name, dest) (Entries.find?_eq_some_iff_mem.mp hdest) hset
      · rw [herror]
        have hmem : m ∈ mappings.toList := hms ▸ List.mem_append_right _ List.mem_cons_self
        refine .astray hread (Entries.find?_eq_some_iff_mem.mpr hmem) hset hbad ?_
        intro name' dest' hlt hdest' hset'
        have hmem' := Entries.find?_eq_some_iff_mem.mp hdest'
        rw [hms, List.mem_append, List.mem_cons] at hmem'
        -- A name that is less is not the one itself and none behind it.
        rcases hmem' with hbefore | rfl | hafter
        · exact hholds.paths _ hbefore hset'
        · exact absurd hlt (String.lt_irrefl _)
        · exact absurd hlt (String.lt_asymm ((lt_of_toList_eq hms).2 _ hafter))
    · rw [load, Act.result_bind, hresult]
      exact .unread hpaths hbefore he
  -- Both runs fold over the same mappings, and agree on the value of each.
  · intro around' paths' s' contents contents' hread hread' hvalues
    rw [hread.result_load, hread'.result_load]
    exact (foldlM_place_congr (fun m hm => hvalues m.1 (List.mem_map_of_mem hm)) _).symm

/-- A file and its successor, with a variable that comes twice. -/
def twoFiles : Surroundings where
  files :=
    { openAt := fun path =>
        if path = "a.env" then .ok (.file (.ofString "A=1\nB=2\nA=3\n"))
        else if path = "b.env" then .ok (.file (.ofString "B=5\n"))
        else .error .notFound
      appendAt := fun _ => .error .notFound }
  environment := [("C", "x"), ("HOME", "/")]

/-- No file, and the same effective values from the process alone. -/
def noFiles : Surroundings := ⟨.none, [("A", "3"), ("B", "5"), ("C", "x"), ("D", "not mapped")]⟩

/-- The second of these values gives way to the third one, which is written below it. -/
def overlapping : SortedMap String String :=
  .ofList [("A", "x.y"), ("B", "z"), ("C", "z.x"), ("E", "..")]

/-- Wherever the values come from, the bag is the same. -/
theorem load_effective_twoFiles :
    (load twoFiles ["a.env", "b.env"] overlapping ()).result =
        (load noFiles [] overlapping ()).result ∧
      ∃ b, (load noFiles [] overlapping ()).result = .ok b ∧
        b.get? "x.y" = some (.string "3") ∧ b.get? "z.x" = some (.string "x") := by
  have hread : Read twoFiles.files ["a.env", "b.env"]
      [[("A", "1"), ("B", "2"), ("A", "3")], [("B", "5")]] := .cons rfl (.cons rfl .nil)
  have hnone : Read noFiles.files [] [] := .nil
  obtain ⟨-, hsame⟩ := load_effective noFiles [] overlapping ()
  refine ⟨hsame twoFiles _ () [] _ hnone hread (by decide), _, rfl, rfl, rfl⟩

end EnvSource
end LayeredConfig
