import LayeredConfig.Log.Stream
import LayeredConfig.Proofs.Actions

/-!
# The level of a console stream

A definition may name the least level that a console stream wants, and the configuration may name
one for the streams that do not.  The first of the two entries that is a string decides, and it has
to name a level.

An entry of another type does not decide.  It is passed over as if it were not there, although a
text that names no level is refused in the same place.

## Key results

- `Level.parse_eq_ok_iff`: the texts that name a level
- `Console.configuredLevel_of_spelled?_eq_some`: the entry that decides is read or refused
- `Console.levelled`: what a console stream is built with
- `Console.levelled_passed_over`: an entry of another type is passed over
-/

namespace LayeredConfig

/-! ## Texts that name levels -/

namespace Level

/-- The texts in small letters that name a level. -/
def spellings : Level → List String
  | .warning => ["warning", "warn"]
  | level => [level.name]

/-- Whether a text names a level, between blanks and in any case of its letters. -/
def Names (text : String) (level : Level) : Prop :=
  String.ofList ((Text.trim text.toList).map Char.toLower) ∈ level.spellings

instance (text : String) (level : Level) : Decidable (Names text level) :=
  inferInstanceAs (Decidable (_ ∈ level.spellings))

/-- Levels are told apart by their names. -/
theorem ofName?_eq_some_iff {name : String} {level : Level} :
    ofName? name = some level ↔ name = level.name := by
  constructor
  · intro h
    have hname := List.find?_some h
    exact (beq_iff_eq.mp hname).symm
  · rintro rfl
    cases level <;> rfl

/-- A text is read as the level that it names. -/
theorem parse_eq_ok_iff {text : String} {level : Level} :
    parse text = .ok level ↔ Names text level := by
  rw [parse, Names]
  generalize String.ofList ((Text.trim text.toList).map Char.toLower) = name
  -- The short form is the name of no level.
  have hspelled : name ∈ level.spellings ↔
      (if name = "warn" then some .warning else ofName? name) = some level := by
    by_cases hwarn : name = "warn"
    · subst hwarn
      cases level <;> decide
    · rw [if_neg hwarn, ofName?_eq_some_iff]
      cases level <;> simp [spellings, Level.name, hwarn]
  rw [hspelled]
  cases if name = "warn" then some .warning else ofName? name <;> simp

/-- A text names a level, or it is refused. -/
theorem parse_cases (text : String) :
    (∃ level, Names text level ∧ parse text = .ok level) ∨
      (∀ level, ¬ Names text level) ∧ ∃ e, parse text = .error e := by
  cases h : parse text with
  | ok level => exact .inl ⟨level, parse_eq_ok_iff.mp h, rfl⟩
  | error e =>
    refine .inr ⟨fun level hnames => ?_, e, rfl⟩
    rw [parse_eq_ok_iff.mpr hnames] at h
    cases h

end Level

namespace Console

variable {σ : Type} {id text : String} {fields view : Bag}

/-! ## The entry that decides -/

/-- The first of two lookups that gives a string, the one in the definition before the one in the
configuration. -/
def spelled? (fields view : Bag) : Option String :=
  (fields.string? "level").or (view.string? "log.default_level")

/-- The value at a path, unless it is null. -/
def present? (b : Bag) (path : String) : Option Value := (b.get? path).filter (! Value.isNull ·)

/-- The first of the two lookups that gives anything but null. -/
def decisive? (fields view : Bag) : Option Value :=
  (present? fields "level").or (present? view "log.default_level")

/-- A lookup that gives a string, null or nothing. -/
theorem present?_cases (b : Bag) (path : String) :
    present? b path = (b.string? path).map .string ∨
      ∃ v, present? b path = some v ∧ ∀ text, v ≠ .string text := by
  simp only [present?, Bag.string?]
  cases b.get? path with
  | none => exact .inl rfl
  | some v =>
    -- Null counts as nothing, and a value of another type is present but is no string.
    cases v with
    | null | string => exact .inl rfl
    | bool | int | float | list | bag => exact .inr ⟨_, rfl, nofun⟩

/-- If the first entry is a string, it is the first string. -/
theorem decisive?_of_string (h : ∀ v, decisive? fields view = some v → ∃ text, v = .string text) :
    decisive? fields view = (spelled? fields view).map .string := by
  rw [decisive?] at h ⊢
  rw [spelled?]
  obtain hfields | ⟨v, hfields, hother⟩ := present?_cases fields "level"
  · rw [hfields] at h ⊢
    cases hlevel : fields.string? "level" with
    | some text => rfl
    -- A definition without a level leaves it to the configuration.
    | none =>
      rw [hlevel] at h
      obtain hview | ⟨v, hview, hother⟩ := present?_cases view "log.default_level"
      · exact hview
      · obtain ⟨text, rfl⟩ := h v hview
        exact absurd rfl (hother text)
  · rw [hfields] at h
    obtain ⟨text, rfl⟩ := h v rfl
    exact absurd rfl (hother text)

/-- Without a string anywhere the level is `info`. -/
theorem configuredLevel_of_spelled?_eq_none (h : spelled? fields view = none) :
    configuredLevel ⟨id, fields, none⟩ view = .ok .info := by
  have hentry : (fields.string? "level").or (view.string? defaultLevelPath) = none := h
  simp only [configuredLevel, hentry]

/-- The entry that decides names the level.  If it names none, it is told with the refusal. -/
theorem configuredLevel_of_spelled?_eq_some (h : spelled? fields view = some text) :
    configuredLevel ⟨id, fields, none⟩ view = (Level.parse text).mapError fun _ =>
      (Error.invalidConfig id "level").withContext "value" text := by
  have hentry : (fields.string? "level").or (view.string? defaultLevelPath) = some text := h
  simp only [configuredLevel, hentry]
  rfl

/-! ## Building a console stream -/

/-- What a console stream is built with, in view of the entry that decides on its level.  The level
is looked at before the channels. -/
structure Levelled (id : String) (entry : Option Value) (channels : Except Error (List String))
    (built : Except Error Console) : Prop where
  /-- Without an entry the level is `info`. -/
  unset : entry = none → built = channels.map (⟨id, .info, ·⟩)
  /-- A string is read as the name of a level. -/
  named : ∀ {text level}, entry = some (.string text) → Level.Names text level →
    built = channels.map (⟨id, level, ·⟩)
  /-- Any other entry is refused. -/
  refused : ∀ {v}, entry = some v → (∀ text level, v = .string text → ¬ Level.Names text level) →
    ∃ e, built = .error e ∧ e.code = .invalidResourceConfig ∧ e.field? = some "level"

/-- The level comes first, and then the channels. -/
theorem ofDefinition_eq (d : Definition) (view : Bag) :
    ofDefinition d view = configuredLevel d view >>= fun level =>
      (d.strings "channels").map (⟨d.id, level, ·⟩) := by
  rw [ofDefinition]
  refine bind_congr fun level => ?_
  cases d.strings "channels" <;> rfl

/-- The first string decides, whatever else stands before it. -/
theorem levelled_spelled? (id : String) (fields view : Bag) :
    Levelled id ((spelled? fields view).map .string)
      (Definition.strings ⟨id, fields, none⟩ "channels")
      (ofDefinition ⟨id, fields, none⟩ view) where
  unset h := by
    rw [ofDefinition_eq, configuredLevel_of_spelled?_eq_none (Option.map_eq_none_iff.mp h)]
    rfl
  named {text level} h hnames := by
    obtain ⟨found, hfound, heq⟩ := Option.map_eq_some_iff.mp h
    obtain rfl : found = text := Value.string.inj heq
    rw [ofDefinition_eq, configuredLevel_of_spelled?_eq_some hfound,
      Level.parse_eq_ok_iff.mpr hnames]
    rfl
  refused {v} h hnames := by
    obtain ⟨text, htext, rfl⟩ := Option.map_eq_some_iff.mp h
    rw [ofDefinition_eq, configuredLevel_of_spelled?_eq_some htext]
    -- The text names no level, so the parser of levels refuses it.
    obtain ⟨level, hlevel, -⟩ | ⟨-, e, he⟩ := Level.parse_cases text
    · exact absurd hlevel (hnames text level rfl)
    · rw [he]
      exact ⟨_, rfl, rfl, rfl⟩

/-- To build a stream is to build its console, and the configuration stays as it is. -/
theorem consoleCreator_apply (id : String) (fields : Bag) (c : Config) :
    (Stream.consoleCreator id fields c : Outcome Config (Stream σ)) =
      ⟨(ofDefinition ⟨id, fields, none⟩ c.merged).map stream, c, []⟩ := by
  rw [Stream.consoleCreator, Act.current_bind]
  cases ofDefinition ⟨id, fields, none⟩ c.merged <;> rfl

/-- A console stream is built with the level that the first string names, or is refused if it names
none.  The first entry decides in this way if it is a string. -/
theorem levelled (id : String) (fields : Bag) (c : Config) :
    let channels := Definition.strings ⟨id, fields, none⟩ "channels"
    ∃ built, (Stream.consoleCreator id fields c : Outcome Config (Stream σ)).result =
        built.map stream ∧
      Levelled id ((spelled? fields c.merged).map .string) channels built ∧
      ((∀ v, decisive? fields c.merged = some v → ∃ text, v = .string text) →
        Levelled id (decisive? fields c.merged) channels built) := by
  refine ⟨_, congrArg Outcome.result (consoleCreator_apply id fields c),
    levelled_spelled? id fields c.merged, fun h => ?_⟩
  rw [decisive?_of_string h]
  exact levelled_spelled? id fields c.merged

/-- A configuration with a default level. -/
def withDefault (level : Value) : Config :=
  (Config.enact (.addSource "base" 0
    (.ofList [("log", .bag (.ofList [("default_level", level)]))])) .empty).state

/-- A level that is null leaves it to the configuration, which may spell it in its own way. -/
theorem levelled_null :
    let fields : Bag := .ofList [("channels", .list [.string "app"]), ("level", .null)]
    let c := withDefault (.string " Warn ")
    decisive? fields c.merged = some (.string " Warn ") ∧
      (Stream.consoleCreator "s" fields c : Outcome Config (Stream Unit)).result =
        .ok (stream ⟨"s", .warning, ["app"]⟩) := by
  intro fields c
  have hentry : decisive? fields c.merged = some (.string " Warn ") := rfl
  obtain ⟨built, hresult, -, h⟩ := levelled (σ := Unit) "s" fields c
  have hnames : Level.Names " Warn " .warning := by decide
  have hbuilt : built = .ok ⟨"s", .warning, ["app"]⟩ :=
    (h fun v hv => ⟨_, (Option.some.inj (hentry.symm.trans hv)).symm⟩).named hentry hnames
  exact ⟨hentry, hresult.trans (congrArg (Except.map stream) hbuilt)⟩

/-- A level that is a number is passed over in favour of the default, where the text `3` would be
refused. -/
theorem levelled_passed_over :
    let fields : Bag := .ofList [("level", .int 3)]
    let c := withDefault (.string "error")
    decisive? fields c.merged = some (.int 3) ∧
      (Stream.consoleCreator "s" fields c : Outcome Config (Stream Unit)).result =
        .ok (stream ⟨"s", .error, []⟩) ∧
      ¬ Levelled "s" (decisive? fields c.merged)
        (Definition.strings ⟨"s", fields, none⟩ "channels") (.ok ⟨"s", .error, []⟩) := by
  -- The entry that decides is the number, and by the rule it would have to be refused.
  refine ⟨rfl, rfl, fun h => ?_⟩
  obtain ⟨e, he, -⟩ := h.refused (v := .int 3) rfl nofun
  cases he

end Console
end LayeredConfig
