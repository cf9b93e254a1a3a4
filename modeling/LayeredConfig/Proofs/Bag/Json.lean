import LayeredConfig.Populate

/-!
# Values as documents

A value becomes a document of the same depth, from which it can be read back unless it holds floats
that are not finite.  Conversely, a document is that of the value that it is read as, unless it
holds integers that are too large.

## Key results

- `Value.eq_of_same`: deep equality without floats
- `Value.ofJson_toJson`: what the document of a value is read back as
- `Value.toJson_ofJson`: what the value of a document is written as
- `Value.compactChars_toJson`: a value's own text is that of its document
- `Value.depth_toJson` and `Value.hasReal_toJson`: what the document looks like
-/

namespace LayeredConfig

/-! ## Floats and depth -/

namespace Json

mutual

/-- Whether some number of a document is no integer. -/
def hasReal : Json → Bool
  | .number (.real ..) => true
  | .array items => itemsHaveReal items
  | .object members => membersHaveReal members
  | _ => false

def itemsHaveReal : List Json → Bool
  | [] => false
  | item :: rest => hasReal item || itemsHaveReal rest

def membersHaveReal {lo : Option String} : Entries String Json lo → Bool
  | .nil => false
  | .cons _ v _ rest => hasReal v || membersHaveReal rest

end

mutual

/-- How many arrays and objects of a document lie in each other. -/
def depth : Json → Nat
  | .array items => itemsDepth items + 1
  | .object members => membersDepth members + 1
  | _ => 0

def itemsDepth : List Json → Nat
  | [] => 0
  | item :: rest => max (depth item) (itemsDepth rest)

def membersDepth {lo : Option String} : Entries String Json lo → Nat
  | .nil => 0
  | .cons _ v _ rest => max (depth v) (membersDepth rest)

end

mutual

/-- Whether all integers of a document fit 64 signed bits. -/
def integersFit : Json → Bool
  | .number (.integer i _) => i < 9223372036854775808
  | .array items => itemsFit items
  | .object members => membersFit members
  | _ => true

def itemsFit : List Json → Bool
  | [] => true
  | item :: rest => integersFit item && itemsFit rest

def membersFit {lo : Option String} : Entries String Json lo → Bool
  | .nil => true
  | .cons _ v _ rest => integersFit v && membersFit rest

end

end Json

namespace Value

mutual

/-- Whether there is a float in a value. -/
def hasFloat : Value → Bool
  | .float _ => true
  | .list items => itemsHaveFloat items
  | .bag entries => entriesHaveFloat entries
  | _ => false

def itemsHaveFloat : List Value → Bool
  | [] => false
  | item :: rest => hasFloat item || itemsHaveFloat rest

def entriesHaveFloat {lo : Option String} : Entries String Value lo → Bool
  | .nil => false
  | .cons _ v _ rest => hasFloat v || entriesHaveFloat rest

end

mutual

/-- Whether all floats in a value are finite. -/
def isFinite : Value → Bool
  | .float x => x.isFinite
  | .list items => itemsAreFinite items
  | .bag entries => entriesAreFinite entries
  | _ => true

def itemsAreFinite : List Value → Bool
  | [] => true
  | item :: rest => isFinite item && itemsAreFinite rest

def entriesAreFinite {lo : Option String} : Entries String Value lo → Bool
  | .nil => true
  | .cons _ v _ rest => isFinite v && entriesAreFinite rest

end

mutual

/-- The value with `null` in place of every float that is not finite. -/
def dropNonfinite : Value → Value
  | .float x => if x.isFinite then .float x else .null
  | .list items => .list (dropNonfiniteItems items)
  | .bag entries => .bag (dropNonfiniteEntries entries)
  | v => v

def dropNonfiniteItems : List Value → List Value
  | [] => []
  | item :: rest => dropNonfinite item :: dropNonfiniteItems rest

def dropNonfiniteEntries {lo : Option String} : Entries String Value lo → Entries String Value lo
  | .nil => .nil
  | .cons k v above rest => .cons k (dropNonfinite v) above (dropNonfiniteEntries rest)

end

mutual

/-- How many lists and bags of a value lie in each other. -/
def depth : Value → Nat
  | .list items => itemsDepth items + 1
  | .bag entries => entriesDepth entries + 1
  | _ => 0

def itemsDepth : List Value → Nat
  | [] => 0
  | item :: rest => max (depth item) (itemsDepth rest)

def entriesDepth {lo : Option String} : Entries String Value lo → Nat
  | .nil => 0
  | .cons _ v _ rest => max (depth v) (entriesDepth rest)

end

mutual

/-- Deep equality is equality where there are no floats. -/
theorem eq_of_same : ∀ {a b : Value}, a.hasFloat = false → same a b = true → a = b
  | .null, .null, _, _ => rfl
  | .bool _, .bool _, _, h => congrArg Value.bool (eq_of_beq h)
  | .int _, .int _, _, h => congrArg Value.int (eq_of_beq h)
  | .string _, .string _, _, h => congrArg Value.string (eq_of_beq h)
  | .list _, .list _, hf, h => congrArg Value.list (eq_of_sameItems hf h)
  | .bag _, .bag _, hf, h => congrArg Value.bag (eq_of_sameEntries hf h)

/-- So it is item by item. -/
theorem eq_of_sameItems : ∀ {as bs : List Value}, itemsHaveFloat as = false →
    sameItems as bs = true → as = bs
  | [], [], _, _ => rfl
  | a :: as, b :: bs, hf, h => by
    rw [itemsHaveFloat, Bool.or_eq_false_iff] at hf
    rw [sameItems, Bool.and_eq_true] at h
    rw [eq_of_same hf.1 h.1, eq_of_sameItems hf.2 h.2]

theorem eq_of_sameEntries {lo : Option String} : ∀ {a b : Entries String Value lo},
    entriesHaveFloat a = false → sameEntries a b = true → a = b
  | .nil, .nil, _, _ => rfl
  | .cons k v above rest, .cons k' v' above' rest', hf, h => by
    rw [entriesHaveFloat, Bool.or_eq_false_iff] at hf
    rw [sameEntries, Bool.and_eq_true, Bool.and_eq_true] at h
    obtain ⟨⟨hk, hv⟩, hrest⟩ := h
    obtain rfl := eq_of_beq hk
    rw [eq_of_same hf.1 hv, eq_of_sameEntries hf.2 hrest]

end

/-! ## Documents of values -/

mutual

/-- A value and its document are equally deep. -/
theorem depth_toJson : ∀ v : Value, v.toJson.depth = v.depth
  | .null => rfl
  | .bool _ => rfl
  | .int _ => rfl
  | .float x => by
    rw [toJson, Json.ofBinary64]
    split <;> rfl
  | .string _ => rfl
  | .list items => congrArg (· + 1) (depth_toJsonItems items)
  | .bag entries => congrArg (· + 1) (depth_toJsonEntries entries)

theorem depth_toJsonItems : ∀ items : List Value,
    Json.itemsDepth (toJsonItems items) = itemsDepth items
  | [] => rfl
  | item :: rest => by
    rw [toJsonItems, Json.itemsDepth, depth_toJson item, depth_toJsonItems rest, itemsDepth]

theorem depth_toJsonEntries {lo : Option String} : ∀ entries : Entries String Value lo,
    Json.membersDepth (toJsonEntries entries) = entriesDepth entries
  | .nil => rfl
  | .cons _ v _ rest => by
    rw [toJsonEntries, Json.membersDepth, depth_toJson v, depth_toJsonEntries rest, entriesDepth]

end

mutual

/-- Without floats all numbers of the document are integers. -/
theorem hasReal_toJson : ∀ {v : Value}, v.hasFloat = false → v.toJson.hasReal = false
  | .null, _ => rfl
  | .bool _, _ => rfl
  | .int _, _ => rfl
  | .float _, h => nomatch h
  | .string _, _ => rfl
  | .list _, h => hasReal_toJsonItems h
  | .bag _, h => hasReal_toJsonEntries h

theorem hasReal_toJsonItems : ∀ {items : List Value}, itemsHaveFloat items = false →
    Json.itemsHaveReal (toJsonItems items) = false
  | [], _ => rfl
  | _ :: _, h => by
    rw [itemsHaveFloat, Bool.or_eq_false_iff] at h
    rw [toJsonItems, Json.itemsHaveReal, hasReal_toJson h.1, hasReal_toJsonItems h.2, Bool.or_false]

theorem hasReal_toJsonEntries {lo : Option String} : ∀ {entries : Entries String Value lo},
    entriesHaveFloat entries = false → Json.membersHaveReal (toJsonEntries entries) = false
  | .nil, _ => rfl
  | .cons .., h => by
    rw [entriesHaveFloat, Bool.or_eq_false_iff] at h
    rw [toJsonEntries, Json.membersHaveReal, hasReal_toJson h.1, hasReal_toJsonEntries h.2,
      Bool.or_false]

end

/-! ## There and back -/

mutual

/-- A value without floats has none that is not finite. -/
theorem isFinite_of_hasFloat : ∀ {v : Value}, v.hasFloat = false → v.isFinite = true
  | .null, _ => rfl
  | .bool _, _ => rfl
  | .int _, _ => rfl
  | .float _, h => nomatch h
  | .string _, _ => rfl
  | .list _, h => itemsAreFinite_of_hasFloat h
  | .bag _, h => entriesAreFinite_of_hasFloat h

theorem itemsAreFinite_of_hasFloat : ∀ {items : List Value}, itemsHaveFloat items = false →
    itemsAreFinite items = true
  | [], _ => rfl
  | _ :: _, h => by
    rw [itemsHaveFloat, Bool.or_eq_false_iff] at h
    rw [itemsAreFinite, isFinite_of_hasFloat h.1, itemsAreFinite_of_hasFloat h.2, Bool.and_true]

theorem entriesAreFinite_of_hasFloat {lo : Option String} : ∀ {entries : Entries String Value lo},
    entriesHaveFloat entries = false → entriesAreFinite entries = true
  | .nil, _ => rfl
  | .cons .., h => by
    rw [entriesHaveFloat, Bool.or_eq_false_iff] at h
    rw [entriesAreFinite, isFinite_of_hasFloat h.1, entriesAreFinite_of_hasFloat h.2, Bool.and_true]

end

mutual

/-- There is nothing to drop of a value whose floats are finite. -/
theorem dropNonfinite_eq_self : ∀ {v : Value}, v.isFinite = true → v.dropNonfinite = v
  | .null, _ => rfl
  | .bool _, _ => rfl
  | .int _, _ => rfl
  | .float _, h => if_pos h
  | .string _, _ => rfl
  | .list _, h => congrArg Value.list (dropNonfiniteItems_eq_self h)
  | .bag _, h => congrArg Value.bag (dropNonfiniteEntries_eq_self h)

/-- Nor is there of such items. -/
theorem dropNonfiniteItems_eq_self : ∀ {items : List Value}, itemsAreFinite items = true →
    dropNonfiniteItems items = items
  | [], _ => rfl
  | _ :: _, h => by
    rw [itemsAreFinite, Bool.and_eq_true] at h
    rw [dropNonfiniteItems, dropNonfinite_eq_self h.1, dropNonfiniteItems_eq_self h.2]

theorem dropNonfiniteEntries_eq_self {lo : Option String} : ∀ {entries : Entries String Value lo},
    entriesAreFinite entries = true → dropNonfiniteEntries entries = entries
  | .nil, _ => rfl
  | .cons .., h => by
    rw [entriesAreFinite, Bool.and_eq_true] at h
    rw [dropNonfiniteEntries, dropNonfinite_eq_self h.1, dropNonfiniteEntries_eq_self h.2]

end

mutual

/-- A value is read back from its document, up to floats that are not finite. -/
theorem ofJson_toJson : ∀ v : Value, ofJson v.toJson = v.dropNonfinite
  | .null => rfl
  | .bool _ => rfl
  -- An integer of 64 bits is read back, as it fits.
  | .int i => by
    rw [toJson, Json.ofInt64, ofJson, ofNumber, Int64.ofInt?_eq_some_iff.mpr rfl]
    rfl
  | .float x => by
    rw [toJson, Json.ofBinary64, dropNonfinite]
    split <;> rfl
  | .string _ => rfl
  | .list items => congrArg Value.list (ofJsonItems_toJsonItems items)
  | .bag entries => congrArg Value.bag (ofJsonMembers_toJsonEntries entries)

/-- So are items. -/
theorem ofJsonItems_toJsonItems : ∀ items : List Value,
    ofJsonItems (toJsonItems items) = dropNonfiniteItems items
  | [] => rfl
  | item :: rest => by
    rw [toJsonItems, ofJsonItems, ofJson_toJson item, ofJsonItems_toJsonItems rest,
      dropNonfiniteItems]

theorem ofJsonMembers_toJsonEntries {lo : Option String} : ∀ entries : Entries String Value lo,
    ofJsonMembers (toJsonEntries entries) = dropNonfiniteEntries entries
  | .nil => rfl
  | .cons _ v _ rest => by
    rw [toJsonEntries, ofJsonMembers, ofJson_toJson v, ofJsonMembers_toJsonEntries rest,
      dropNonfiniteEntries]

end

/-- An integer that fits 64 signed bits stays the same number, and so does every float. -/
theorem toJson_ofNumber {n : Json.Number} (h : (Json.number n).integersFit = true) :
    (ofNumber n).toJson = .number n := by
  cases n with
  | integer i range =>
    have hfits : i < 9223372036854775808 := of_decide_eq_true h
    -- The lower bound is that of all numbers in documents, and the upper one is the hypothesis.
    obtain ⟨w, hw⟩ : ∃ w, Int64.ofInt? i = some w := ⟨_, if_pos ⟨range.1, hfits⟩⟩
    obtain rfl := Int64.ofInt?_eq_some_iff.mp hw
    rw [ofNumber, hw]
    rfl
  | real x finite =>
    rw [ofNumber, toJson, Json.ofBinary64, dif_pos finite]

mutual

/-- A document whose integers fit 64 signed bits is that of its value. -/
theorem toJson_ofJson : ∀ {j : Json}, j.integersFit = true → (ofJson j).toJson = j
  | .null, _ => rfl
  | .bool _, _ => rfl
  | .number _, h => toJson_ofNumber h
  | .string _, _ => rfl
  | .array _, h => congrArg Json.array (toJsonItems_ofJsonItems h)
  | .object _, h => congrArg Json.object (toJsonEntries_ofJsonMembers h)

/-- So it is item by item. -/
theorem toJsonItems_ofJsonItems : ∀ {items : List Json}, Json.itemsFit items = true →
    toJsonItems (ofJsonItems items) = items
  | [], _ => rfl
  | _ :: _, h => by
    rw [Json.itemsFit, Bool.and_eq_true] at h
    rw [ofJsonItems, toJsonItems, toJson_ofJson h.1, toJsonItems_ofJsonItems h.2]

theorem toJsonEntries_ofJsonMembers {lo : Option String} : ∀ {members : Entries String Json lo},
    Json.membersFit members = true → toJsonEntries (ofJsonMembers members) = members
  | .nil, _ => rfl
  | .cons .., h => by
    rw [Json.membersFit, Bool.and_eq_true] at h
    rw [ofJsonMembers, toJsonEntries, toJson_ofJson h.1, toJsonEntries_ofJsonMembers h.2]

end

mutual

/-- The text that a value has of its own is the text of its document. -/
theorem compactChars_toJson : ∀ v : Value, v.toJson.compactChars = v.compactChars
  | .null => rfl
  | .bool _ => rfl
  | .int _ => rfl
  | .float x => by
    rw [toJson, Json.ofBinary64, compactChars]
    -- A float that is not finite is written as the word that its document is.
    split <;> rfl
  | .string _ => rfl
  | .list items => congrArg ('[' :: ·) (compactItems_toJsonItems true items)
  | .bag entries => congrArg ('\x7b' :: ·) (compactMembers_toJsonEntries true entries)

/-- So it is item by item, with a comma before all but the first. -/
theorem compactItems_toJsonItems (first : Bool) : ∀ items : List Value,
    Json.compactItems first (toJsonItems items) = compactItems first items
  | [] => rfl
  | item :: rest => by
    rw [toJsonItems, Json.compactItems, compactChars_toJson item,
      compactItems_toJsonItems false rest, compactItems]

/-- So it is entry by entry, with a comma before all but the first. -/
theorem compactMembers_toJsonEntries (first : Bool) {lo : Option String} :
    ∀ entries : Entries String Value lo,
      Json.compactMembers first (toJsonEntries entries) = compactEntries first entries
  | .nil => rfl
  | .cons _ v _ rest => by
    rw [toJsonEntries, Json.compactMembers, compactChars_toJson v,
      compactMembers_toJsonEntries false rest, compactEntries]

end

/-- A value whose floats are finite is read back from its document. -/
theorem ofJson_toJson_of_isFinite {v : Value} (h : v.isFinite = true) : ofJson v.toJson = v := by
  rw [ofJson_toJson, dropNonfinite_eq_self h]

end Value

/-- A bag whose floats are finite is read back from its document. -/
theorem Bag.ofJson_toJson {b : Bag} (h : (Value.bag b).isFinite = true) :
    Bag.ofJson b.toJson = .ok b := by
  have hvalue : Value.ofJson b.toJson = .bag b := Value.ofJson_toJson_of_isFinite h
  rw [Bag.ofJson, hvalue]
  rfl

/-- Deep equality, as far as it can be computed, of a result with a bag without floats. -/
theorem Bag.eq_ok_of_any {r : Except Error Bag} {b : Bag} (hwhole : (Value.bag b).hasFloat = false)
    (h : r.toOption.any (b == ·) = true) : r = .ok b := by
  cases r with
  | error e => exact nomatch h
  | ok b' => exact congrArg Except.ok (Value.eq_of_sameEntries hwhole h).symm

end LayeredConfig
