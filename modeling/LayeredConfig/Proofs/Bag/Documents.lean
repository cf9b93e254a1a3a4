import LayeredConfig.Proofs.Bag.Json

/-!
# What documents keep of values

JSON has no number for NaN and the infinities, and values have no integers beyond 64 signed bits.
Nothing else is lost between values and documents: not when a value becomes a document, not when it
is written as text, and not when it is read into another value or bag.

## Key results

- `Bag.populate_value` and `Bag.populate_bag`: what a whole bag is read as
- `Bag.populateAt_value` and `Bag.populateAt_bag`: what is read at a path
- `Value.converted`: the three conversions together
-/

namespace LayeredConfig

namespace Bag

variable {b inner : Bag} {v : Value} {path : String}

/-- A bag is read as a value of its own kind, without the floats that documents cannot hold. -/
theorem populate_value (b : Bag) :
    b.populate Decoder.value = .ok (.bag (Value.dropNonfiniteEntries b)) := by
  have hvalue : Value.ofJson b.toJson = _ := Value.ofJson_toJson (.bag b)
  rw [populate, Decoder.value, hvalue]
  rfl

theorem populate_bag (b : Bag) : b.populate Decoder.bag = .ok (Value.dropNonfiniteEntries b) := by
  have hvalue : Value.ofJson b.toJson = _ := Value.ofJson_toJson (.bag b)
  rw [populate, Decoder.bag, hvalue]
  rfl

/-- At a path the value there is read. -/
theorem populateAt_value (h : b.get? path = some v) :
    b.populateAt Decoder.value path = .ok v.dropNonfinite := by
  simp only [populateAt, h, Decoder.value, Value.ofJson_toJson]
  rfl

theorem populateAt_bag (h : b.get? path = some (.bag inner)) :
    b.populateAt Decoder.bag path = .ok (Value.dropNonfiniteEntries inner) := by
  simp only [populateAt, h, Decoder.bag, Value.ofJson_toJson]
  rfl

end Bag

/-- A value survives the way through its document except for floats that are not finite, and a
document the way through its value if its integers fit.  A value's own text is that of its document.
A bag with finite floats is therefore read as what it is, as a whole and at each path. -/
theorem Value.converted (v : Value) (j : Json) (b : Bag) (path : String) :
    ofJson v.toJson = v.dropNonfinite ∧
    (j.integersFit = true → (ofJson j).toJson = j) ∧
    v.compact = v.toJson.compact ∧ b.compact = b.toJson.compact ∧
    ((Value.bag b).isFinite = true →
      b.populate Decoder.value = .ok (.bag b) ∧ b.populate Decoder.bag = .ok b) ∧
    (v.isFinite = true → b.get? path = some v →
      b.populateAt Decoder.value path = .ok v ∧
      ∀ inner, v = .bag inner → b.populateAt Decoder.bag path = .ok inner) := by
  -- A bag is written as the value that it is, so one fact about text is enough.
  have htext (w : Value) : w.compact = w.toJson.compact := by
    rw [compact, Json.compact, compactChars_toJson]
  refine ⟨ofJson_toJson v, toJson_ofJson, htext v, htext (.bag b), fun hfinite => ?_,
    fun hfinite hget => ?_⟩
  -- With finite floats nothing is dropped, as a whole.
  · have hentries : dropNonfiniteEntries b = b := dropNonfiniteEntries_eq_self hfinite
    rw [Bag.populate_value, Bag.populate_bag, hentries]
    exact ⟨rfl, rfl⟩
  · constructor
    -- and at a path.
    · rw [Bag.populateAt_value hget, dropNonfinite_eq_self hfinite]
    · rintro inner rfl
      rw [Bag.populateAt_bag hget, dropNonfiniteEntries_eq_self hfinite]

/-- Floats that are not finite in a bag in a list, the greatest integer in a document, and a bag
with a float at a path. -/
theorem Value.converted_nested :
    let v : Value := .list [.float (.nan false), .bag (.ofList [("a", .float (.infinity true))])]
    let j : Json := .array [.ofInt64 9223372036854775807, .ofBinary64 (.ofInt 1), .null]
    let b : Bag := .ofList [("x", .bag (.ofList [("y", .float (.ofMagnitude true 0))]))]
    ofJson v.toJson = .list [.null, .bag (.ofList [("a", .null)])] ∧
      (j.integersFit = true ∧ (ofJson j).toJson = j) ∧
      ((Value.bag b).isFinite = true ∧ b.populate Decoder.bag = .ok b) ∧
      b.populateAt Decoder.value "x.y" = .ok (.float (.ofMagnitude true 0)) := by
  intro v j b
  have hget : b.get? "x.y" = some (.float (.ofMagnitude true 0)) := rfl
  obtain ⟨hvalue, hdocument, -, -, hwhole, -⟩ := converted v j b "x.y"
  obtain ⟨-, -, -, -, -, hplace⟩ := converted (.float (.ofMagnitude true 0)) j b "x.y"
  have hfits : j.integersFit = true := by decide
  have hfinite : (Value.bag b).isFinite = true := by decide
  exact ⟨hvalue, ⟨hfits, hdocument hfits⟩, ⟨hfinite, (hwhole hfinite).2⟩,
    (hplace (by decide) hget).1⟩

end LayeredConfig
