import LayeredConfig.Proofs.Bag.Lookup
import LayeredConfig.Proofs.Text.Splitting

/-!
# Joined paths

What the text of a key below a base addresses.  The joined text is read as a path again, so a key is
found as such only if it writes a single segment.

## Key results

- `Path.parse?_join`: the path of a joined text
- `Path.parse?_of_plain`: the keys that write a single segment
- `Path.parse?_eq_none_iff`: the texts that write no path
- `Path.map_segments_parse?_eq_some_iff`: segments make up the text that is split into them
- `Bag.get?_join`: a lookup below a base is a lookup in the bag at the base
- `Path.composed`: how paths are taken apart and put together
-/

namespace LayeredConfig

namespace Path

/-- One path and then another. -/
def append (p q : Path) : Path := ⟨p.head, p.tail ++ q.segments⟩

/-- Whether a key is a path of one segment. -/
def Plain (key : String) : Prop := key ≠ "" ∧ separator ∉ key.toList

instance (key : String) : Decidable (Plain key) := inferInstanceAs (Decidable (_ ∧ _))

/-- A key of one segment is read as that segment. -/
theorem parse?_of_plain {key : String} (h : Plain key) : parse? key = some ⟨key, []⟩ := by
  have hpiece : key.toList ≠ [] := fun hnil => h.1 (String.toList_eq_nil_iff.mp hnil)
  simp [parse?, Text.splitOn_of_not_mem h.2, hpiece]

/-- Whether a text writes no path: it is empty or one of its segments is, which is so if a separator
stands at one of its ends or behind another. -/
def Malformed (text : String) : Prop :=
  text = "" ∨ text.toList.head? = some separator ∨ text.toList.getLast? = some separator ∨
    [separator, separator] <:+: text.toList

instance (text : String) : Decidable (Malformed text) := inferInstanceAs (Decidable (_ ∨ _))

/-- Just the malformed texts are refused. -/
theorem parse?_eq_none_iff {text : String} : parse? text = none ↔ Malformed text := by
  rw [Malformed, ← String.toList_eq_nil_iff, ← Text.nil_mem_tail_splitOn, ← Text.nil_mem_splitOn,
    parse?]
  obtain ⟨piece, pieces, hpieces⟩ :=
    List.exists_cons_of_ne_nil (Text.splitOn_ne_nil separator text.toList)
  -- An empty piece is either the first, or one of the others.
  simp [hpieces, Decidable.or_iff_not_imp_left]

/-- All other texts write a path. -/
theorem exists_parse? {text : String} (h : ¬ Malformed text) : ∃ p, parse? text = some p :=
  Option.ne_none_iff_exists'.mp fun hnone => h (parse?_eq_none_iff.mp hnone)

/-- The path whose segments are the given pieces of a text. -/
def ofPieces? (pieces : List (List Char)) : Option Path :=
  if pieces.any List.isEmpty then none
  else match pieces.map String.ofList with
    | [] => none
    | head :: tail => some ⟨head, tail⟩

/-- A text is split at its separators, and the pieces are the segments. -/
theorem parse?_eq_ofPieces? (text : String) :
    parse? text = ofPieces? (Text.splitOn separator text.toList) := rfl

/-- Pieces write a path if none is empty, and then they are its segments. -/
theorem ofPieces?_eq_some_iff {pieces : List (List Char)} {p : Path} :
    ofPieces? pieces = some p ↔
      pieces.any List.isEmpty = false ∧ pieces.map String.ofList = p.segments := by
  unfold ofPieces?
  obtain ⟨head, tail⟩ := p
  cases pieces.any List.isEmpty with
  | true => simp
  | false => cases pieces.map String.ofList <;> simp [segments]

/-! ## Segments -/

/-- Pieces and segments are the same texts in two guises. -/
theorem map_ofList_eq_iff {pieces : List (List Char)} {keys : List String} :
    pieces.map String.ofList = keys ↔ pieces = keys.map String.toList := by
  constructor
  · rintro rfl
    simp
  · rintro rfl
    simp

/-- Pieces are the segments of a path if there are any and none of them is empty. -/
theorem map_segments_ofPieces?_eq_some_iff {pieces : List (List Char)} {keys : List String} :
    (ofPieces? pieces).map segments = some keys ↔
      keys ≠ [] ∧ (∀ key ∈ keys, key ≠ "") ∧ pieces = keys.map String.toList := by
  rw [← map_ofList_eq_iff, Option.map_eq_some_iff]
  simp only [ofPieces?_eq_some_iff]
  constructor
  · rintro ⟨p, ⟨hpieces, hsegments⟩, rfl⟩
    refine ⟨List.cons_ne_nil _ _, fun key hkey => ?_, hsegments⟩
    obtain ⟨piece, hpiece, rfl⟩ := List.mem_map.mp (hsegments ▸ hkey)
    simpa using List.any_eq_false.mp hpieces piece hpiece
  · rintro ⟨hne, hkeys, rfl⟩
    obtain ⟨head, tail, hcons⟩ := List.exists_cons_of_ne_nil hne
    refine ⟨⟨head, tail⟩, ⟨List.any_eq_false.mpr fun piece hpiece => ?_, hcons⟩, hcons.symm⟩
    simpa using hkeys _ (List.mem_map_of_mem hpiece)

/-- The segments of a text are those keys, at least one and all of them plain, that make it up. -/
theorem map_segments_parse?_eq_some_iff {text : String} {keys : List String} :
    (parse? text).map segments = some keys ↔
      keys ≠ [] ∧ (∀ key ∈ keys, Plain key) ∧ ".".intercalate keys = text := by
  -- Putting texts together is putting their characters together.
  have htext : ".".intercalate keys = text ↔
      [separator].intercalate (keys.map String.toList) = text.toList := by
    rw [← String.toList_inj, String.toList_intercalate]
    rfl
  rw [parse?_eq_ofPieces?, map_segments_ofPieces?_eq_some_iff, Text.splitOn_eq_iff, htext]
  simp only [Plain, forall_and, ne_eq, List.map_eq_nil_iff, List.forall_mem_map]
  tauto

/-! ## Joined texts -/

/-- Further pieces make a path of their own. -/
theorem ofPieces?_append {a b : List (List Char)} {p : Path} (ha : ofPieces? a = some p)
    (hb : b ≠ []) : ofPieces? (a ++ b) = (ofPieces? b).map p.append := by
  obtain ⟨hpieces, hsegments⟩ := ofPieces?_eq_some_iff.mp ha
  -- An empty piece on the right spoils both sides, and on the left there is none.
  cases hrest : b.any List.isEmpty with
  | true => simp [ofPieces?, hrest]
  | false =>
    obtain ⟨piece, pieces, rfl⟩ := List.exists_cons_of_ne_nil hb
    have hq : ofPieces? (piece :: pieces) =
        some ⟨String.ofList piece, pieces.map String.ofList⟩ :=
      ofPieces?_eq_some_iff.mpr ⟨hrest, rfl⟩
    rw [hq, Option.map_some, ofPieces?_eq_some_iff, List.any_append, hpieces, hrest,
      List.map_append, hsegments]
    exact ⟨rfl, rfl⟩

/-- Text below a base is read as the path of the base and then that of the text, if both write
one. -/
theorem parse?_join_of_ne {base : String} (hbase : base ≠ "") (key : String) :
    parse? (join base key) = (parse? base).bind fun p => (parse? key).map p.append := by
  have htext : (join base key).toList = base.toList ++ separator :: key.toList := by
    simp [join, hbase, separator]
  rw [parse?_eq_ofPieces?, htext, Text.splitOn_append, parse?_eq_ofPieces? base]
  cases hp : ofPieces? (Text.splitOn separator base.toList) with
  | some p => exact ofPieces?_append hp (Text.splitOn_ne_nil separator key.toList)
  | none =>
    -- A piece of the base is empty, and it is a piece of the whole.
    have hempty : (Text.splitOn separator base.toList).any List.isEmpty = true := by
      obtain ⟨piece, pieces, hpieces⟩ :=
        List.exists_cons_of_ne_nil (Text.splitOn_ne_nil separator base.toList)
      rw [hpieces] at hp ⊢
      by_contra hany
      rw [ofPieces?, if_neg hany] at hp
      exact nomatch hp
    rw [ofPieces?, List.any_append, hempty]
    rfl

/-- A path text below a path is read as the one path and then the other. -/
theorem parse?_join {base : String} {p : Path} (h : parse? base = some p) (key : String) :
    parse? (join base key) = (parse? key).map p.append := by
  have hbase : base ≠ "" := by
    rintro rfl
    exact nomatch h
  rw [parse?_join_of_ne hbase, h, Option.bind_some]

/-- The segments of a text below a base are those of both. -/
theorem map_segments_join_eq_some_iff {base : String} (hbase : base ≠ "") (key : String)
    {keys : List String} :
    (parse? (join base key)).map segments = some keys ↔
      ∃ above below, (parse? base).map segments = some above ∧
        (parse? key).map segments = some below ∧ keys = above ++ below := by
  rw [parse?_join_of_ne hbase]
  cases parse? base with
  | none => simp
  | some p =>
    cases parse? key with
    | none => simp
    | some q => simp [append, segments, eq_comm]

end Path

namespace Bag

/-- One path and then another is looked up in the bag that the first one holds. -/
theorem lookup_append (b : Bag) (p q : Path) :
    b.lookup (p.append q) = ((b.lookup p).bind Value.asBag?).bind (Bag.lookup · q) := by
  obtain ⟨k, tail⟩ := p
  -- The first path is followed to its end, and there the second one begins.
  induction tail generalizing b k with
  | nil => exact lookup_cons b k q.head q.tail
  | cons n tail ih =>
    have hrest (inner : Bag) : inner.lookup ⟨n, tail ++ q.segments⟩ =
        ((inner.lookup ⟨n, tail⟩).bind Value.asBag?).bind (Bag.lookup · q) := ih inner n
    rw [Path.append, List.cons_append, lookup_cons, lookup_cons]
    cases b.inner? k with
    | none => rfl
    | some inner => exact hrest inner

/-- What leads on to a value is a bag. -/
theorem lookup_of_lookup_append {b : Bag} {p q : Path} {v : Value}
    (h : b.lookup (p.append q) = some v) : ∃ inner, b.lookup p = some (.bag inner) := by
  rw [lookup_append, Option.bind_eq_some_iff] at h
  obtain ⟨inner, hinner, -⟩ := h
  obtain ⟨u, hu, hbag⟩ := Option.bind_eq_some_iff.mp hinner
  exact ⟨inner, Value.asBag?_eq_some_iff.mp hbag ▸ hu⟩

/-- A lookup below a base is a lookup in the bag at the base. -/
theorem get?_join {base : String} {p : Path} (h : Path.parse? base = some p) (b : Bag)
    (key : String) : b.get? (Path.join base key) = (b.bag? base).bind (Bag.get? · key) := by
  rw [bag?, get?, Path.parse?_join h, get?_of_parse? h]
  -- A key that writes no path finds nothing on either side.
  cases hkey : Path.parse? key with
  | none =>
    have hnone (inner : Bag) : inner.get? key = none := by rw [get?, hkey, Option.bind_none]
    simp [hnone]
  | some q =>
    rw [Option.map_some, Option.bind_some]
    simp only [get?_of_parse? hkey]
    exact lookup_append b p q

/-- A key that is a path of one segment is looked up as it is. -/
theorem bag?_of_plain {key : String} (h : Path.Plain key) (b : Bag) :
    b.bag? key = b.inner? key := by
  rw [bag?, get?_of_parse? (Path.parse?_of_plain h), lookup_singleton, inner?]

/-- So it is with bags. -/
theorem bag?_join {base : String} {p : Path} (h : Path.parse? base = some p) (b : Bag)
    (key : String) : b.bag? (Path.join base key) = (b.bag? base).bind (Bag.bag? · key) := by
  rw [bag?, get?_join h, Option.bind_assoc]
  rfl

end Bag

/-- The segments of a text are the plain keys that make it up.  Text below a base writes a path just
if both do, with the segments of both, and leads to what it leads to in the bag at the base. -/
theorem Path.composed (text base key : String) (b : Bag) :
    (∀ keys, (parse? text).map segments = some keys ↔
        keys ≠ [] ∧ (∀ key ∈ keys, Plain key) ∧ ".".intercalate keys = text) ∧
      (base ≠ "" → ∀ keys, (parse? (join base key)).map segments = some keys ↔
        ∃ above below, (parse? base).map segments = some above ∧
          (parse? key).map segments = some below ∧ keys = above ++ below) ∧
      ((parse? base).isSome → b.get? (join base key) =
        match b.get? base with
        | some (.bag inner) => Bag.get? inner key
        | _ => none) := by
  refine ⟨fun keys => map_segments_parse?_eq_some_iff,
    fun hbase keys => map_segments_join_eq_some_iff hbase key, fun hbase => ?_⟩
  obtain ⟨p, hp⟩ := Option.isSome_iff_exists.mp hbase
  rw [Bag.get?_join hp, Bag.bag?]
  cases b.get? base with
  | none => rfl
  | some v => cases v <;> rfl

/-- Both texts have a separator of their own, and the key leads through a bag of its own. -/
theorem Path.composed_dotted :
    "a.b" ≠ "" ∧ (parse? "a.b").isSome ∧
      (parse? (join "a.b" "c.d")).map segments = some ["a", "b", "c", "d"] ∧
      Bag.get? (.ofList [("a", .bag (.ofList [("b", .bag (.ofList [("c", .bag
        (.ofList [("d", .int 1)]))]))]))]) (join "a.b" "c.d") = some (.int 1) := by
  obtain ⟨-, hjoin, hget⟩ := Path.composed "" "a.b" "c.d" (.ofList [("a", .bag (.ofList
    [("b", .bag (.ofList [("c", .bag (.ofList [("d", .int 1)]))]))]))])
  exact ⟨by decide, rfl, (hjoin (by decide) _).mpr ⟨["a", "b"], ["c", "d"], rfl, rfl, rfl⟩, hget rfl⟩

end LayeredConfig
