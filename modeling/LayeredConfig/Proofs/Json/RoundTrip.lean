import LayeredConfig.Parser
import LayeredConfig.Proofs.Bag.Json
import LayeredConfig.Proofs.Json.Reading
import LayeredConfig.Proofs.Text.Trimming
import LayeredConfig.Report
import LayeredConfig.SortedMap.Lemmas

/-!
# JSON text is read back

The indented text of a document without floats is read back as the document, if it is not too deep
for the reader.

## Key results

- `Json.State.reads_pretty`: the text of a document inside containers
- `Json.read_pretty`: the text of a whole document
- `Bag.parse_pretty`: the text of a bag
- `OutputFormat.parse_json_value`: the report of a bag
-/

namespace LayeredConfig

/-! ## Sorted maps, entry by entry -/

namespace Entries

variable {κ : Type} [Ord κ] {α : Type} {lo : Option κ}

/-- Maps with the same entries are the same. -/
theorem toList_injective {m n : Entries κ α lo} (h : m.toList = n.toList) : m = n := by
  induction m with
  | nil =>
    cases n with
    | nil => rfl
    | cons => exact nomatch h
  | cons k v above rest ih =>
    cases n with
    | nil => exact nomatch h
    | cons k' v' above' rest' =>
      obtain ⟨⟨rfl, rfl⟩, hrest⟩ : (k = k' ∧ v = v') ∧ rest.toList = rest'.toList := by
        simpa [toList] using h
      rw [ih hrest]

/-- A key above all others comes last. -/
theorem toList_insertAbove [Std.TransOrd κ] {m : Entries κ α lo} {k : κ} (v : α) (h : Above lo k)
    (hlast : ∀ k' ∈ m.keys, compare k' k = .lt) :
    (m.insertAbove k v h).toList = m.toList ++ [(k, v)] := by
  -- The key is above each entry, so it goes on behind it.
  induction m with
  | nil => rfl
  | cons k' v' h' rest ih =>
    obtain ⟨hfirst, hrest⟩ := List.forall_mem_cons.mp hlast
    have hgt : compare k k' = .gt := Std.OrientedCmp.gt_of_lt hfirst
    unfold insertAbove
    split
    · next hlt => exact nomatch hlt.symm.trans hgt
    · next heq => exact nomatch heq.symm.trans hgt
    · exact congrArg ((k', v') :: ·) (ih _ hrest)

end Entries

namespace Json
namespace State

variable {st : State} {stack : List Frame}

/-! ## Members -/

/-- Where the members of a map were read up to one of them, this one comes behind the others. -/
theorem toList_insert_member {members before : SortedMap String Json} {k : String} {v : Json}
    {rest : List (String × Json)} (h : members.toList = before.toList ++ (k, v) :: rest) :
    (before.insert k v).toList = before.toList ++ [(k, v)] := by
  refine Entries.toList_insertAbove v _ fun k' hk' => ?_
  -- The keys of the whole map are in ascending order.
  have hsorted := members.pairwise_keys
  rw [Entries.keys, h, List.map_append, List.map_cons, List.pairwise_append] at hsorted
  exact hsorted.2.2 k' hk' k List.mem_cons_self

/-! ## Documents -/

/-- A container may be opened where the reader is not too deep yet. -/
theorem openContainer_of_lt {mode : Mode} (h : stack.length < 127) :
    openContainer stack mode = .ok ⟨stack, mode⟩ := if_neg (by rw [depthLimit]; omega)

/-- The bracket and the line end before the first item. -/
theorem Expects.reads_openArray (h : Expects stack st) (hdepth : stack.length < 127) (level : Nat) :
    st.Reads ('[' :: newline level) ⟨stack, .firstItem⟩ :=
  .cons (h.next rfl (by decide) (openContainer_of_lt hdepth)) (reads_newline rfl level)

/-- The brace and the line end before the first member. -/
theorem Expects.reads_openObject (h : Expects stack st) (hdepth : stack.length < 127)
    (level : Nat) : st.Reads ('\x7b' :: newline level) ⟨stack, .firstKey⟩ :=
  .cons (h.next rfl (by decide) (openContainer_of_lt hdepth)) (reads_newline rfl level)

mutual

/-- The text of a document is read where a value is expected, up to what may follow it. -/
theorem reads_pretty (level : Nat) : ∀ {j : Json} {stack : List Frame} {st : State},
    j.hasReal = false → stack.length + j.depth ≤ 127 → Expects stack st →
    ∃ st', st.Reads (prettyChars level j) st' ∧ Completes stack j st'
  | .null, _, _, _, _, h => ⟨_, h.reads_null, .refl _ _⟩
  | .bool b, _, _, _, _, h => ⟨_, h.reads_bool b, .refl _ _⟩
  | .number (.integer _ range), _, _, _, _, h => h.reads_integer range
  | .string s, _, _, _, _, h => ⟨_, h.reads_quote s, .refl _ _⟩
  | .array [], _, _, _, hdepth, h =>
    ⟨_, .cons (h.next rfl (by decide) (openContainer_of_lt hdepth)) (.char rfl), .refl _ _⟩
  | .array (item :: rest), stack, st, hwhole, hdepth, h => by
    rw [hasReal, itemsHaveReal, Bool.or_eq_false_iff] at hwhole
    rw [depth, itemsDepth] at hdepth
    -- Inside the array the reader is one container deeper, and the document one level less deep.
    obtain ⟨st', hitem, hcomplete⟩ := reads_pretty (level + 1) hwhole.1
      (by rw [List.length_cons]; omega) (expects_firstItem stack)
    have hrest := reads_prettyItems level hwhole.2 (by omega) hcomplete
    exact ⟨_, ((h.reads_openArray (by omega) _).trans hitem).trans hrest, .refl _ _⟩
  | .object .nil, _, _, _, hdepth, h =>
    ⟨_, .cons (h.next rfl (by decide) (openContainer_of_lt hdepth)) (.char rfl), .refl _ _⟩
  | .object (.cons k v above rest), stack, st, hwhole, hdepth, h => by
    rw [hasReal, membersHaveReal, Bool.or_eq_false_iff] at hwhole
    rw [depth, membersDepth] at hdepth
    obtain ⟨st', hvalue, hcomplete⟩ := reads_pretty (level + 1) hwhole.1
      (by rw [List.length_cons]; omega) (expects_value (.member .nil k :: stack))
    have hrest : st'.Reads (prettyMembers level rest)
        (complete stack (.object (.cons k v above rest))) :=
      reads_prettyMembers level hwhole.2 (by omega) rfl hcomplete
    have hkey := (h.reads_openObject (by omega) (level + 1)).trans (reads_key rfl k)
    rw [← List.append_assoc] at hkey
    exact ⟨_, (hkey.trans hvalue).trans hrest, .refl _ _⟩

/-- The items behind a value are read to the end of their array. -/
theorem reads_prettyItems (level : Nat) : ∀ {items : List Json} {stack : List Frame}
    {before : List Json} {v : Json} {st : State},
    itemsHaveReal items = false → stack.length + itemsDepth items < 127 →
    Completes (.item before :: stack) v st →
    st.Reads (prettyItems level items) (complete stack (.array (before.reverse ++ v :: items)))
  | [], stack, before, v, st, _, _, h => by
    have hend : State.next ⟨stack, .afterItem (v :: before)⟩ (.char ']') =
        .ok (complete stack (.array (v :: before).reverse)) := rfl
    rw [List.reverse_cons] at hend
    exact (h.newline level).trans (.char hend)
  | item :: rest, stack, before, v, st, hwhole, hdepth, h => by
    rw [itemsHaveReal, Bool.or_eq_false_iff] at hwhole
    rw [itemsDepth] at hdepth
    have hcomma : st.next (.char ',') = .ok ⟨stack, .nextItem (v :: before)⟩ := h ',' (.inl rfl)
    obtain ⟨st', hitem, hcomplete⟩ := reads_pretty (level + 1) hwhole.1
      (by rw [List.length_cons]; omega) (expects_nextItem stack (v :: before))
    have hrest := reads_prettyItems level hwhole.2 (by omega) hcomplete
    rw [List.reverse_cons, List.append_assoc] at hrest
    exact ((Reads.cons hcomma (reads_newline rfl _)).trans hitem).trans hrest

/-- The members behind a value are read to the end of their object. -/
theorem reads_prettyMembers (level : Nat) : ∀ {lo : Option String}
    {entries : Entries String Json lo} {stack : List Frame} {members before : SortedMap String Json}
    {k : String} {v : Json} {st : State},
    membersHaveReal entries = false → stack.length + membersDepth entries < 127 →
    members.toList = before.toList ++ (k, v) :: entries.toList →
    Completes (.member before k :: stack) v st →
    st.Reads (prettyMembers level entries) (complete stack (.object members))
  | _, .nil, stack, members, before, k, v, st, _, _, hmembers, h => by
    -- Without further members this one completes the map.
    have hlast : before.insert k v = members :=
      Entries.toList_injective ((toList_insert_member hmembers).trans hmembers.symm)
    have hend : State.next ⟨stack, .afterMember (before.insert k v)⟩ (.char '\x7d') =
        .ok (complete stack (.object (before.insert k v))) := rfl
    rw [hlast] at hend
    exact (h.newline level).trans (.char (hlast ▸ hend))
  | _, .cons k' v' _ rest, stack, members, before, k, v, st, hwhole, hdepth, hmembers, h => by
    rw [membersHaveReal, Bool.or_eq_false_iff] at hwhole
    rw [membersDepth] at hdepth
    have hcomma : st.next (.char ',') = .ok ⟨stack, .nextKey (before.insert k v)⟩ :=
      h ',' (.inl rfl)
    obtain ⟨st', hvalue, hcomplete⟩ := reads_pretty (level + 1) hwhole.1
      (by rw [List.length_cons]; omega) (expects_value (.member (before.insert k v) k' :: stack))
    have hothers : members.toList = (before.insert k v).toList ++ (k', v') :: rest.toList := by
      rw [toList_insert_member hmembers, List.append_assoc]
      exact hmembers
    have hrest := reads_prettyMembers level hwhole.2 (by omega) hothers hcomplete
    have hkey := (Reads.cons hcomma (reads_newline rfl (level + 1))).trans (reads_key rfl k')
    rw [← List.append_assoc] at hkey
    exact (hkey.trans hvalue).trans hrest

end

end State

/-- The text of a document without floats is read back, with a line end behind it, if the document
is not too deep. -/
theorem read_pretty {j : Json} (hwhole : j.hasReal = false) (hdepth : j.depth ≤ 127) :
    read (RawText.ofString (j.pretty ++ "\n")) = .ok j := by
  obtain ⟨st, hreads, hcomplete⟩ := State.reads_pretty 0 hwhole
    (by rw [List.length_nil]; omega) (State.expects_value [])
  -- A number is only complete with the line end behind it.
  have hline : st.next (.char '\n') = .ok ⟨[], .done j⟩ := hcomplete '\n' (.inr rfl)
  obtain ⟨p, hp⟩ := (hreads.trans (.char hline)) [] ⟨1, 0⟩
  have htext : RawText.ofString (j.pretty ++ "\n") =
      RawText.ofChars (prettyChars 0 j ++ ['\n']) ++ [] := by
    rw [RawText.ofString, String.toList_append, pretty, String.toList_ofList, List.append_nil]
    rfl
  rw [read, htext, hp]
  rfl

end Json

/-! ## Reports -/

/-- The text of an object ends with its brace. -/
theorem Json.prettyMembers_eq_append (level : Nat) {lo : Option String}
    (entries : Entries String Json lo) :
    ∃ s, prettyMembers level entries = s ++ ['\x7d'] := by
  induction entries with
  | nil => exact ⟨_, rfl⟩
  | cons k v above rest ih =>
    obtain ⟨s, hs⟩ := ih
    exact ⟨_, by rw [prettyMembers, hs, ← List.append_assoc]⟩

/-- There is nothing to trim behind an object. -/
theorem Json.trimBlanksEnd_pretty (members : SortedMap String Json) :
    (pretty (.object members)).trimBlanksEnd = pretty (.object members) := by
  obtain ⟨s, hs⟩ : ∃ s, prettyChars 0 (.object members) = s ++ ['\x7d'] := by
    cases members with
    | nil => exact ⟨['\x7b'], rfl⟩
    | cons k v above rest =>
      obtain ⟨s, hs⟩ := prettyMembers_eq_append 0 rest
      exact ⟨_, by rw [prettyChars, hs, ← List.append_assoc]⟩
  rw [String.trimBlanksEnd, pretty, String.toList_ofList, hs,
    Text.trimEnd_append_of_not_isBlank s rfl]

/-- The text of a bag without floats is read back as the bag, if the bag is not too deep for the
reader. -/
theorem Bag.parse_pretty {b : Bag} (hwhole : (Value.bag b).hasFloat = false)
    (hdepth : (Value.bag b).depth ≤ 127) :
    Parser.json.parse (.file (.ofString (b.toJson.pretty ++ "\n"))) = .ok b := by
  have hread : Json.read (.ofString (b.toJson.pretty ++ "\n")) = .ok b.toJson :=
    Json.read_pretty (Value.hasReal_toJson hwhole) (Value.depth_toJson (.bag b) ▸ hdepth)
  simp only [Parser.json, Opened.read, hread]
  exact Bag.ofJson_toJson (Value.isFinite_of_hasFloat hwhole)

/-- The report of a bag without floats, with a line end behind it, is read back as the bag, if the
bag is not too deep for the reader. -/
theorem OutputFormat.parse_json_value {b : Bag} (hwhole : (Value.bag b).hasFloat = false)
    (hdepth : (Value.bag b).depth ≤ 127) :
    Parser.json.parse (.file (.ofString (OutputFormat.json.value (.bag b) ++ "\n"))) = .ok b := by
  have htext : OutputFormat.json.value (.bag b) = b.toJson.pretty :=
    Json.trimBlanksEnd_pretty (Value.toJsonEntries b)
  rw [htext]
  exact Bag.parse_pretty hwhole hdepth

/-- The least integer, an empty key and a string full of escapes. -/
theorem OutputFormat.parse_json_value_escapes :
    let b : Bag := .ofList [("", .list [.int (-9223372036854775808), .bag .nil, .list []]),
      ("a.\"b\\", .string "\x00\x1f\n\x7f\u2028 ")]
    (Value.bag b).hasFloat = false ∧ (Value.bag b).depth ≤ 127 ∧
      Parser.json.parse (.file (.ofString (OutputFormat.json.value (.bag b) ++ "\n"))) = .ok b := by
  intro b
  have hwhole : (Value.bag b).hasFloat = false := rfl
  have hdepth : (Value.bag b).depth ≤ 127 := by decide
  exact ⟨hwhole, hdepth, OutputFormat.parse_json_value hwhole hdepth⟩

end LayeredConfig
