import LayeredConfig.Parser
import LayeredConfig.Proofs.Yaml.Characters
import LayeredConfig.Proofs.Yaml.Ending
import LayeredConfig.Proofs.Yaml.Tree
import LayeredConfig.Report

/-!
# YAML text is read back

The printed text of a document without floats is read back as the document.  So is a report of it,
where the document does not end with white space that trimming takes.

## Key results

- `Yaml.read_print`: the text of a whole document
- `Bag.parse_print`: the text of a bag
- `OutputFormat.parse_yaml_value`: the report of a bag
-/

namespace LayeredConfig

namespace Yaml

/-- A text is read stage by stage. -/
theorem read_of_stages {text : String} {ts : List Token} {tree : Node String} {numbered : Node Nat}
    {a : Anchors} {j : Json} {jumps : Nat} (hallowed : text.toList.all isAllowed = true)
    (htokens : tokens text.toList = .ok ts) (htree : Document.ofTokens ts = .ok (some tree))
    (hnumber : tree.number .nil = .ok (numbered, a))
    (hvalue : numbered.value ⟨numbered.anchored, 100 * numbered.events⟩ depthLimit 0 =
      .ok (j, jumps)) :
    read (.ofString text) = .ok j := by
  rw [read, RawText.ofString, RawText.chars?_ofChars]
  simp [hallowed, htokens, htree, hnumber, hvalue, bind, Except.bind, pure, Except.pure]

/-- The text of an object without floats is read back as the object, if it is not too deep. -/
theorem read_print {members : SortedMap String Json}
    (hwhole : Json.membersHaveReal members = false) (hdepth : Json.membersDepth members + 1 ≤ 128) :
    read (.ofString (print (.object members))) = .ok (.object members) :=
  read_of_stages (all_isAllowed_print hwhole) (tokens_print hwhole)
    (Document.ofTokens_valueTokens _) (Node.number_node _ _)
    (Node.value_node (j := .object members) hwhole hdepth)

end Yaml

/-- The printed text of a bag without floats is read back as the bag, if the bag is not too deep for
the reader. -/
theorem Bag.parse_print {b : Bag} (hwhole : (Value.bag b).hasFloat = false)
    (hdepth : (Value.bag b).depth ≤ 128) :
    Parser.yaml.parse (.file (.ofString (Yaml.print b.toJson))) = .ok b := by
  have hread : Yaml.read (.ofString (Yaml.print b.toJson)) = .ok b.toJson :=
    Yaml.read_print (Value.hasReal_toJsonEntries hwhole)
      (Value.depth_toJson (.bag b) ▸ hdepth : b.toJson.depth ≤ 128)
  simp only [Parser.yaml, Opened.read, hread]
  exact Bag.ofJson_toJson (Value.isFinite_of_hasFloat hwhole)

/-- The printed text of a bag without floats is read back as the bag, if the bag is not too deep for
the reader.  The report with a line end behind it is that text, if its last leaf survives the
trimming. -/
theorem OutputFormat.parse_yaml_value {b : Bag} (hwhole : (Value.bag b).hasFloat = false)
    (hdepth : (Value.bag b).depth ≤ 128) :
    Parser.yaml.parse (.file (.ofString (Yaml.print b.toJson))) = .ok b ∧
      (Yaml.survivesTrim (Yaml.lastLeaf b.toJson) = true →
        Parser.yaml.parse (.file (.ofString (OutputFormat.yaml.value (.bag b) ++ "\n"))) = .ok b) := by
  have hprint := Bag.parse_print hwhole hdepth
  refine ⟨hprint, fun hlast => ?_⟩
  -- Then trimming takes the line end only, which the report gets back.
  have htext : OutputFormat.yaml.value (.bag b) ++ "\n" = Yaml.print b.toJson :=
    Yaml.trimBlanksEnd_print (Value.hasReal_toJsonEntries hwhole) hlast
  rw [htext]
  exact hprint

/-- Keys and strings that need every style, and a literal block at the end. -/
theorem OutputFormat.parse_yaml_value_styles :
    let b : Bag := .ofList [("", .list [.int (-9223372036854775808), .bag .nil, .list [.null]]),
      ("? a:\n", .string "\x00 '\u2028"), ("null", .list [.string " 1\n\n", .string "\u00a0"]),
      ("z", .string "\n#\n  ---\n")]
    (Value.bag b).hasFloat = false ∧ (Value.bag b).depth ≤ 128 ∧
      Yaml.survivesTrim (Yaml.lastLeaf b.toJson) = true ∧
      Parser.yaml.parse (.file (.ofString (OutputFormat.yaml.value (.bag b) ++ "\n"))) = .ok b := by
  intro b
  have hwhole : (Value.bag b).hasFloat = false := rfl
  have hdepth : (Value.bag b).depth ≤ 128 := by decide
  have hlast : Yaml.survivesTrim (Yaml.lastLeaf b.toJson) = true := by decide +kernel
  exact ⟨hwhole, hdepth, hlast, (OutputFormat.parse_yaml_value hwhole hdepth).2 hlast⟩

/-- Trimming takes more than the line end behind the text: the last breaks of a literal block are
part of it. -/
theorem OutputFormat.parse_yaml_value_trimmed :
    let b : Bag := Entries.ofList [("a", .string "x\n\n")]
    (Value.bag b).hasFloat = false ∧ (Value.bag b).depth ≤ 128 ∧
      Parser.yaml.parse (.file (.ofString (OutputFormat.yaml.value (.bag b) ++ "\n"))) =
        .ok (Entries.ofList [("a", .string "x\n")]) ∧
      Parser.yaml.parse (.file (.ofString (OutputFormat.yaml.value (.bag b) ++ "\n"))) ≠ .ok b := by
  intro b
  -- The block keeps the breaks at its end, of which trimming took one.
  have hread : Parser.yaml.parse (.file (.ofString (OutputFormat.yaml.value (.bag b) ++ "\n"))) =
      .ok (Entries.ofList [("a", .string "x\n")]) := Bag.eq_ok_of_any rfl (by decide +kernel)
  have hne : (Entries.ofList [("a", .string "x\n")] == b) = false := by decide +kernel
  refine ⟨rfl, by decide, hread, fun h => ?_⟩
  have hsame : Entries.ofList [("a", .string "x\n")] = b := Except.ok.inj (hread.symm.trans h)
  rw [hsame] at hne
  exact absurd hne (by decide +kernel)

end LayeredConfig
