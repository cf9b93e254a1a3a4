import LayeredConfig.Proofs.Json.RoundTrip
import LayeredConfig.Proofs.Yaml.Collections
import LayeredConfig.Yaml.Reader

/-!
# The tree of the tokens

The grammar finds the tree of a document in its tokens, and the tree means the document.

## Key results

- `node`: the tree of a document
- `Node.ofTokens_valueTokens`: the tokens of a value have its tree
- `Node.value_node`: the tree means the value
-/

namespace LayeredConfig.Yaml

variable {ν : Type}

/-- The node of a string, which stands in front of a colon on its line or not. -/
def stringNode (key : Bool) (s : List Char) : Node ν :=
  .scalar none none (decide (Style.choose key s = .plain)) s

mutual

/-- The tree of a document. -/
def node : Json → Node ν
  | .null => .scalar none none true "null".toList
  | .bool b => .scalar none none true (Json.boolText b)
  | .number (.integer i _) => .scalar none none true (Numeral.ofInt i)
  | .number (.real x _) => .scalar none none true (layout.write x).toList
  | .string s => stringNode false s.toList
  | .array items => .sequence none none (itemNodes items)
  | .object members => .mapping none none (memberNodes members)

def itemNodes : List Json → List (Node ν)
  | [] => []
  | item :: rest => node item :: itemNodes rest

def memberNodes {lo : Option String} : Entries String Json lo → List (Node ν × Node ν)
  | .nil => []
  | .cons k v _ rest => (stringNode (isSimpleKey k.toList) k.toList, node v) :: memberNodes rest

end

namespace Node

variable {handles : List (String × Tag)} {n : Nat} {ts ts' rest : List Token}
  {item key value : Node String} {items : List (Node String)}
  {members : List (Node String × Node String)}

/-! ## The rules of the grammar -/

/-- A string is one token. -/
theorem ofTokens_string (block indentless key : Bool) (s : List Char) (hn : 0 < n) :
    ofTokens handles block indentless n (stringToken key s :: rest) =
      .ok (stringNode key s, rest) := by
  obtain ⟨n, rfl⟩ : ∃ m, n = m + 1 := ⟨n - 1, by omega⟩
  rfl

/-- A block holds the items of a sequence. -/
theorem ofTokens_blockSequence {indentless : Bool}
    (h : blockItems handles n ts = .ok (items, rest)) :
    ofTokens handles true indentless (n + 1) (.blockSequenceStart :: ts) =
      .ok (.sequence none none items, rest) := by
  show (blockItems handles n ts >>= _) = _
  rw [h]
  rfl

/-- Items without a block may stand where a value may. -/
theorem ofTokens_indentless
    (h : indentlessItems handles n (.blockEntry :: ts) = .ok (items, rest)) :
    ofTokens handles true true (n + 1) (.blockEntry :: ts) =
      .ok (.sequence none none items, rest) := by
  show (indentlessItems handles n (.blockEntry :: ts) >>= _) = _
  rw [h]
  rfl

/-- A block holds the members of a mapping. -/
theorem ofTokens_blockMapping {indentless : Bool}
    (h : blockMembers handles n ts = .ok (members, rest)) :
    ofTokens handles true indentless (n + 1) (.blockMappingStart :: ts) =
      .ok (.mapping none none members, rest) := by
  show (blockMembers handles n ts >>= _) = _
  rw [h]
  rfl

/-- A block goes on with an item and those behind it. -/
theorem blockItems_cons (hmissing : missingEntry ts = false)
    (hitem : ofTokens handles true false n ts = .ok (item, ts'))
    (hitems : blockItems handles n ts' = .ok (items, rest)) :
    blockItems handles (n + 1) (.blockEntry :: ts) = .ok (item :: items, rest) := by
  simp [blockItems, hmissing, hitem, hitems, bind, Except.bind, pure, Except.pure]

/-- Items without a block go on with an item and those behind it. -/
theorem indentlessItems_cons (hentry : missingEntry ts = false)
    (hmapping : missingInMapping ts = false)
    (hitem : ofTokens handles true false n ts = .ok (item, ts'))
    (hitems : indentlessItems handles n ts' = .ok (items, rest)) :
    indentlessItems handles (n + 1) (.blockEntry :: ts) = .ok (item :: items, rest) := by
  simp [indentlessItems, hentry, hmapping, hitem, hitems, bind, Except.bind, pure, Except.pure]

/-- Items without a block end in front of any other token. -/
theorem indentlessItems_end (h : rest.head? ≠ some .blockEntry) :
    indentlessItems handles (n + 1) rest = .ok ([], rest) := by
  unfold indentlessItems
  split
  · exact absurd rfl h
  · rfl

/-- A member and those behind it. -/
theorem blockMembers_cons (hkey : missingInMapping ts = false)
    (hread : ofTokens handles true true n ts = .ok (key, .value :: ts'))
    (hvalue : missingInMapping ts' = false)
    (hread' : ofTokens handles true true n ts' = .ok (value, rest))
    {rest' : List Token} (hmembers : blockMembers handles n rest = .ok (members, rest')) :
    blockMembers handles (n + 1) (.key :: ts) = .ok ((key, value) :: members, rest') := by
  simp [blockMembers, hkey, hread, hvalue, hread', hmembers, bind, Except.bind, pure, Except.pure]

/-! ## Trees -/

/-- The tokens of a value never look like a value that is left out of a mapping. -/
theorem missingInMapping_valueTokens (indentless : Bool) (j : Json) (rest : List Token) :
    missingInMapping (valueTokens indentless j ++ rest) = false := by
  unfold valueTokens
  split
  case h_7 => cases indentless <;> rfl
  all_goals rfl

/-- The tokens of a value never look like an item that is left out. -/
theorem missingEntry_valueTokens (j : Json) (rest : List Token) :
    missingEntry (valueTokens false j ++ rest) = false := by
  unfold valueTokens
  split <;> rfl

mutual

/-- The tokens of a value have its tree. -/
theorem ofTokens_valueTokens : ∀ {j : Json} {indentless admitted : Bool} {n : Nat}
    {rest : List Token}, 2 * (valueTokens indentless j).length + 2 ≤ n →
    (indentless = true → admitted = true ∧ rest.head? ≠ some .blockEntry) →
    ofTokens handles true admitted n (valueTokens indentless j ++ rest) = .ok (node j, rest)
  | .null, _, _, n + 1, _, _, _ => rfl
  | .bool _, _, _, n + 1, _, _, _ => rfl
  | .number (.integer ..), _, _, n + 1, _, _, _ => rfl
  | .number (.real ..), _, _, n + 1, _, _, _ => rfl
  | .string _, _, _, n + 1, _, _, _ => rfl
  | .array [], _, _, n + 2, _, _, _ => rfl
  | .object .nil, _, _, n + 2, _, _, _ => rfl
  -- Without a block the sequence ends where no further item follows.
  | .array (item :: items), true, admitted, n + 1, rest, hn, hrest => by
    obtain ⟨rfl, hhead⟩ := hrest rfl
    have htokens : valueTokens true (.array (item :: items)) = itemsTokens (item :: items) := rfl
    rw [htokens] at hn ⊢
    have hitems : indentlessItems handles n (itemsTokens (item :: items) ++ rest) =
        .ok (itemNodes (item :: items), rest) := indentlessItems_itemsTokens (by omega) hhead
    exact ofTokens_indentless hitems
  | .array (item :: items), false, admitted, n + 1, rest, hn, _ => by
    have htokens : valueTokens false (.array (item :: items)) =
        blockTokens .blockSequenceStart (itemsTokens (item :: items)) := rfl
    rw [htokens, blockTokens, List.length_cons, List.length_append] at hn
    rw [htokens, blockTokens, List.cons_append, List.append_assoc]
    exact ofTokens_blockSequence (blockItems_itemsTokens (by omega))
  | .object (.cons k v above members), indentless, _, n + 1, rest, hn, _ => by
    have htokens : valueTokens indentless (.object (.cons k v above members)) =
        blockTokens .blockMappingStart (membersTokens (.cons k v above members)) := rfl
    rw [htokens, blockTokens, List.length_cons, List.length_append] at hn
    rw [htokens, blockTokens, List.cons_append, List.append_assoc]
    exact ofTokens_blockMapping (blockMembers_membersTokens (by omega))

/-- The tokens of items have their trees in a block. -/
theorem blockItems_itemsTokens : ∀ {items : List Json} {n : Nat} {rest : List Token},
    2 * (itemsTokens items).length + 1 ≤ n →
    blockItems handles n (itemsTokens items ++ .blockEnd :: rest) = .ok (itemNodes items, rest)
  | [], n + 1, _, _ => rfl
  | item :: items, n + 1, rest, hn => by
    rw [itemsTokens, List.length_cons, List.length_append] at hn
    rw [itemsTokens, List.cons_append, List.append_assoc]
    exact blockItems_cons (missingEntry_valueTokens item _)
      (ofTokens_valueTokens (by omega) fun h => by cases h) (blockItems_itemsTokens (by omega))

/-- The tokens of items have their trees without a block, as far as no other item follows. -/
theorem indentlessItems_itemsTokens : ∀ {items : List Json} {n : Nat} {rest : List Token},
    2 * (itemsTokens items).length + 1 ≤ n → rest.head? ≠ some .blockEntry →
    indentlessItems handles n (itemsTokens items ++ rest) = .ok (itemNodes items, rest)
  | [], n + 1, rest, _, hrest => indentlessItems_end hrest
  | item :: items, n + 1, rest, hn, hrest => by
    rw [itemsTokens, List.length_cons, List.length_append] at hn
    rw [itemsTokens, List.cons_append, List.append_assoc]
    exact indentlessItems_cons (missingEntry_valueTokens item _)
      (missingInMapping_valueTokens false item _)
      (ofTokens_valueTokens (by omega) fun h => by cases h)
      (indentlessItems_itemsTokens (by omega) hrest)

/-- The tokens of members have their trees. -/
theorem blockMembers_membersTokens : ∀ {lo : Option String} {members : Entries String Json lo}
    {n : Nat} {rest : List Token}, 2 * (membersTokens members).length + 1 ≤ n →
    blockMembers handles n (membersTokens members ++ .blockEnd :: rest) =
      .ok (memberNodes members, rest)
  | _, .nil, n + 1, _, _ => rfl
  | _, .cons k v _ members, n + 1, rest, hn => by
    rw [membersTokens, List.length_cons, List.length_cons, List.length_cons,
      List.length_append] at hn
    rw [membersTokens, List.cons_append, List.cons_append, List.cons_append, List.append_assoc]
    -- Behind the value stands a key or the end of the block.
    have hhead : (membersTokens members ++ .blockEnd :: rest).head? ≠ some .blockEntry := by
      cases members <;> simp [membersTokens]
    exact blockMembers_cons rfl (ofTokens_string true true _ k.toList (by omega))
      (missingInMapping_valueTokens _ v _) (ofTokens_valueTokens (by omega) fun _ => ⟨rfl, hhead⟩)
      (blockMembers_membersTokens (by omega))

end

end Node

namespace Document

/-- A document that starts with its content is one node. -/
theorem ofTokens_content {ts : List Token} {x : Node String} (hempty : isEmpty ts = false)
    (h : Node.ofTokens defaultHandles true false (4 * ts.length + 8) ts = .ok (x, [])) :
    ofTokens ts = .ok (some x) := by
  cases ts with
  | nil => cases hempty
  | cons t ts =>
    cases t with
    | version | tagHandle | documentStart | documentEnd => cases hempty
    | _ =>
      simp only [ofTokens, List.isEmpty_cons, Bool.false_eq_true, if_false, h, bind, Except.bind]
      rfl

/-- The tokens of a document have its tree. -/
theorem ofTokens_valueTokens (j : Json) :
    ofTokens (valueTokens false j) = .ok (some (node j)) := by
  have hnode : Node.ofTokens defaultHandles true false (4 * (valueTokens false j).length + 8)
      (valueTokens false j ++ []) = .ok (node j, []) :=
    Node.ofTokens_valueTokens (by omega) fun h => by cases h
  rw [List.append_nil] at hnode
  have hempty : isEmpty (valueTokens false j) = false := by
    unfold valueTokens
    split <;> rfl
  exact ofTokens_content hempty hnode

end Document

namespace Node

/-! ## Meanings -/

mutual

/-- There are no anchors to number. -/
theorem number_node (a : Anchors) : ∀ j : Json, number a (node j) = .ok (node j, a)
  | .null => rfl
  | .bool _ => rfl
  | .number (.integer ..) => rfl
  | .number (.real ..) => rfl
  | .string _ => rfl
  | .array items => by
    show (numberItems a (itemNodes items) >>= _) = _
    rw [numberItems_itemNodes a items]
    rfl
  | .object members => by
    show (numberMembers a (memberNodes members) >>= _) = _
    rw [numberMembers_memberNodes a members]
    rfl

/-- So it is with items. -/
theorem numberItems_itemNodes (a : Anchors) : ∀ items : List Json,
    numberItems a (itemNodes items) = .ok (itemNodes items, a)
  | [] => rfl
  | item :: rest => by
    rw [itemNodes, numberItems, number_node a item]
    show (numberItems a (itemNodes rest) >>= _) = _
    rw [numberItems_itemNodes a rest]
    rfl

/-- So it is with members. -/
theorem numberMembers_memberNodes (a : Anchors) : ∀ {lo : Option String}
    (members : Entries String Json lo),
    numberMembers a (memberNodes members) = .ok (memberNodes members, a)
  | _, .nil => rfl
  | _, .cons k v _ rest => by
    show (number a (node v) >>= _) = _
    rw [number_node a v]
    show (numberMembers a (memberNodes rest) >>= _) = _
    rw [numberMembers_memberNodes a rest]
    rfl

end

variable {cx : Context}

/-! `value` follows an alias before it takes the depth apart, so it unfolds at a kind of node
only. -/

/-- A scalar has a value of its own. -/
theorem value_scalar {depth jumps : Nat} (plain : Bool) (s : List Char) :
    value cx depth jumps (.scalar none none plain s) =
      (do return (← scalarValue none plain s, jumps)) := by
  cases depth <;>
  · delta value
    rfl

/-- A sequence takes the values of its items. -/
theorem value_sequence {depth jumps : Nat} (items : List (Node Nat)) :
    value cx (depth + 1) jumps (.sequence none none items) = (do
      let (items, jumps) ← items.foldlM (fun (acc, jumps) item => do
        let (v, jumps) ← value cx depth jumps item
        return (v :: acc, jumps)) ([], jumps)
      return (.array items.reverse, jumps)) := by
  delta value
  rfl

/-- A mapping takes the values of its members. -/
theorem value_mapping {depth jumps : Nat} (members : List (Node Nat × Node Nat)) :
    value cx (depth + 1) jumps (.mapping none none members) = (do
      let (members, jumps) ← members.foldlM (fun (acc, jumps) member => do
        let (k, jumps) ← key cx jumps member.1
        let (v, jumps) ← value cx depth jumps member.2
        return (Entries.insert acc k v, jumps)) (Entries.nil, jumps)
      return (.object members, jumps)) := by
  delta value
  rfl

/-- A plain scalar has its meaning. -/
theorem scalarValue_plain (s : List Char) : scalarValue none true s = ofScalar (.ofPlain s) := rfl

/-- A string in any style is read back. -/
theorem scalarValue_string (key : Bool) (s : String) :
    scalarValue none (decide (Style.choose key s.toList = .plain)) s.toList = .ok (.string s) := by
  by_cases h : Style.choose key s.toList = .plain
  · rw [decide_eq_true h, scalarValue_plain,
      Scalar.ofPlain_of_isAmbiguous (Style.choose_eq_plain h).2.1, ofScalar, String.ofList_toList]
  · rw [decide_eq_false h]
    show Except.ok (Json.string (.ofList s.toList)) = _
    rw [String.ofList_toList]

mutual

/-- The tree of a document means the document. -/
theorem value_node : ∀ {j : Json} {depth jumps : Nat}, j.hasReal = false → j.depth ≤ depth →
    value cx depth jumps (node j) = .ok (j, jumps)
  | .null, _, _, _, _ => by
    rw [node, value_scalar, scalarValue_plain, Scalar.ofPlain_null]
    rfl
  | .bool b, _, _, _, _ => by
    rw [node, value_scalar, scalarValue_plain, Scalar.ofPlain_boolText]
    rfl
  | .number (.integer i range), _, _, _, _ => by
    rw [node, value_scalar, scalarValue_plain, Scalar.ofPlain_ofInt range.1 range.2, ofScalar,
      dif_pos range]
    rfl
  | .string s, _, _, _, _ => by
    rw [node, stringNode, value_scalar, scalarValue_string]
    rfl
  -- What is in a collection is less deep, so the limit of the depth still holds there.
  | .array items, depth + 1, jumps, hwhole, hdepth => by
    rw [Json.depth] at hdepth
    rw [node, value_sequence, foldlM_itemNodes hwhole (by omega), List.append_nil]
    simp [bind, Except.bind, pure, Except.pure]
  | .object members, depth + 1, jumps, hwhole, hdepth => by
    rw [Json.depth] at hdepth
    rw [node, value_mapping, foldlM_memberNodes hwhole (by omega) rfl]
    rfl

/-- Items are collected in reverse. -/
theorem foldlM_itemNodes : ∀ {items acc : List Json} {depth jumps : Nat},
    Json.itemsHaveReal items = false → Json.itemsDepth items ≤ depth →
    (itemNodes items).foldlM (fun (acc, jumps) item => do
      let (v, jumps) ← value cx depth jumps item
      return (v :: acc, jumps)) (acc, jumps) = .ok (items.reverse ++ acc, jumps)
  | [], _, _, _, _, _ => rfl
  | item :: rest, acc, depth, jumps, hwhole, hdepth => by
    rw [Json.itemsHaveReal, Bool.or_eq_false_iff] at hwhole
    rw [Json.itemsDepth] at hdepth
    rw [itemNodes, List.foldlM_cons]
    show (value cx depth jumps (node item) >>= _) >>= _ = _
    rw [value_node hwhole.1 (by omega)]
    refine (foldlM_itemNodes hwhole.2 (by omega)).trans ?_
    rw [List.reverse_cons, List.append_assoc]
    rfl

/-- Members are collected behind those before them. -/
theorem foldlM_memberNodes : ∀ {lo : Option String} {members : Entries String Json lo}
    {before whole : SortedMap String Json} {depth jumps : Nat},
    Json.membersHaveReal members = false → Json.membersDepth members ≤ depth →
    whole.toList = before.toList ++ members.toList →
    (memberNodes members).foldlM (fun (acc, jumps) member => do
      let (k, jumps) ← key cx jumps member.1
      let (v, jumps) ← value cx depth jumps member.2
      return (Entries.insert acc k v, jumps)) (before, jumps) = .ok (whole, jumps)
  | _, .nil, before, whole, _, _, _, _, hmembers => by
    rw [Entries.toList, List.append_nil] at hmembers
    rw [Entries.toList_injective hmembers]
    rfl
  | _, .cons k v _ rest, before, whole, depth, jumps, hwhole, hdepth, hmembers => by
    rw [Json.membersHaveReal, Bool.or_eq_false_iff] at hwhole
    rw [Json.membersDepth] at hdepth
    have hkey : key cx jumps (stringNode (isSimpleKey k.toList) k.toList) = .ok (k, jumps) := by
      show Except.ok (String.ofList k.toList, jumps) = _
      rw [String.ofList_toList]
    -- The keys ascend, so the member comes behind all that were read.
    have hothers : whole.toList = (before.insert k v).toList ++ rest.toList := by
      rw [Json.State.toList_insert_member hmembers, List.append_assoc]
      exact hmembers
    rw [memberNodes, List.foldlM_cons]
    show (key cx jumps (stringNode (isSimpleKey k.toList) k.toList) >>= _) >>= _ = _
    rw [hkey]
    show (value cx depth jumps (node v) >>= _) >>= _ = _
    rw [value_node hwhole.1 (by omega)]
    exact foldlM_memberNodes hwhole.2 (by omega) hothers

end

end Node
end LayeredConfig.Yaml
