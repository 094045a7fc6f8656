import Isnad.Proofs.Chain.Order
import Isnad.Proofs.Sanad.Grammar
import Isnad.Proofs.Sanad.Sections

/-!
# The order of the nodes of a sanad

Where a node stands in its chain decides where its issues are reported and which words the analysis
of links has for them, but not what is wrong: the check of a node finds the same codes at every
place (`codes_nodeIssues`), and the links carry the same names and parents (`lineage_nodeLinks_eq`).
So a sanad whose nodes are put into another order passes if it passed before, and where no name is
repeated its errors have the same codes (`validate_reorder`).
-/

namespace Isnad

open Document ChainLink

/-! ## Checks at other places -/

/-- The codes of what a check finds do not depend on the place. -/
def Placeless {α : Type} (check : String → α → List Issue) : Prop :=
  ∀ path path' x, (check path x).map (·.code) = (check path' x).map (·.code)

theorem Placeless.append {α : Type} {check check' : String → α → List Issue} (h : Placeless check)
    (h' : Placeless check') : Placeless fun path x => check path x ++ check' path x := by
  intro path path' x
  rw [List.map_append, List.map_append, h path path', h' path path']

namespace Document

variable {doc : Members} {α : Type}

theorem placeless_field {name : String} {isRequired : Bool} {check : String → Json → Checked α}
    (h : Placeless fun path x => (check path x).issues) :
    Placeless fun pre doc => (field doc name pre isRequired check).issues := by
  intro pre pre' doc
  dsimp only [field]
  split
  · exact h _ _ _
  · cases isRequired <;> rfl

theorem placeless_uuidIssues : Placeless fun path s => uuidIssues s path := by
  intro path path' s
  dsimp only [uuidIssues]
  split <;> rfl

theorem placeless_checkUuid : Placeless fun path x => (checkUuid path x).issues := by
  intro path path' x
  dsimp only [checkUuid]
  split
  · exact placeless_uuidIssues _ _ _
  · rfl

theorem placeless_text (name : String) : Placeless fun pre doc => (text doc name pre).issues := by
  refine placeless_field fun path path' x => ?_
  dsimp only [checkText]
  split
  · split <;> rfl
  · rfl

theorem placeless_labelled [Labelled α] (name : String) (isRequired : Bool) :
    Placeless fun pre doc => (labelled doc name pre isRequired : Checked α).issues := by
  refine placeless_field fun path path' x => ?_
  dsimp only [checkLabel]
  split <;> rfl

theorem placeless_unit (name : String) (isRequired : Bool) :
    Placeless fun pre doc => (unit doc name pre isRequired).issues := by
  refine placeless_field fun path path' x => ?_
  dsimp only [checkUnit]
  split
  · split <;> rfl
  · rfl

theorem value_text (name pre pre' : String) :
    (text doc name pre).value = (text doc name pre').value := by
  refine Option.ext fun s => ?_
  rw [text_value_eq_some_iff, text_value_eq_some_iff]

end Document

namespace Sanad

variable {doc doc' : Members} {nodes nodes' : List Json}

theorem placeless_nodeIdIssues : Placeless nodeIdIssues := by
  refine (placeless_text "node_id").append fun pre pre' doc => ?_
  rw [value_text "node_id" pre pre']
  split
  · exact placeless_uuidIssues _ _ _
  · rfl

theorem placeless_timestampIssues : Placeless timestampIssues := by
  refine (placeless_text "timestamp").append fun pre pre' doc => ?_
  rw [value_text "timestamp" pre pre']
  split
  · split <;> rfl
  · rfl

theorem placeless_nodeMemberIssues : Placeless nodeMemberIssues :=
  ((((((placeless_nodeIdIssues.append (placeless_labelled "node_type" true)).append
    (placeless_labelled "actor_type" true)).append (placeless_text "actor_id")).append
    placeless_timestampIssues).append (placeless_unit "confidence" false)).append
    (placeless_field placeless_checkUuid)).append (placeless_field placeless_checkUuid)

/-- The check of a node finds the same codes at every place. -/
theorem codes_nodeIssues (i j : Nat) (x : Json) :
    (nodeIssues i x).map (·.code) = (nodeIssues j x).map (·.code) := by
  cases x with
  | obj doc => exact placeless_nodeMemberIssues _ _ doc
  | _ => rfl

theorem codes_itemIssues {check : Nat → Json → List Issue}
    (h : ∀ i j x, (check i x).map (·.code) = (check j x).map (·.code)) (items : List Json) :
    (itemIssues check items).map (·.code) = items.flatMap fun x => (check 0 x).map (·.code) := by
  induction items generalizing check with
  | nil => rfl
  | cons x items ih =>
    rw [itemIssues_cons, List.map_append, List.flatMap_cons, ih fun i j => h (i + 1) (j + 1)]
    exact congrArg _ (List.flatMap_congr fun y _ => h 1 0 y)

/-! ## Links at other places -/

/-- The name of a node and that of its parent, if the node has a name. -/
def linkOf? (x : Json) : Option (String × Option String) :=
  (nodeLink? 0 x).map fun l => (l.id, l.parent)

theorem map_nodeLink? (i : Nat) (x : Json) :
    (nodeLink? i x).map (fun l => (l.id, l.parent)) = linkOf? x := by
  cases x with
  | obj doc =>
    rw [linkOf?, nodeLink?, nodeLink?, value_text "node_id" (nodePath i) (nodePath 0),
      Option.map_map, Option.map_map]
    rfl
  | _ => rfl

theorem lineage_nodeLinks_eq (nodes : List Json) :
    lineage (nodeLinks nodes) = nodes.filterMap linkOf? := by
  have hentries : (nodes.mapIdx nodeLink?).map (Option.map fun l => (l.id, l.parent)) =
      nodes.map linkOf? := by
    refine List.ext_getElem (by simp) fun i hi hi' => ?_
    rw [List.getElem_map, List.getElem_mapIdx, map_nodeLink?, List.getElem_map]
  have hlinks : nodes.filterMap linkOf? = ((nodes.mapIdx nodeLink?).map
      (Option.map fun l => (l.id, l.parent))).filterMap fun e => e := by
    rw [hentries, List.filterMap_map]
    rfl
  rw [hlinks, lineage, nodeLinks, List.map_filterMap, List.filterMap_map]
  rfl

/-! ## Nodes in another order -/

theorem ChainConforms.of_perm (h : ChainConforms nodes) (hperm : nodes'.Perm nodes) :
    ChainConforms nodes' where
  nonempty hnil := h.nonempty (List.nil_perm.mp (hnil ▸ hperm))
  nodes x hx := h.nodes x (hperm.mem_iff.mp hx)
  tree := h.tree.of_perm (hperm.map _)

theorem chainIssues_eq_nil_of_perm (h : present? doc "transmission_chain" = some (.arr nodes))
    (h' : present? doc' "transmission_chain" = some (.arr nodes')) (hperm : nodes'.Perm nodes)
    (hnil : chainIssues doc = []) : chainIssues doc' = [] := by
  rw [chainIssues_eq_nil_iff, holds_iff, h] at hnil
  obtain ⟨x, hx, items, rfl, hconforms⟩ := hnil
  obtain rfl := Json.arr.inj (Option.some.inj hx)
  rw [chainIssues_eq_nil_iff, holds_iff, h']
  exact ⟨_, rfl, nodes', rfl, hconforms.of_perm hperm⟩

/-- Where no name is repeated, the chain has errors of the same codes in any order. -/
theorem codes_chainIssues_perm (h : present? doc "transmission_chain" = some (.arr nodes))
    (h' : present? doc' "transmission_chain" = some (.arr nodes')) (hperm : nodes'.Perm nodes)
    (hn : (ids (nodeLinks nodes)).Nodup) :
    ((chainIssues doc').map (·.code)).Perm ((chainIssues doc).map (·.code)) := by
  cases nodes with
  | nil =>
    obtain rfl := hperm.eq_nil
    rw [chainIssues, chainIssues, h, h']
  | cons x rest =>
    cases nodes' with
    | nil => exact absurd hperm.symm.eq_nil (List.cons_ne_nil _ _)
    | cons x' rest' =>
      have hlineage :
          (lineage (nodeLinks (x' :: rest'))).Perm (lineage (nodeLinks (x :: rest))) := by
        rw [lineage_nodeLinks_eq, lineage_nodeLinks_eq]
        exact hperm.filterMap _
      rw [chainIssues, chainIssues, h, h']
      dsimp only
      rw [List.map_append, List.map_append, codes_itemIssues codes_nodeIssues,
        codes_itemIssues codes_nodeIssues, Linkage.codes_ofLinks hn hlineage]
      exact (hperm.flatMap_right _).append_right _

/-- The order of the nodes does not decide whether a sanad passes, and where no name is repeated,
its errors have the same codes in any order. -/
theorem validate_reorder (h : doc.lookup "transmission_chain" = some (.arr nodes))
    (h' : doc'.lookup "transmission_chain" = some (.arr nodes')) (hperm : nodes'.Perm nodes)
    (hrest : ∀ name, name ≠ "transmission_chain" → doc'.lookup name = doc.lookup name) :
    (validate (.obj doc')).passed = (validate (.obj doc)).passed ∧
      ((ids (nodeLinks nodes)).Nodup →
        (validate (.obj doc')).codes.Perm (validate (.obj doc)).codes) := by
  have hnodes : present? doc "transmission_chain" = some (.arr nodes) :=
    present?_eq_some_iff.mpr ⟨h, by simp⟩
  have hnodes' : present? doc' "transmission_chain" = some (.arr nodes') :=
    present?_eq_some_iff.mpr ⟨h', by simp⟩
  obtain ⟨before, after, hissues, hissues'⟩ := exists_memberIssues_around hrest
  have herrors : (validate (.obj doc)).errors = before ++ (chainIssues doc ++ after) := hissues
  have herrors' : (validate (.obj doc')).errors = before ++ (chainIssues doc' ++ after) := hissues'
  refine ⟨?_, fun hn => ?_⟩
  · have hchain : chainIssues doc' = [] ↔ chainIssues doc = [] :=
      ⟨chainIssues_eq_nil_of_perm hnodes' hnodes hperm.symm,
        chainIssues_eq_nil_of_perm hnodes hnodes' hperm⟩
    rw [Bool.eq_iff_iff]
    change (memberIssues doc').isEmpty = true ↔ (memberIssues doc).isEmpty = true
    simp only [List.isEmpty_iff, hissues, hissues', List.append_eq_nil_iff, hchain]
  · rw [Report.codes, Report.codes, herrors, herrors']
    simp only [List.map_append]
    exact ((codes_chainIssues_perm hnodes hnodes' hperm hn).append_right _).append_left _

/-- A root, two nodes that name each other as parents, and a value that is no node. -/
def tangled : List Json :=
  [.obj [("node_id", .str "r")], .obj [("node_id", .str "a"), ("parent_id", .str "b")],
    .obj [("node_id", .str "b"), ("parent_id", .str "a")], .bool true]

/-- From its end on, the chain has other errors, of the same codes. -/
theorem validate_reorder_tangled :
    let doc : Members := [("transmission_chain", .arr tangled)]
    let doc' : Members := [("transmission_chain", .arr tangled.reverse)]
    tangled.reverse.Perm tangled ∧ (ids (nodeLinks tangled)).Nodup ∧
      (validate (.obj doc')).errors ≠ (validate (.obj doc)).errors ∧
      (validate (.obj doc')).passed = (validate (.obj doc)).passed ∧
      (validate (.obj doc')).codes.Perm (validate (.obj doc)).codes := by
  have hperm : tangled.reverse.Perm tangled := List.reverse_perm tangled
  have hrest (name : String) (h : name ≠ "transmission_chain") :
      [("transmission_chain", Json.arr tangled.reverse)].lookup name =
        [("transmission_chain", Json.arr tangled)].lookup name := by
    simp only [List.lookup_cons, beq_false_of_ne h]
  have hn : (ids (nodeLinks tangled)).Nodup := by decide +kernel
  obtain ⟨hpassed, hcodes⟩ := validate_reorder rfl rfl hperm hrest
  exact ⟨hperm, hn, by decide +kernel, hpassed, hcodes hn⟩

end Sanad
end Isnad
