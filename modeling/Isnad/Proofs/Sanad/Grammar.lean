import Isnad.Proofs.Chain.Linkage
import Isnad.Proofs.Document.Field
import Isnad.Proofs.Text.Blank
import Isnad.Sanad.Validity

/-!
# The grammar of sanad documents

`Conforms` says of the members of an object what makes it a sanad document, field by field, and
`NodeConforms` and `DefectConforms` do so for the parts. The checks find no issue exactly in the
documents of this grammar (`passed_iff_conforms`). The one condition that concerns the nodes of a
chain together is that they form a tree; that the analysis of links decides it is shown in
`Linkage.isSound_iff_isTree`.
-/

namespace Isnad.Sanad

open Document

variable {doc : Members} {pre : String}

/-! ## The grammar -/

/-- A list of values of one kind. -/
def IsListOf (P : Json → Prop) (x : Json) : Prop := ∃ items, x = .arr items ∧ ∀ y ∈ items, P y

/-- An object whose members are of one kind. -/
def IsObjectOf (P : Members → Prop) (x : Json) : Prop := ∃ doc, x = .obj doc ∧ P doc

/-- An object that says of both questions yes or no. -/
def IsIndependence (x : Json) : Prop :=
  (∃ b, x.member? "verified" = some (.bool b)) ∧ ∃ b, x.member? "independent" = some (.bool b)

structure NodeConforms (doc : Members) : Prop where
  id : Holds doc "node_id" IsUuid
  type : Holds doc "node_type" (IsLabel NodeType)
  actorType : Holds doc "actor_type" (IsLabel ActorType)
  actor : Holds doc "actor_id" IsText
  timestamp : Holds doc "timestamp" IsTime
  confidence : MayHold doc "confidence" IsUnit
  previous : MayHold doc "prev_node_id" IsUuid
  parent : MayHold doc "parent_id" IsUuid

/-- The text of a value. -/
def text? : Json → Option String
  | .str s => some s
  | _ => none

/-- The name of the node before this one, or else that of its parent. -/
def parentText? (doc : Members) : Option String :=
  match present? doc "prev_node_id" with
  | some x => text? x
  | none => (present? doc "parent_id").bind text?

/-- A node by its name and that of its parent. -/
def nodeEntry : Json → String × Option String
  | .obj doc => (((present? doc "node_id").bind text?).getD "", parentText? doc)
  | _ => ("", none)

/-- Nodes of a chain, which form a tree by the names they use. -/
structure ChainConforms (chain : List Json) : Prop where
  nonempty : chain ≠ []
  nodes : ∀ node ∈ chain, IsObjectOf NodeConforms node
  tree : Lineage.IsTree (chain.map nodeEntry)

structure DefectConforms (doc : Members) : Prop where
  type : Holds doc "defect_type" (IsLabel DefectType)
  severity : Holds doc "severity" (IsLabel DefectSeverity)
  cure : Holds doc "cure_protocol" (IsLabel CureProtocol)
  status : MayHold doc "status" (IsLabel DefectStatus)
  description : Holds doc "description" IsText

/-- A fatal defect that is open, be it by having no status. -/
def IsOpenFatal (doc : Members) : Prop :=
  Holds doc "severity" (Names DefectSeverity.fatal) ∧
    MayHold doc "status" (Names DefectStatus.opened)

def HasOpenFatal (doc : Members) : Prop :=
  Holds doc "defects" fun x => ∃ items, x = .arr items ∧ ∃ d ∈ items, IsObjectOf IsOpenFatal d

/-- The grammar of sanad documents. -/
structure Conforms (doc : Members) : Prop where
  id : Holds doc "sanad_id" IsUuid
  claim : Holds doc "claim_id" IsUuid
  primary : Holds doc "primary_evidence_id" IsUuid
  corroborators : MayHold doc "corroborating_evidence_ids" (IsListOf IsUuid)
  independence : MayHold doc "independence_check" IsIndependence
  confidence : Holds doc "extraction_confidence" IsUnit
  status : Holds doc "corroboration_status" (IsLabel CorroborationStatus)
  grade : Holds doc "sanad_grade" (IsLabel Grade)
  chain : Holds doc "transmission_chain" fun x => ∃ nodes, x = .arr nodes ∧ ChainConforms nodes
  defects : MayHold doc "defects" (IsListOf (IsObjectOf DefectConforms))
  gradeOfFatal : HasOpenFatal doc → Holds doc "sanad_grade" (Names Grade.d)

/-! ## Lists -/

theorem itemIssues_eq_nil_iff {check : Nat → Json → List Issue} {items : List Json} :
    itemIssues check items = [] ↔ ∀ i (h : i < items.length), check i items[i] = [] := by
  rw [itemIssues, List.flatten_eq_nil_iff]
  simp only [List.mem_mapIdx]
  constructor
  · exact fun h i hi => h _ ⟨i, hi, rfl⟩
  · rintro h - ⟨i, hi, rfl⟩
    exact h i hi

/-- A check of items that does not depend on their positions. -/
theorem itemIssues_eq_nil_iff_forall {check : Nat → Json → List Issue} {P : Json → Prop}
    (hP : ∀ i x, check i x = [] ↔ P x) {items : List Json} :
    itemIssues check items = [] ↔ ∀ x ∈ items, P x := by
  rw [itemIssues_eq_nil_iff, List.forall_mem_iff_getElem]
  exact forall₂_congr fun i hi => hP i items[i]

/-! ## Fields of the document -/

theorem primaryIssues_eq_nil_iff :
    primaryIssues doc = [] ↔ Holds doc "primary_evidence_id" IsUuid := by
  rw [holds_iff, primaryIssues]
  cases present? doc "primary_evidence_id" with
  | none => simp
  | some x => simp [checkUuid_issues_eq_nil_iff]

theorem corroboratorIssues_eq_nil_iff :
    corroboratorIssues doc = [] ↔ MayHold doc "corroborating_evidence_ids" (IsListOf IsUuid) := by
  rw [mayHold_iff, corroboratorIssues]
  cases present? doc "corroborating_evidence_ids" with
  | none => simp
  | some x =>
    cases x with
    | arr ids =>
      simp only [Option.some.injEq, forall_eq', IsListOf, Json.arr.injEq, exists_eq_left']
      exact itemIssues_eq_nil_iff_forall (P := IsUuid) fun _ _ => checkUuid_issues_eq_nil_iff
    | _ => simp [IsListOf]

theorem hasBool_iff {x : Json} {name : String} :
    hasBool x name = true ↔ ∃ b, x.member? name = some (.bool b) := by
  unfold hasBool
  split <;> simp_all

theorem independenceIssues_eq_nil_iff :
    independenceIssues doc = [] ↔ MayHold doc "independence_check" IsIndependence := by
  rw [mayHold_iff, independenceIssues]
  cases present? doc "independence_check" with
  | none => simp
  | some x =>
    simp only [Option.some.injEq, forall_eq', IsIndependence, ← hasBool_iff, ← Bool.and_eq_true]
    cases hasBool x "verified" && hasBool x "independent" <;> simp

/-! ## Nodes and the chain -/

theorem nodeIdIssues_eq_nil_iff : nodeIdIssues pre doc = [] ↔ Holds doc "node_id" IsUuid := by
  simp only [nodeIdIssues, List.append_eq_nil_iff, text_issues_eq_nil_iff]
  constructor
  · rintro ⟨⟨x, hx, hn, ⟨hs⟩⟩, h⟩
    rw [text_value_eq_some_iff.mpr ⟨_, hx, hn, rfl, hs⟩] at h
    obtain ⟨u, hu⟩ := uuidIssues_eq_nil_iff.mp h
    exact ⟨_, hx, hn, .intro hu⟩
  · rintro ⟨x, hx, hn, ⟨hu⟩⟩
    have hs := Uuid.isBlankText_of_ofString? hu
    refine ⟨⟨_, hx, hn, .intro hs⟩, ?_⟩
    rw [text_value_eq_some_iff.mpr ⟨_, hx, hn, rfl, hs⟩]
    exact uuidIssues_eq_nil_iff.mpr ⟨_, hu⟩

theorem timestampIssues_eq_nil_iff :
    timestampIssues pre doc = [] ↔ Holds doc "timestamp" IsTime := by
  simp only [timestampIssues, List.append_eq_nil_iff, text_issues_eq_nil_iff]
  constructor
  · rintro ⟨⟨x, hx, hn, @⟨s, hs⟩⟩, h⟩
    rw [text_value_eq_some_iff.mpr ⟨_, hx, hn, rfl, hs⟩] at h
    cases ht : Timestamp.ofRfc3339? s with
    | none => simp [ht] at h
    | some t => exact ⟨_, hx, hn, .intro ht⟩
  · rintro ⟨x, hx, hn, ⟨ht⟩⟩
    have hs := Timestamp.isBlankText_of_ofRfc3339? ht
    refine ⟨⟨_, hx, hn, .intro hs⟩, ?_⟩
    rw [text_value_eq_some_iff.mpr ⟨_, hx, hn, rfl, hs⟩]
    simp [ht]

theorem nodeMemberIssues_eq_nil_iff : nodeMemberIssues pre doc = [] ↔ NodeConforms doc := by
  simp only [nodeMemberIssues, List.append_eq_nil_iff, nodeIdIssues_eq_nil_iff,
    labelled_issues_eq_nil_iff, text_issues_eq_nil_iff, timestampIssues_eq_nil_iff,
    unit?_issues_eq_nil_iff, uuid?_issues_eq_nil_iff]
  constructor
  · rintro ⟨⟨⟨⟨⟨⟨⟨hid, htype⟩, hactorType⟩, hactor⟩, htime⟩, hconf⟩, hprev⟩, hparent⟩
    exact ⟨hid, htype, hactorType, hactor, htime, hconf, hprev, hparent⟩
  · rintro ⟨hid, htype, hactorType, hactor, htime, hconf, hprev, hparent⟩
    exact ⟨⟨⟨⟨⟨⟨⟨hid, htype⟩, hactorType⟩, hactor⟩, htime⟩, hconf⟩, hprev⟩, hparent⟩

theorem nodeIssues_eq_nil_iff {i : Nat} {x : Json} :
    nodeIssues i x = [] ↔ IsObjectOf NodeConforms x := by
  cases x with
  | obj doc => simp [nodeIssues, IsObjectOf, nodeMemberIssues_eq_nil_iff]
  | _ => simp [nodeIssues, IsObjectOf]

theorem reference?_eq (name : String) :
    reference? doc name = (present? doc name).bind text? := by
  unfold reference? text?
  cases present? doc name with
  | none => rfl
  | some x => cases x <;> rfl

/-- Where the reference to the previous node is absent or a text, the other one counts only without
it. -/
theorem parentText?_eq (h : MayHold doc "prev_node_id" IsUuid) :
    parentText? doc = (reference? doc "prev_node_id" <|> reference? doc "parent_id") := by
  rw [reference?_eq, reference?_eq, parentText?]
  rw [mayHold_iff] at h
  cases hp : present? doc "prev_node_id" with
  | none => rfl
  | some x =>
    obtain ⟨-⟩ := h x hp
    rfl

theorem nodeLink?_of_conforms {i : Nat} {x : Json} (h : IsObjectOf NodeConforms x) :
    nodeLink? i x = some ⟨i, (nodeEntry x).1, (nodeEntry x).2⟩ := by
  obtain ⟨doc, rfl, hc⟩ := h
  obtain ⟨x, hx, hn, ⟨hu⟩⟩ := hc.id
  have hpresent := present?_eq_some_iff.mpr ⟨hx, hn⟩
  have hvalue : (text doc "node_id" (nodePath i)).value = some _ :=
    text_value_eq_some_iff.mpr ⟨_, hx, hn, rfl, Uuid.isBlankText_of_ofString? hu⟩
  simp [nodeLink?, nodeEntry, hvalue, hpresent, text?, parentText?_eq hc.previous]

/-- The links of nodes each of which conforms are those of the chain of their names. -/
theorem lineage_nodeLinks {nodes : List Json} (h : ∀ x ∈ nodes, IsObjectOf NodeConforms x) :
    ChainLink.lineage (nodeLinks nodes) = nodes.map nodeEntry := by
  have hlinks : nodes.mapIdx nodeLink? =
      (nodes.mapIdx fun i x => (⟨i, (nodeEntry x).1, (nodeEntry x).2⟩ : ChainLink)).map some := by
    apply List.ext_getElem
    · simp
    · intro i hi _
      simp only [List.getElem_mapIdx, List.getElem_map]
      exact nodeLink?_of_conforms (h _ (List.getElem_mem _))
  rw [nodeLinks, hlinks, List.filterMap_map, ChainLink.lineage]
  apply List.ext_getElem
  · simp
  · intro i hi _
    simp

theorem nodeLinks_eq_nil_iff {nodes : List Json} (h : ∀ x ∈ nodes, IsObjectOf NodeConforms x) :
    nodeLinks nodes = [] ↔ nodes = [] := by
  have hl := congrArg List.length (lineage_nodeLinks h)
  rw [ChainLink.lineage, List.length_map, List.length_map] at hl
  rw [← List.length_eq_zero_iff, hl, List.length_eq_zero_iff]

/-- The checks of a chain accept its nodes one by one, and their names as those of a tree. -/
theorem chainIssues_eq_nil_iff :
    chainIssues doc = [] ↔
      Holds doc "transmission_chain" fun x => ∃ nodes, x = .arr nodes ∧ ChainConforms nodes := by
  rw [holds_iff, chainIssues]
  cases present? doc "transmission_chain" with
  | none => simp
  | some x =>
    cases x with
    | arr nodes =>
      cases nodes with
      | nil =>
        simp only [List.cons_ne_nil, Option.some.injEq, exists_eq_left', Json.arr.injEq, false_iff]
        exact fun h => h.nonempty rfl
      | cons node rest =>
        simp only [Option.some.injEq, exists_eq_left', Json.arr.injEq, List.append_eq_nil_iff,
          itemIssues_eq_nil_iff_forall (P := IsObjectOf NodeConforms)
            fun _ _ => nodeIssues_eq_nil_iff]
        constructor
        · rintro ⟨hnodes, hsound⟩
          have hne : nodeLinks (node :: rest) ≠ [] :=
            mt (nodeLinks_eq_nil_iff hnodes).mp (List.cons_ne_nil _ _)
          refine ⟨List.cons_ne_nil _ _, hnodes, ?_⟩
          rw [← lineage_nodeLinks hnodes, ← Linkage.isSound_iff_isTree hne]
          exact List.isEmpty_iff.mpr hsound
        · rintro ⟨-, hnodes, htree⟩
          have hne : nodeLinks (node :: rest) ≠ [] :=
            mt (nodeLinks_eq_nil_iff hnodes).mp (List.cons_ne_nil _ _)
          rw [← lineage_nodeLinks hnodes, ← Linkage.isSound_iff_isTree hne] at htree
          exact ⟨hnodes, List.isEmpty_iff.mp htree⟩
    | _ => simp

/-! ## Defects and the grade -/

theorem descriptionIssues_eq_nil_iff :
    descriptionIssues pre doc = [] ↔ Holds doc "description" IsText := by
  rw [holds_iff, descriptionIssues]
  cases present? doc "description" with
  | none => simp
  | some x =>
    simp only [Option.some.injEq, exists_eq_left']
    constructor
    · intro h
      cases x with
      | str s =>
        cases hs : Text.isBlankText s with
        | true => simp [hs] at h
        | false => exact .intro hs
      | _ => simp at h
    · rintro ⟨hs⟩
      simp [hs]

theorem defectIssues_eq_nil_iff {i : Nat} {x : Json} :
    defectIssues i x = [] ↔ IsObjectOf DefectConforms x := by
  cases x with
  | obj doc =>
    simp only [defectIssues, List.append_eq_nil_iff, labelled_issues_eq_nil_iff,
      labelled?_issues_eq_nil_iff, descriptionIssues_eq_nil_iff, IsObjectOf, Json.obj.injEq,
      exists_eq_left']
    constructor
    · rintro ⟨⟨⟨⟨htype, hseverity⟩, hcure⟩, hstatus⟩, hdescription⟩
      exact ⟨htype, hseverity, hcure, hstatus, hdescription⟩
    · rintro ⟨htype, hseverity, hcure, hstatus, hdescription⟩
      exact ⟨⟨⟨⟨htype, hseverity⟩, hcure⟩, hstatus⟩, hdescription⟩
  | _ => simp [defectIssues, IsObjectOf]

theorem defectListIssues_eq_nil_iff :
    defectListIssues doc = [] ↔ MayHold doc "defects" (IsListOf (IsObjectOf DefectConforms)) := by
  rw [mayHold_iff, defectListIssues]
  cases present? doc "defects" with
  | none => simp
  | some x =>
    cases x with
    | arr defects =>
      simp only [Option.some.injEq, forall_eq', IsListOf, Json.arr.injEq, exists_eq_left']
      exact itemIssues_eq_nil_iff_forall (P := IsObjectOf DefectConforms)
        fun _ _ => defectIssues_eq_nil_iff
    | _ => simp [IsListOf]

/-- A status that is absent, null or a label reads as open unless it is another label. -/
theorem status_getD_eq_opened_iff (h : MayHold doc "status" (IsLabel DefectStatus)) :
    (labelled doc "status" pre false).value.getD DefectStatus.opened = .opened ↔
      MayHold doc "status" (Names DefectStatus.opened) := by
  rw [mayHold_iff] at h ⊢
  cases hp : present? doc "status" with
  | none =>
    have hnone : (labelled doc "status" pre false : Checked DefectStatus).value = none := by
      simp [labelled, field, hp, Checked.absent]
    simp [hnone]
  | some x =>
    obtain ⟨a, ha⟩ := h x hp
    have hread : ∀ b : DefectStatus,
        (labelled doc "status" pre false).value = some b ↔ Names b x := by
      intro b
      rw [labelled_value_eq_some_iff, holds_iff, hp]
      simp
    have ha' := (hread a).mpr ha
    simp only [Option.some.injEq, forall_eq', ← hread, ha', Option.getD_some]

theorem fatalStatus?_eq_opened_iff {x : Json} (h : IsObjectOf DefectConforms x) :
    fatalStatus? x = some .opened ↔ IsObjectOf IsOpenFatal x := by
  obtain ⟨doc, rfl, hd⟩ := h
  simp only [fatalStatus?, labelled_value_eq_some_iff, Option.ite_none_right_eq_some,
    Option.some.injEq, status_getD_eq_opened_iff hd.status, IsObjectOf, Json.obj.injEq,
    exists_eq_left', IsOpenFatal]

theorem any_openFatal_iff (h : MayHold doc "defects" (IsListOf (IsObjectOf DefectConforms))) :
    (defectDocs doc).any (fun d => fatalStatus? d = some .opened) = true ↔ HasOpenFatal doc := by
  rw [mayHold_iff] at h
  rw [HasOpenFatal, holds_iff, defectDocs]
  cases hp : present? doc "defects" with
  | none => simp
  | some x =>
    obtain ⟨items, rfl, hitems⟩ := h x hp
    simp only [List.any_eq_true, decide_eq_true_eq, Option.some.injEq, exists_eq_left',
      Json.arr.injEq]
    exact exists_congr fun d => and_congr_right fun hd =>
      fatalStatus?_eq_opened_iff (hitems d hd)

theorem gradeIssues_eq_nil_iff (hg : Holds doc "sanad_grade" (IsLabel Grade))
    (hd : MayHold doc "defects" (IsListOf (IsObjectOf DefectConforms))) :
    gradeIssues doc (labelled doc "sanad_grade" "" true).value = [] ↔
      (HasOpenFatal doc → Holds doc "sanad_grade" (Names Grade.d)) := by
  obtain ⟨x, hx, hn, g, hgx⟩ := hg
  have hread : ∀ k : Grade, (labelled doc "sanad_grade" "" true).value = some k ↔
      Holds doc "sanad_grade" (Names k) := fun _ => labelled_value_eq_some_iff
  rw [← any_openFatal_iff hd, ← hread, (hread g).mpr ⟨x, hx, hn, hgx⟩, gradeIssues]
  split
  · rename_i hf
    simp [hf.1, hf.2]
  · rename_i hf
    simpa using hf

/-! ## The document -/

theorem memberIssues_eq_nil_iff : memberIssues doc = [] ↔ Conforms doc := by
  simp only [memberIssues, List.append_eq_nil_iff, uuid_issues_eq_nil_iff,
    primaryIssues_eq_nil_iff, corroboratorIssues_eq_nil_iff, independenceIssues_eq_nil_iff,
    unit_issues_eq_nil_iff, labelled_issues_eq_nil_iff, chainIssues_eq_nil_iff,
    defectListIssues_eq_nil_iff]
  constructor
  · rintro ⟨⟨⟨⟨⟨⟨⟨⟨⟨⟨hid, hclaim⟩, hprimary⟩, hcorr⟩, hind⟩, hconf⟩, hstatus⟩, hgrade⟩, hchain⟩,
      hdefects⟩, hfatal⟩
    exact ⟨hid, hclaim, hprimary, hcorr, hind, hconf, hstatus, hgrade, hchain, hdefects,
      (gradeIssues_eq_nil_iff hgrade hdefects).mp hfatal⟩
  · rintro ⟨hid, hclaim, hprimary, hcorr, hind, hconf, hstatus, hgrade, hchain, hdefects, hfatal⟩
    exact ⟨⟨⟨⟨⟨⟨⟨⟨⟨⟨hid, hclaim⟩, hprimary⟩, hcorr⟩, hind⟩, hconf⟩, hstatus⟩, hgrade⟩, hchain⟩,
      hdefects⟩, (gradeIssues_eq_nil_iff hgrade hdefects).mpr hfatal⟩

theorem passed_iff_memberIssues {x : Json} :
    (validate x).passed = true ↔ ∃ doc, x = .obj doc ∧ memberIssues doc = [] := by
  cases x with
  | obj doc => simp [validate, Report.ofIssues]
  | _ => simp [validate, Report.failed, Report.ofIssues]

/-- The checks of a document pass exactly on the objects of the grammar. -/
theorem passed_iff_conforms (x : Json) :
    (validate x).passed = true ↔ IsObjectOf Conforms x := by
  cases x with
  | obj doc =>
    simp only [validate, Report.ofIssues, List.isEmpty_iff, memberIssues_eq_nil_iff, IsObjectOf,
      Json.obj.injEq, exists_eq_left']
  | _ => simp [validate, Report.failed, Report.ofIssues, IsObjectOf]

end Isnad.Sanad
