import Isnad.Proofs.Document.Written
import Isnad.Proofs.Grading.Result
import Isnad.Proofs.Sanad.Codes
import Isnad.Proofs.Sanad.Grammar

/-!
# Sanads that are written

The document of a sanad has every field, of the kind that its check asks for and with what was
written. So the checks find nothing wrong with its form. What they can find is what the sanad says:
texts that are blank, confidences out of bounds, nodes that form no tree, and a grade that an open
fatal defect does not allow (`validate_toJson`).
-/

namespace Isnad

open Json Document

namespace IssueCode

/-- The codes of what is wrong with the form of a document, whatever it says. A text that is blank
counts as a missing field, so this is not among them. -/
def ofForm : List IssueCode :=
  [.invalidDocument, .invalidType, .invalidEnum, .invalidUuid, .invalidTimestamp,
    .missingPrimaryEvidence]

/-- The codes of what can be wrong with what a sanad says, apart from its grade. -/
def ofContent : List IssueCode :=
  [.missingField, .invalidConfidence, .emptyChain, .missingDescription, .sanadDuplicateNode,
    .sanadOrphanReference, .sanadNoRoot, .sanadMultipleRoots, .sanadCycleDetected,
    .sanadOrphanedNode]

theorem mem_ofContent_of_isLinkage {c : IssueCode} (h : c.isLinkage = true) : c ∈ ofContent := by
  revert h
  cases c <;> decide

theorem not_mem_ofForm {c : IssueCode} (h : c ∈ ofContent ∨ c = .gradeDefectMismatch) :
    c ∉ ofForm := by
  rcases h with h | rfl
  · have hdisjoint : ∀ c ∈ ofContent, c ∉ ofForm := by decide
    exact hdisjoint c h
  · decide

end IssueCode

theorem Report.hasError_iff {r : Report} {c : IssueCode} :
    r.hasError c = true ↔ c ∈ r.codes := by
  simp [hasError, codes]

/-! ## Fields -/

namespace Document

variable {doc : Members} {name pre : String} {isRequired : Bool} {i : Issue}

/-- The check of a text that was written looks only for blanks. -/
theorem text_mem_ofContent {s : String} (h : doc.lookup name = some (.str s))
    (hi : i ∈ (text doc name pre).issues) : i.code ∈ IssueCode.ofContent := by
  rw [text, field, present?_eq_some_iff.mpr ⟨h, str_ne_null s⟩] at hi
  dsimp only [checkText] at hi
  split at hi
  · rw [List.mem_singleton.mp hi]
    exact List.mem_cons_self
  · exact absurd hi List.not_mem_nil

/-- The check of a number that can be read looks only at its bounds. -/
theorem unit_mem_ofContent (h : MayHold doc name fun x => ∃ v, Reads v x)
    (hi : i ∈ (unit doc name pre isRequired).issues) : i.code ∈ IssueCode.ofContent := by
  rw [mayHold_iff] at h
  unfold unit field at hi
  split at hi
  · rename_i x hx
    obtain ⟨v, hv⟩ := h x hx
    rw [checkUnit, decimal?_eq_some_iff.mpr hv] at hi
    dsimp only at hi
    split at hi
    · exact absurd hi List.not_mem_nil
    · rw [List.mem_singleton.mp hi]
      exact List.mem_cons_of_mem _ List.mem_cons_self
  · cases isRequired with
    | true =>
      rw [List.mem_singleton.mp hi]
      exact List.mem_cons_self
    | false => exact absurd hi List.not_mem_nil

end Document

/-! ## Nodes -/

namespace TransmissionNode

variable {n : TransmissionNode} {doc : Members}

/-- The members of the document of a node. -/
structure WrittenAs (n : TransmissionNode) (doc : Members) : Prop where
  id : doc.lookup "node_id" = some (ofUuid n.id)
  type : doc.lookup "node_type" = some (ofLabel n.type)
  actorType : doc.lookup "actor_type" = some (ofLabel n.actorType)
  actor : doc.lookup "actor_id" = some (.str n.actor)
  timestamp : doc.lookup "timestamp" = some (ofTimestamp n.timestamp)
  confidence : doc.lookup "confidence" = some (ofOption ofDecimal n.confidence)
  previous : doc.lookup "prev_node_id" = some (ofOption ofUuid n.previous)
  parentRef : doc.lookup "parent_id" = some (ofOption ofUuid n.parentRef)

theorem exists_writtenAs (n : TransmissionNode) : ∃ doc, n.toJson = .obj doc ∧ n.WrittenAs doc := by
  obtain ⟨doc, hdoc, hmember⟩ := exists_object _
  exact ⟨doc, hdoc, hmember _, hmember _, hmember _, hmember _, hmember _, hmember _, hmember _,
    hmember _⟩

/-- Of a node that was written, the checks can find fault with the name of the actor and with the
confidence. -/
theorem nodeIssues_mem_ofContent (h : 0 ≤ n.timestamp.date.year ∧ n.timestamp.date.year ≤ 9999)
    {k : Nat} {i : Issue} (hi : i ∈ Sanad.nodeIssues k n.toJson) :
    i.code ∈ IssueCode.ofContent := by
  obtain ⟨doc, hdoc, hw⟩ := n.exists_writtenAs
  have hreads : MayHold doc "confidence" fun x => ∃ v, Reads v x :=
    mayHold_ofOption hw.confidence ofDecimal_ne_null fun d _ =>
      (exists_reads_ofDecimal d).imp fun _ hv => hv.1
  simp only [hdoc, Sanad.nodeIssues, Sanad.nodeMemberIssues,
    Sanad.nodeIdIssues_eq_nil_iff.mpr (holds_ofUuid hw.id),
    labelled_issues_eq_nil_iff.mpr (holds_ofLabel hw.type),
    labelled_issues_eq_nil_iff.mpr (holds_ofLabel hw.actorType),
    Sanad.timestampIssues_eq_nil_iff.mpr (holds_ofTimestamp h hw.timestamp),
    uuid?_issues_eq_nil_iff.mpr (mayHold_isUuid_ofOption hw.previous),
    uuid?_issues_eq_nil_iff.mpr (mayHold_isUuid_ofOption hw.parentRef),
    List.nil_append, List.append_nil, List.mem_append] at hi
  rcases hi with hi | hi
  · exact text_mem_ofContent hw.actor hi
  · exact unit_mem_ofContent hreads hi

/-- The link of a node that was written is that of the node. -/
theorem nodeLink?_toJson (n : TransmissionNode) (k : Nat) :
    Sanad.nodeLink? k n.toJson = some ⟨k, n.id.toString, n.parent.map Uuid.toString⟩ := by
  obtain ⟨doc, hdoc, hw⟩ := n.exists_writtenAs
  have hname : (text doc "node_id" (Sanad.nodePath k)).value = some n.id.toString :=
    text_value_eq_some_iff.mpr ⟨_, hw.id, ofUuid_ne_null _, rfl,
      Uuid.isBlankText_of_ofString? n.id.ofString?_toString⟩
  have hparent : (Sanad.reference? doc "prev_node_id" <|> Sanad.reference? doc "parent_id") =
      n.parent.map Uuid.toString := by
    rw [Sanad.reference?_eq, Sanad.reference?_eq, present?_ofOption hw.previous ofUuid_ne_null,
      present?_ofOption hw.parentRef ofUuid_ne_null, parent]
    cases n.previous with
    | some _ => rfl
    | none => cases n.parentRef <;> rfl
  rw [hdoc, Sanad.nodeLink?, hname, hparent]
  rfl

theorem nodeLinks_toJson (chain : List TransmissionNode) :
    Sanad.nodeLinks (chain.map toJson) = ChainLink.ofNodes chain := by
  have hlinks : (chain.map toJson).mapIdx Sanad.nodeLink? = (ChainLink.ofNodes chain).map some := by
    apply List.ext_getElem
    · simp [ChainLink.ofNodes]
    · intro k hk _
      simp only [List.getElem_mapIdx, List.getElem_map, ChainLink.ofNodes, nodeLink?_toJson]
  rw [Sanad.nodeLinks, hlinks, List.filterMap_map]
  exact List.filterMap_some

end TransmissionNode

/-! ## Defects -/

namespace Defect

variable {d : Defect}

/-- The members of the document of a defect. -/
structure WrittenAs (d : Defect) (doc : Members) : Prop where
  type : doc.lookup "defect_type" = some (ofLabel d.type)
  severity : doc.lookup "severity" = some (ofLabel d.severity)
  cure : doc.lookup "cure_protocol" = some (ofLabel d.cure)
  status : doc.lookup "status" = some (ofLabel d.status)
  description : doc.lookup "description" = some (.str d.description)

theorem exists_writtenAs (d : Defect) : ∃ doc, d.toJson = .obj doc ∧ d.WrittenAs doc := by
  obtain ⟨doc, hdoc, hmember⟩ := exists_object _
  exact ⟨doc, hdoc, hmember _, hmember _, hmember _, hmember _, hmember _⟩

/-- A fatal defect, but no longer open. -/
def isClosedFatal (d : Defect) : Bool := !d.isOpen && d.severity = .fatal

/-- Of a defect that was written, the checks can find fault with the description. -/
theorem defectIssues_mem_ofContent {k : Nat} {i : Issue} (hi : i ∈ Sanad.defectIssues k d.toJson) :
    i.code ∈ IssueCode.ofContent := by
  obtain ⟨doc, hdoc, hw⟩ := d.exists_writtenAs
  simp only [hdoc, Sanad.defectIssues, labelled_issues_eq_nil_iff.mpr (holds_ofLabel hw.type),
    labelled_issues_eq_nil_iff.mpr (holds_ofLabel hw.severity),
    labelled_issues_eq_nil_iff.mpr (holds_ofLabel hw.cure),
    labelled?_issues_eq_nil_iff.mpr (.of_lookup hw.status ⟨_, .text⟩), List.nil_append,
    Sanad.descriptionIssues,
    present?_eq_some_iff.mpr ⟨hw.description, str_ne_null _⟩] at hi
  split at hi
  · rw [List.mem_singleton.mp hi]
    simp [IssueCode.ofContent]
  · exact absurd hi List.not_mem_nil

theorem fatalStatus?_toJson (d : Defect) :
    Sanad.fatalStatus? d.toJson = if d.severity = .fatal then some d.status else none := by
  obtain ⟨doc, hdoc, hw⟩ := d.exists_writtenAs
  have hseverity : (labelled doc "severity" "" true).value = some d.severity :=
    labelled_value_eq_some_iff.mpr (holds_names_ofLabel hw.severity)
  have hstatus : (labelled doc "status" "" false).value = some d.status :=
    labelled_value_eq_some_iff.mpr (holds_names_ofLabel hw.status)
  simp [hdoc, Sanad.fatalStatus?, hseverity, hstatus]

end Defect

/-! ## Sanads -/

namespace Sanad

variable {s : Sanad} {doc : Members}

/-- The members of the document of a sanad. -/
structure WrittenAs (s : Sanad) (doc : Members) : Prop where
  id : doc.lookup "sanad_id" = some (ofUuid s.id)
  claim : doc.lookup "claim_id" = some (ofUuid s.claim)
  primary : doc.lookup "primary_evidence_id" = some (ofUuid s.primary)
  corroborators : doc.lookup "corroborating_evidence_ids" = some (ofList ofUuid s.corroborators)
  confidence : doc.lookup "extraction_confidence" = some (ofDecimal s.confidence)
  chain : doc.lookup "transmission_chain" = some (ofList TransmissionNode.toJson s.chain)
  defects : doc.lookup "defects" = some (ofList Defect.toJson s.defects)
  grade : doc.lookup "sanad_grade" = some (ofLabel s.grade)
  status : doc.lookup "corroboration_status" = some (ofLabel s.status)
  independence : doc.lookup "independence_check" =
    some (ofOption IndependenceCheck.toJson s.independence)

theorem exists_writtenAs (s : Sanad) : ∃ doc, s.toJson = .obj doc ∧ s.WrittenAs doc := by
  obtain ⟨doc, hdoc, hmember⟩ := exists_object _
  exact ⟨doc, hdoc, hmember _, hmember _, hmember _, hmember _, hmember _, hmember _, hmember _,
    hmember _, hmember _, hmember _⟩

/-- The warning of a fatal defect that is no longer open. -/
def closedFatalWarning (k : Nat) : Issue :=
  ⟨.fatalDefectNotOpen, "fatal defect is no longer open; grade is not forced to D", defectPath k⟩

namespace WrittenAs

variable (hw : s.WrittenAs doc)
include hw

theorem present?_chain :
    present? doc "transmission_chain" = some (.arr (s.chain.map TransmissionNode.toJson)) :=
  present?_eq_some_iff.mpr ⟨hw.chain, by simp⟩

theorem present?_defects : present? doc "defects" = some (.arr (s.defects.map Defect.toJson)) :=
  present?_eq_some_iff.mpr ⟨hw.defects, by simp⟩

/-- The checks that can find fault with a sanad that was written. -/
theorem memberIssues_eq :
    memberIssues doc = (unit doc "extraction_confidence" "" true).issues ++ chainIssues doc ++
      defectListIssues doc ++ gradeIssues doc (some s.grade) := by
  have hcorroborators : MayHold doc "corroborating_evidence_ids" (IsListOf IsUuid) :=
    .of_lookup hw.corroborators ⟨_, rfl, List.forall_mem_map.mpr fun u _ => isUuid_ofUuid u⟩
  have hindependence : MayHold doc "independence_check" IsIndependence :=
    mayHold_ofOption hw.independence (by simp [IndependenceCheck.toJson, object]) fun c _ =>
      ⟨⟨_, member?_object _ _⟩, _, member?_object _ _⟩
  have hgrade : (labelled doc "sanad_grade" "" true).value = some s.grade :=
    labelled_value_eq_some_iff.mpr (holds_names_ofLabel hw.grade)
  simp only [memberIssues, uuid_issues_eq_nil_iff.mpr (holds_ofUuid hw.id),
    uuid_issues_eq_nil_iff.mpr (holds_ofUuid hw.claim),
    primaryIssues_eq_nil_iff.mpr (holds_ofUuid hw.primary),
    corroboratorIssues_eq_nil_iff.mpr hcorroborators,
    independenceIssues_eq_nil_iff.mpr hindependence,
    labelled_issues_eq_nil_iff.mpr (holds_ofLabel hw.status),
    labelled_issues_eq_nil_iff.mpr (holds_ofLabel hw.grade), hgrade, List.nil_append,
    List.append_nil]

theorem chainIssues_mem_ofContent
    (h : ∀ n ∈ s.chain, 0 ≤ n.timestamp.date.year ∧ n.timestamp.date.year ≤ 9999) {i : Issue}
    (hi : i ∈ chainIssues doc) : i.code ∈ IssueCode.ofContent := by
  have hnodes : ∀ i ∈ itemIssues nodeIssues (s.chain.map TransmissionNode.toJson),
      i.code ∈ IssueCode.ofContent := by
    refine forall_mem_itemIssues fun k x hx i hi => ?_
    obtain ⟨n, hn, rfl⟩ := List.mem_map.mp hx
    exact n.nodeIssues_mem_ofContent (h n hn) hi
  rw [chainIssues, hw.present?_chain] at hi
  cases hchain : s.chain.map TransmissionNode.toJson with
  | nil =>
    rw [hchain] at hi
    rw [List.mem_singleton.mp hi]
    simp [IssueCode.ofContent]
  | cons node rest =>
    rw [hchain] at hi hnodes
    rcases List.mem_append.mp hi with hi | hi
    · exact hnodes i hi
    · exact IssueCode.mem_ofContent_of_isLinkage (Linkage.issues_isLinkage hi)

theorem defectListIssues_mem_ofContent {i : Issue} (hi : i ∈ defectListIssues doc) :
    i.code ∈ IssueCode.ofContent := by
  rw [defectListIssues, hw.present?_defects] at hi
  refine forall_mem_itemIssues (P := (·.code ∈ IssueCode.ofContent)) (fun k x hx i hi => ?_) i hi
  obtain ⟨d, -, rfl⟩ := List.mem_map.mp hx
  exact d.defectIssues_mem_ofContent hi

theorem codes_gradeIssues :
    (gradeIssues doc (some s.grade)).map (·.code) =
      if s.hasOpenFatal = true ∧ s.grade ≠ .d then [.gradeDefectMismatch] else [] := by
  have hfatal : (defectDocs doc).any (fun d => fatalStatus? d = some .opened) = s.hasOpenFatal := by
    rw [defectDocs, hw.present?_defects, hasOpenFatal, List.any_map]
    congr 1
    funext d
    simp [Defect.fatalStatus?_toJson, Defect.isOpenFatal, Defect.isOpen, Bool.and_comm]
  rw [gradeIssues, hfatal]
  split <;> rfl

/-- Each fatal defect that is no longer open is warned of at its place. -/
theorem closedFatalWarnings_eq :
    closedFatalWarnings doc = (s.defects.zipIdx.filter (·.1.isClosedFatal)).map
      fun d => closedFatalWarning d.2 := by
  rw [closedFatalWarnings, itemIssues, defectDocs, hw.present?_defects,
    List.mapIdx_eq_zipIdx_map, List.zipIdx_map, List.map_map]
  generalize s.defects.zipIdx = ds
  induction ds with
  | nil => rfl
  | cons d ds ih =>
    rw [List.map_cons, List.flatten_cons, ih, List.filter_cons, Defect.isClosedFatal,
      Defect.isOpen]
    dsimp only [Function.comp, Prod.map]
    rw [Defect.fatalStatus?_toJson]
    cases d.1.severity <;> cases d.1.status <;> rfl

end WrittenAs

/-- Apart from what a sanad says, only its grade can be wrong. -/
theorem exists_codes_toJson
    (h : ∀ n ∈ s.chain, 0 ≤ n.timestamp.date.year ∧ n.timestamp.date.year ≤ 9999) :
    ∃ codes, (∀ c ∈ codes, c ∈ IssueCode.ofContent) ∧ (validate s.toJson).codes =
      codes ++ if s.hasOpenFatal = true ∧ s.grade ≠ .d then [.gradeDefectMismatch] else [] := by
  obtain ⟨doc, hdoc, hw⟩ := s.exists_writtenAs
  have hconfidence : MayHold doc "extraction_confidence" fun x => ∃ v, Reads v x :=
    .of_lookup hw.confidence ((exists_reads_ofDecimal s.confidence).imp fun _ hv => hv.1)
  refine ⟨((unit doc "extraction_confidence" "" true).issues ++ chainIssues doc ++
    defectListIssues doc).map (·.code), List.forall_mem_map.mpr ?_, ?_⟩
  · simp only [List.mem_append]
    rintro i ((hi | hi) | hi)
    · exact unit_mem_ofContent hconfidence hi
    · exact hw.chainIssues_mem_ofContent h hi
    · exact hw.defectListIssues_mem_ofContent hi
  · rw [Report.codes, hdoc, validate, Report.ofIssues, hw.memberIssues_eq, List.map_append,
      hw.codes_gradeIssues]

/-- The checks find nothing wrong with the form of a sanad that was written. They find the issues of
its links, a mismatch of its grade exactly where an open fatal defect asks for another one, and
they warn of each fatal defect that is no longer open. -/
theorem validate_toJson (s : Sanad)
    (h : ∀ n ∈ s.chain, 0 ≤ n.timestamp.date.year ∧ n.timestamp.date.year ≤ 9999) :
    (∀ c ∈ IssueCode.ofForm, (validate s.toJson).hasError c = false) ∧
      (validate s.toJson).errors.filter (·.code.isLinkage) =
        (Linkage.ofLinks (ChainLink.ofNodes s.chain)).issues ∧
      ((validate s.toJson).hasError .gradeDefectMismatch = true ↔
        s.hasOpenFatal = true ∧ s.grade ≠ .d) ∧
      (validate s.toJson).warnings =
        (s.defects.zipIdx.filter (·.1.isClosedFatal)).map fun d => closedFatalWarning d.2 := by
  obtain ⟨doc, hdoc, hw⟩ := s.exists_writtenAs
  obtain ⟨codes, hcontent, hcodes⟩ := exists_codes_toJson h
  refine ⟨fun c hc => ?_, ?_, ?_, ?_⟩
  · rw [← Bool.not_eq_true, Report.hasError_iff, hcodes, List.mem_append]
    intro hmem
    refine IssueCode.not_mem_ofForm (hmem.imp (hcontent c) fun hgrade => ?_) hc
    split at hgrade
    · exact List.mem_singleton.mp hgrade
    · exact absurd hgrade List.not_mem_nil
  · rw [hdoc, filter_isLinkage_errors hw.present?_chain, TransmissionNode.nodeLinks_toJson]
  · have hgrade : .gradeDefectMismatch ∉ codes := fun hmem => absurd (hcontent _ hmem) (by decide)
    rw [Report.hasError_iff, hcodes, List.mem_append, or_iff_right hgrade]
    split <;> simp [*]
  · rw [hdoc]
    exact hw.closedFatalWarnings_eq

/-- A sanad of one node, at the end of a leap second. Of its two fatal defects the first one was
cured, and it has the best grade. -/
def overrated : Sanad :=
  let s := Grading.withDefects [⟨.circularity, .fatal, .discardClaim, .cured, "loop"⟩,
    .opened .brokenChain .fatal .reconstructChain "gap"]
  { s with
    corroborators := [s.id]
    chain := [⟨s.id, .extract, .agent, "extractor",
      ⟨⟨2016, 12, 31, by decide⟩, .last 23, .last 59, .last 60, .last 999999999⟩, some .one, none,
      some s.id⟩]
    independence := some ⟨true, false⟩ }

/-- Its grade is found to be wrong, and it is warned of the first defect. -/
theorem validate_overrated :
    (∀ n ∈ overrated.chain, 0 ≤ n.timestamp.date.year ∧ n.timestamp.date.year ≤ 9999) ∧
      (validate overrated.toJson).hasError .gradeDefectMismatch = true ∧
      (validate overrated.toJson).warnings = [closedFatalWarning 0] := by
  have h : ∀ n ∈ overrated.chain,
      0 ≤ n.timestamp.date.year ∧ n.timestamp.date.year ≤ 9999 := by decide
  obtain ⟨-, -, hgrade, hwarnings⟩ := validate_toJson overrated h
  exact ⟨h, hgrade.mpr (by decide), hwarnings⟩

end Sanad
end Isnad
