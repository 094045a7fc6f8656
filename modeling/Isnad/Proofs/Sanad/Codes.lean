import Isnad.Proofs.Chain.Report
import Isnad.Proofs.Document.Path
import Isnad.Sanad.Validity

/-!
# What the checks report, and where

Six codes concern how the nodes of a chain are linked. The analysis of links uses no others, and no
other check of a sanad document uses one of them. So the linkage issues of a document are those of
its links, in their order (`filter_isLinkage_errors`).

The check of a field reports at that field (`AllAt`), and the check of a node or of a defect at the
item or at a field of it (`AllIn`).
-/

namespace Isnad

/-- The codes of issues that concern the links between nodes. -/
def IssueCode.isLinkage : IssueCode → Bool
  | .sanadDuplicateNode | .sanadOrphanReference | .sanadNoRoot | .sanadMultipleRoots
  | .sanadCycleDetected | .sanadOrphanedNode => true
  | _ => false

/-- Their labels are those that begin with the name of the document. -/
theorem IssueCode.isLinkage_iff_label (c : IssueCode) :
    c.isLinkage = true ↔ "SANAD_".toList <+: (label c).toList := by
  cases c <;> decide +kernel

/-- No issue concerns links. -/
def Issue.NoneOfLinkage (issues : List Issue) : Prop := ∀ i ∈ issues, i.code.isLinkage = false

namespace Issue

@[simp] theorem noneOfLinkage_nil : NoneOfLinkage [] := fun _ h => absurd h List.not_mem_nil

theorem noneOfLinkage_iff_filter {issues : List Issue} :
    NoneOfLinkage issues ↔ issues.filter (·.code.isLinkage) = [] := by
  simp [NoneOfLinkage]

end Issue

open Issue

/-! ## The analysis of links -/

namespace Linkage

variable {links : List ChainLink}

/-- Every issue of the analysis concerns links. -/
theorem issues_isLinkage {i : Issue} (h : i ∈ (ofLinks links).issues) :
    i.code.isLinkage = true := by
  rw [issues_ofLinks] at h
  simp only [List.mem_append] at h
  rcases h with (((h | h) | h) | h) | h
  · rw [code_of_mem_duplicateIssues h]
    rfl
  · rw [code_of_mem_orphanReferences h]
    rfl
  · rcases (of_mem_rootIssues h).2 with hcode | hcode
    · rw [hcode]
      rfl
    · rw [hcode]
      rfl
  · rw [code_of_mem_cycleIssues h]
    rfl
  · rw [code_of_mem_orphanedIssues h]
    rfl

end Linkage

/-! ## Checks of fields -/

namespace Issue

variable {path : String}

/-- All issues have that path, and none concerns links. -/
def AllAt (path : String) (issues : List Issue) : Prop :=
  ∀ i ∈ issues, i.path = path ∧ i.code.isLinkage = false

theorem allAt_nil : AllAt path [] := fun _ h => absurd h List.not_mem_nil

theorem allAt_singleton {code : IssueCode} {message : String} (h : code.isLinkage = false) :
    AllAt path [⟨code, message, path⟩] := List.forall_mem_singleton.mpr ⟨rfl, h⟩

theorem allAt_append {a b : List Issue} : AllAt path (a ++ b) ↔ AllAt path a ∧ AllAt path b :=
  List.forall_mem_append

theorem AllAt.noneOfLinkage {issues : List Issue} (h : AllAt path issues) :
    NoneOfLinkage issues := fun i hi => (h i hi).2

end Issue

namespace Document

variable {doc : Members} {name pre path : String} {α : Type}

theorem allAt_field {isRequired : Bool} {check : String → Json → Checked α}
    (h : ∀ path x, AllAt path (check path x).issues) :
    AllAt (fieldPath pre name) (field doc name pre isRequired check).issues := by
  unfold field
  split
  · exact h _ _
  · cases isRequired with
    | true => exact allAt_singleton rfl
    | false => exact allAt_nil

theorem allAt_uuidIssues (s : String) : AllAt path (uuidIssues s path) := by
  unfold uuidIssues
  split
  · exact allAt_nil
  · exact allAt_singleton rfl

theorem allAt_checkUuid (path : String) (x : Json) : AllAt path (checkUuid path x).issues := by
  unfold checkUuid
  split
  · exact allAt_uuidIssues _
  · exact allAt_singleton rfl

theorem allAt_text : AllAt (fieldPath pre name) (text doc name pre).issues := by
  refine allAt_field fun path x => ?_
  unfold checkText
  split
  · split
    · exact allAt_singleton rfl
    · exact allAt_nil
  · exact allAt_singleton rfl

theorem allAt_checkLabel [Labelled α] (path : String) (x : Json) :
    AllAt path (checkLabel name path x : Checked α).issues := by
  unfold checkLabel
  split
  · exact allAt_nil
  · exact allAt_singleton rfl

theorem allAt_labelled [Labelled α] {isRequired : Bool} :
    AllAt (fieldPath pre name) (labelled doc name pre isRequired : Checked α).issues :=
  allAt_field allAt_checkLabel

theorem allAt_checkUnit (path : String) (x : Json) : AllAt path (checkUnit name path x).issues := by
  unfold checkUnit
  split
  · split
    · exact allAt_nil
    · exact allAt_singleton rfl
  · exact allAt_singleton rfl

theorem allAt_unit {isRequired : Bool} :
    AllAt (fieldPath pre name) (unit doc name pre isRequired).issues := allAt_field allAt_checkUnit

end Document

namespace Sanad

open Document

variable {doc : Members} {pre item : String}

theorem allAt_primaryIssues : AllAt "primary_evidence_id" (primaryIssues doc) := by
  unfold primaryIssues
  split
  · exact allAt_singleton rfl
  · exact allAt_checkUuid _ _

theorem allAt_independenceIssues : AllAt "independence_check" (independenceIssues doc) := by
  unfold independenceIssues
  split
  · exact allAt_nil
  · split
    · exact allAt_nil
    · exact allAt_singleton rfl

theorem allAt_gradeIssues {grade : Option Grade} : AllAt "sanad_grade" (gradeIssues doc grade) := by
  unfold gradeIssues
  split
  · split
    · exact allAt_singleton rfl
    · exact allAt_nil
  · exact allAt_nil

theorem allAt_nodeIdIssues : AllAt (fieldPath pre "node_id") (nodeIdIssues pre doc) := by
  refine allAt_append.mpr ⟨allAt_text, ?_⟩
  split
  · exact allAt_uuidIssues _
  · exact allAt_nil

theorem allAt_timestampIssues : AllAt (fieldPath pre "timestamp") (timestampIssues pre doc) := by
  refine allAt_append.mpr ⟨allAt_text, ?_⟩
  split
  · split
    · exact allAt_nil
    · exact allAt_singleton rfl
  · exact allAt_nil

theorem allAt_descriptionIssues :
    AllAt (fieldPath pre "description") (descriptionIssues pre doc) := by
  unfold descriptionIssues
  dsimp only
  split
  · split
    · exact allAt_singleton rfl
    · exact allAt_nil
  · exact allAt_singleton rfl

/-! ## Checks of items -/

/-- All issues stand at the item or at a field of it, and none concerns links. -/
def AllIn (item : String) (issues : List Issue) : Prop :=
  ∀ i ∈ issues, InItem item i.path ∧ i.code.isLinkage = false

theorem allIn_append {a b : List Issue} : AllIn item (a ++ b) ↔ AllIn item a ∧ AllIn item b :=
  List.forall_mem_append

theorem allIn_whole {issues : List Issue} (h : AllAt item issues) : AllIn item issues :=
  fun i hi => ⟨(h i hi).1.symm ▸ .whole, (h i hi).2⟩

theorem allIn_field {name : String} {issues : List Issue} (hname : IsName name)
    (h : AllAt (fieldPath item name) issues) : AllIn item issues :=
  fun i hi => ⟨(h i hi).1.symm ▸ .field hname, (h i hi).2⟩

theorem AllIn.noneOfLinkage {issues : List Issue} (h : AllIn item issues) :
    NoneOfLinkage issues := fun i hi => (h i hi).2

theorem allIn_nodeIssues (k : Nat) (x : Json) : AllIn (nodePath k) (nodeIssues k x) := by
  unfold nodeIssues
  split
  · simp only [nodeMemberIssues, allIn_append]
    exact ⟨⟨⟨⟨⟨⟨⟨allIn_field (by decide) allAt_nodeIdIssues,
      allIn_field (by decide) allAt_labelled⟩, allIn_field (by decide) allAt_labelled⟩,
      allIn_field (by decide) allAt_text⟩, allIn_field (by decide) allAt_timestampIssues⟩,
      allIn_field (by decide) allAt_unit⟩, allIn_field (by decide) (allAt_field allAt_checkUuid)⟩,
      allIn_field (by decide) (allAt_field allAt_checkUuid)⟩
  · exact allIn_whole (allAt_singleton rfl)

theorem allIn_defectIssues (k : Nat) (x : Json) : AllIn (defectPath k) (defectIssues k x) := by
  unfold defectIssues
  split
  · simp only [allIn_append]
    exact ⟨⟨⟨⟨allIn_field (by decide) allAt_labelled, allIn_field (by decide) allAt_labelled⟩,
      allIn_field (by decide) allAt_labelled⟩, allIn_field (by decide) allAt_labelled⟩,
      allIn_field (by decide) allAt_descriptionIssues⟩
  · exact allIn_whole (allAt_singleton rfl)

theorem mem_itemIssues {check : Nat → Json → List Issue} {items : List Json} {i : Issue} :
    i ∈ itemIssues check items ↔ ∃ k x, items[k]? = some x ∧ i ∈ check k x := by
  simp only [itemIssues, List.mem_flatten, List.mem_mapIdx]
  constructor
  · rintro ⟨-, ⟨k, hk, rfl⟩, hi⟩
    exact ⟨k, _, List.getElem?_eq_getElem hk, hi⟩
  · rintro ⟨k, x, hx, hi⟩
    obtain ⟨hk, rfl⟩ := List.getElem?_eq_some_iff.mp hx
    exact ⟨_, ⟨k, hk, rfl⟩, hi⟩

theorem forall_mem_itemIssues {check : Nat → Json → List Issue} {items : List Json}
    {P : Issue → Prop} (h : ∀ k, ∀ x ∈ items, ∀ i ∈ check k x, P i) :
    ∀ i ∈ itemIssues check items, P i := by
  intro i hi
  obtain ⟨k, x, hx, hi⟩ := mem_itemIssues.mp hi
  exact h k x (List.mem_of_getElem? hx) i hi

theorem noneOfLinkage_itemIssues {check : Nat → Json → List Issue} {path : Nat → String}
    (h : ∀ k x, AllIn (path k) (check k x)) (items : List Json) :
    NoneOfLinkage (itemIssues check items) :=
  forall_mem_itemIssues fun k x _ => (h k x).noneOfLinkage

theorem noneOfLinkage_corroboratorIssues : NoneOfLinkage (corroboratorIssues doc) := by
  unfold corroboratorIssues
  split
  · exact noneOfLinkage_nil
  · exact noneOfLinkage_itemIssues (fun _ x => allIn_whole (allAt_checkUuid _ x)) _
  · exact (allAt_singleton rfl).noneOfLinkage

theorem noneOfLinkage_defectListIssues : NoneOfLinkage (defectListIssues doc) := by
  unfold defectListIssues
  split
  · exact noneOfLinkage_nil
  · exact noneOfLinkage_itemIssues allIn_defectIssues _
  · exact (allAt_singleton rfl).noneOfLinkage

/-! ## The document -/

theorem filter_isLinkage_chainIssues {nodes : List Json}
    (h : present? doc "transmission_chain" = some (.arr nodes)) :
    (chainIssues doc).filter (·.code.isLinkage) = (Linkage.ofLinks (nodeLinks nodes)).issues := by
  rw [chainIssues, h]
  cases nodes with
  | nil => exact (List.isEmpty_iff.mp Linkage.isSound_nil).symm
  | cons node rest =>
    have hnodes := noneOfLinkage_itemIssues allIn_nodeIssues (node :: rest)
    rw [List.filter_append, noneOfLinkage_iff_filter.mp hnodes, List.nil_append]
    exact List.filter_eq_self.mpr fun _ hi => Linkage.issues_isLinkage hi

/-- The linkage issues of a document that has a list of nodes are those of the links of its
nodes. -/
theorem filter_isLinkage_errors {nodes : List Json}
    (h : present? doc "transmission_chain" = some (.arr nodes)) :
    (validate (.obj doc)).errors.filter (·.code.isLinkage) =
      (Linkage.ofLinks (nodeLinks nodes)).issues := by
  have huuid : ∀ name, NoneOfLinkage (uuid doc name "").issues :=
    fun _ => (allAt_field allAt_checkUuid).noneOfLinkage
  rw [← filter_isLinkage_chainIssues h, validate, Report.ofIssues]
  simp only [memberIssues, List.filter_append, noneOfLinkage_iff_filter.mp (huuid _),
    noneOfLinkage_iff_filter.mp allAt_primaryIssues.noneOfLinkage,
    noneOfLinkage_iff_filter.mp noneOfLinkage_corroboratorIssues,
    noneOfLinkage_iff_filter.mp allAt_independenceIssues.noneOfLinkage,
    noneOfLinkage_iff_filter.mp allAt_unit.noneOfLinkage,
    noneOfLinkage_iff_filter.mp allAt_labelled.noneOfLinkage,
    noneOfLinkage_iff_filter.mp noneOfLinkage_defectListIssues,
    noneOfLinkage_iff_filter.mp allAt_gradeIssues.noneOfLinkage, List.nil_append, List.append_nil]

theorem noneOfLinkage_errors_iff {nodes : List Json}
    (h : present? doc "transmission_chain" = some (.arr nodes)) :
    NoneOfLinkage (validate (.obj doc)).errors ↔
      (Linkage.ofLinks (nodeLinks nodes)).isSound = true := by
  rw [noneOfLinkage_iff_filter, filter_isLinkage_errors h, Linkage.isSound, List.isEmpty_iff]

end Sanad
end Isnad
