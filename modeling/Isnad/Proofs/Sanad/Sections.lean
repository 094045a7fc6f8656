import Isnad.Proofs.Document.Field
import Isnad.Proofs.Sanad.Places

/-!
# The sections of a check

The check of a sanad document consists of one section for each field, and of a last look at its
grade and its defects together (`memberIssues_eq_sections`). A section reads its own field only, and
reports at that field or in the items of it if it is a list (`Section`). So what is wrong in one
field neither hides nor creates an issue in another.
-/

namespace Isnad

/-- Everything that a report tells. -/
def Report.issues (r : Report) : List Issue := r.errors ++ r.warnings

namespace Sanad

open Document Issue

variable {doc doc' : Members}

/-- A part of a check that reads one field of a document, and reports only there. -/
structure Section where
  field : String
  issues : Members → List Issue
  isName : IsName field
  reads : ∀ {doc doc'}, present? doc' field = present? doc field → issues doc' = issues doc
  inList : ∀ doc, ∀ i ∈ issues doc, InList doc field i.path

namespace Section

theorem root_path (s : Section) {i : Issue} (h : i ∈ s.issues doc) : root i.path = s.field :=
  s.isName.root_eq (s.inList doc i h).isAt

/-- The section of a field that must be present. -/
def required {α : Type} (name : String) (check : String → Json → Checked α) (isName : IsName name)
    (h : ∀ path x, AllAt path (check path x).issues) : Section where
  field := name
  issues doc := (Document.field doc name "" true check).issues
  isName := isName
  reads hread := by rw [Document.field, hread, ← Document.field]
  inList _ i hi := .whole (allAt_field h i hi).1

def primary : Section where
  field := "primary_evidence_id"
  issues := primaryIssues
  isName := by decide
  reads hread := by rw [primaryIssues, hread, ← primaryIssues]
  inList _ i hi := .whole (allAt_primaryIssues i hi).1

def corroborators : Section where
  field := "corroborating_evidence_ids"
  issues := corroboratorIssues
  isName := by decide
  reads hread := by rw [corroboratorIssues, hread, ← corroboratorIssues]
  inList doc i hi := by
    unfold corroboratorIssues at hi
    split at hi
    · exact absurd hi List.not_mem_nil
    · rename_i ids hids
      refine inList_of_mem_itemIssues (fun k x => allIn_whole (allAt_checkUuid _ x)) ?_
      rwa [itemsOf, hids]
    · exact .whole (congrArg Issue.path (List.mem_singleton.mp hi))

def independence : Section where
  field := "independence_check"
  issues := independenceIssues
  isName := by decide
  reads hread := by rw [independenceIssues, hread, ← independenceIssues]
  inList _ i hi := .whole (allAt_independenceIssues i hi).1

end Section

/-! ## The chain -/

theorem position_of_mem_nodeLinks {nodes : List Json} {l : ChainLink} (h : l ∈ nodeLinks nodes) :
    l.position < nodes.length := by
  obtain ⟨-, hmem, rfl⟩ := List.mem_filterMap.mp h
  obtain ⟨k, hk, hlink⟩ := List.mem_mapIdx.mp hmem
  suffices hposition : l.position = k from hposition ▸ hk
  unfold nodeLink? at hlink
  split at hlink
  · obtain ⟨id, -, rfl⟩ := Option.map_eq_some_iff.mp hlink
    rfl
  · cases hlink

def Section.chain : Section where
  field := "transmission_chain"
  issues := chainIssues
  isName := by decide
  reads hread := by rw [chainIssues, hread, ← chainIssues]
  inList doc i hi := by
    unfold chainIssues at hi
    split at hi
    · exact .whole (congrArg Issue.path (List.mem_singleton.mp hi))
    · exact .whole (congrArg Issue.path (List.mem_singleton.mp hi))
    · rename_i nodes _ hnodes
      have hitems : itemsOf doc "transmission_chain" = nodes := by rw [itemsOf, hnodes]
      rcases List.mem_append.mp hi with hi | hi
      · exact inList_of_mem_itemIssues allIn_nodeIssues (hitems.symm ▸ hi)
      · rcases Linkage.isInChain_of_mem_issues hi with hpath | ⟨l, hl, hpath⟩
        · exact .whole hpath
        · rw [l.path_eq_itemPath] at hpath
          exact .inItem _ (hitems.symm ▸ position_of_mem_nodeLinks hl) hpath
    · exact .whole (congrArg Issue.path (List.mem_singleton.mp hi))

def Section.defects : Section where
  field := "defects"
  issues := defectListIssues
  isName := by decide
  reads hread := by rw [defectListIssues, hread, ← defectListIssues]
  inList doc i hi := by
    unfold defectListIssues at hi
    split at hi
    · exact absurd hi List.not_mem_nil
    · rename_i items hitems
      refine inList_of_mem_itemIssues allIn_defectIssues ?_
      rwa [itemsOf, hitems]
    · exact .whole (congrArg Issue.path (List.mem_singleton.mp hi))

/-! ## The document -/

/-- The sections in the order in which they report. -/
def sections : List Section :=
  [.required "sanad_id" checkUuid (by decide) allAt_checkUuid,
    .required "claim_id" checkUuid (by decide) allAt_checkUuid,
    .primary, .corroborators, .independence,
    .required "extraction_confidence" (checkUnit "extraction_confidence") (by decide)
      allAt_checkUnit,
    .required "corroboration_status"
      (checkLabel "corroboration_status" : String → Json → Checked CorroborationStatus) (by decide)
      allAt_checkLabel,
    .required "sanad_grade" (checkLabel "sanad_grade" : String → Json → Checked Grade) (by decide)
      allAt_checkLabel,
    .chain, .defects]

/-- The issues of a document are those of its sections, and of its grade beside its defects. -/
theorem memberIssues_eq_sections (doc : Members) :
    memberIssues doc = sections.flatMap (·.issues doc) ++
      gradeIssues doc (labelled doc "sanad_grade" "" true).value := by
  simp only [memberIssues, sections, List.flatMap_cons, List.flatMap_nil, List.append_nil,
    List.append_assoc]
  rfl

theorem chain_mem_sections : Section.chain ∈ sections := by simp [sections]

theorem defects_mem_sections : Section.defects ∈ sections := by simp [sections]

/-- No two sections are of one field. -/
theorem exists_split {s : Section} (hs : s ∈ sections) :
    ∃ before after, sections = before ++ s :: after ∧ ∀ t ∈ before ++ after, t.field ≠ s.field := by
  obtain ⟨before, after, hsplit⟩ := List.append_of_mem hs
  have hnodup : (sections.map Section.field).Nodup := by decide +kernel
  rw [hsplit, List.map_append, List.map_cons, List.nodup_middle, ← List.map_append,
    List.nodup_cons] at hnodup
  exact ⟨before, after, hsplit, fun t ht heq => hnodup.1 (List.mem_map.mpr ⟨t, ht, heq⟩)⟩

variable {grade : Option Grade}

theorem code_of_mem_gradeIssues {i : Issue} (h : i ∈ gradeIssues doc grade) :
    i.code = .gradeDefectMismatch := by
  unfold gradeIssues at h
  split at h
  · split at h
    · rw [List.mem_singleton.mp h]
    · cases h
  · cases h

/-- Issues at one field, other than the grade, are found by the section of that field. -/
theorem filter_memberIssues {s : Section} {p : Issue → Bool} (hs : s ∈ sections)
    (hgrade : s.field ≠ "sanad_grade") (hp : ∀ i, p i = true → root i.path = s.field) :
    (memberIssues doc).filter p = (s.issues doc).filter p := by
  obtain ⟨before, after, hsplit, hfields⟩ := exists_split hs
  have hothers : ∀ t ∈ before ++ after, (t.issues doc).filter p = [] := fun t ht =>
    List.filter_eq_nil_iff.mpr fun i hi hpi =>
      hfields t ht ((t.root_path hi).symm.trans (hp i hpi))
  have hlast : (gradeIssues doc (labelled doc "sanad_grade" "" true).value).filter p = [] := by
    refine List.filter_eq_nil_iff.mpr fun i hi hpi => hgrade ?_
    rw [← hp i hpi, (allAt_gradeIssues i hi).1]
    decide +kernel
  have hbefore : (before.flatMap (·.issues doc)).filter p = [] := by
    rw [List.filter_flatMap]
    exact List.flatMap_eq_nil_iff.mpr fun t ht => hothers t (List.mem_append_left _ ht)
  have hafter : (after.flatMap (·.issues doc)).filter p = [] := by
    rw [List.filter_flatMap]
    exact List.flatMap_eq_nil_iff.mpr fun t ht => hothers t (List.mem_append_right _ ht)
  rw [memberIssues_eq_sections, hsplit, List.filter_append, hlast, List.append_nil,
    List.flatMap_append, List.flatMap_cons, List.filter_append, List.filter_append, hbefore, hafter,
    List.nil_append, List.append_nil]

/-- Documents that agree in all fields but `f` have the same issues elsewhere, but for the one that
compares the grade with the defects. -/
theorem filter_memberIssues_congr {f : String} {p : Issue → Bool}
    (h : ∀ name, name ≠ f → doc'.lookup name = doc.lookup name)
    (hp : ∀ i, p i = true → root i.path ≠ f ∧ i.code ≠ .gradeDefectMismatch) :
    (memberIssues doc').filter p = (memberIssues doc).filter p := by
  have hlast (doc : Members) (grade : Option Grade) : (gradeIssues doc grade).filter p = [] :=
    List.filter_eq_nil_iff.mpr fun i hi hpi => (hp i hpi).2 (code_of_mem_gradeIssues hi)
  have hsection (s : Section) : (s.issues doc').filter p = (s.issues doc).filter p := by
    by_cases hf : s.field = f
    · have hnone (doc : Members) : (s.issues doc).filter p = [] :=
        List.filter_eq_nil_iff.mpr fun i hi hpi => (hp i hpi).1 ((s.root_path hi).trans hf)
      rw [hnone, hnone]
    · rw [s.reads (present?_congr (h _ hf))]
  rw [memberIssues_eq_sections, memberIssues_eq_sections, List.filter_append, List.filter_append,
    hlast, hlast, List.append_nil, List.append_nil, List.filter_flatMap, List.filter_flatMap]
  exact congrArg (sections.flatMap ·) (funext hsection)

theorem defectDocs_congr (h : present? doc' "defects" = present? doc "defects") :
    defectDocs doc' = defectDocs doc := by
  rw [defectDocs, h, ← defectDocs]

theorem gradeIssues_congr (h : present? doc' "defects" = present? doc "defects") :
    gradeIssues doc' grade = gradeIssues doc grade := by
  unfold gradeIssues
  rw [defectDocs_congr h]

/-- Documents that agree in all fields but the chain have the same issues around those of it. -/
theorem exists_memberIssues_around
    (h : ∀ name, name ≠ "transmission_chain" → doc'.lookup name = doc.lookup name) :
    ∃ before after, memberIssues doc = before ++ (chainIssues doc ++ after) ∧
      memberIssues doc' = before ++ (chainIssues doc' ++ after) := by
  have hread (name : String) (hname : name ≠ "transmission_chain") :
      present? doc' name = present? doc name := present?_congr (h _ hname)
  obtain ⟨before, after, hsplit, hfields⟩ := exists_split chain_mem_sections
  have hothers : ∀ t ∈ before ++ after, t.issues doc' = t.issues doc := fun t ht =>
    t.reads (hread _ (hfields t ht))
  have hgrade : gradeIssues doc' (labelled doc' "sanad_grade" "" true).value =
      gradeIssues doc (labelled doc "sanad_grade" "" true).value := by
    rw [gradeIssues_congr (hread _ (by decide)), labelled, field, hread _ (by decide), ← field,
      ← labelled]
  refine ⟨before.flatMap (·.issues doc), after.flatMap (·.issues doc) ++
    gradeIssues doc (labelled doc "sanad_grade" "" true).value, ?_, ?_⟩
  · rw [memberIssues_eq_sections, hsplit, List.flatMap_append, List.flatMap_cons,
      List.append_assoc, List.append_assoc]
    rfl
  · rw [memberIssues_eq_sections, hsplit, hgrade, List.flatMap_append, List.flatMap_cons,
      List.flatMap_congr fun t ht => hothers t (List.mem_append_left _ ht),
      List.flatMap_congr fun t ht => hothers t (List.mem_append_right _ ht),
      List.append_assoc, List.append_assoc]
    rfl

/-! ## Items -/

variable {k : Nat}

theorem filter_eq_nil_of_allAt {list : String} {p : Issue → Bool} {issues : List Issue}
    (h : AllAt list issues) (hp : ∀ i, p i = true → isAt (itemPath list k) i.path = true) :
    issues.filter p = [] := by
  refine List.filter_eq_nil_iff.mpr fun i hi hpi => ?_
  have hat := hp i hpi
  rw [(h i hi).1, not_isAt_list] at hat
  cases hat

/-- The checks of the node at an index report there, and of the others only the linkage does. -/
theorem filter_memberIssues_node :
    ((memberIssues doc).filter fun i => isAt (nodePath k) i.path && !i.code.isLinkage) =
      (itemsOf doc "transmission_chain")[k]?.elim [] (nodeIssues k) := by
  have hp (i : Issue) (hi : (isAt (nodePath k) i.path && !i.code.isLinkage) = true) :
      isAt (nodePath k) i.path = true := (Bool.and_eq_true_iff.mp hi).1
  rw [filter_memberIssues chain_mem_sections (by decide)
    fun i hi => root_of_isAt_item (by decide) (hp i hi)]
  change (chainIssues doc).filter _ = _
  rw [chainIssues, itemsOf]
  cases present? doc "transmission_chain" with
  | none => exact filter_eq_nil_of_allAt (allAt_singleton rfl) hp
  | some x =>
    cases x with
    | arr nodes =>
      cases nodes with
      | nil => exact filter_eq_nil_of_allAt (allAt_singleton rfl) hp
      | cons node rest =>
        have hlinks : (Linkage.ofLinks (nodeLinks (node :: rest))).issues.filter
            (fun i => isAt (nodePath k) i.path && !i.code.isLinkage) = [] := by
          refine List.filter_eq_nil_iff.mpr fun i hi hpi => ?_
          rw [Linkage.issues_isLinkage hi, Bool.not_true, Bool.and_false] at hpi
          cases hpi
        rw [List.filter_append, hlinks, List.append_nil]
        refine filter_itemIssues (fun j x i hi => ?_) (node :: rest)
        rw [(allIn_nodeIssues j x i hi).2, Bool.not_false, Bool.and_true]
        exact (allIn_nodeIssues j x i hi).1.isAt_iff
    | _ => exact filter_eq_nil_of_allAt (allAt_singleton rfl) hp

theorem filter_memberIssues_defect :
    ((memberIssues doc).filter fun i => isAt (defectPath k) i.path) =
      (defectDocs doc)[k]?.elim [] (defectIssues k) := by
  have hp (i : Issue) (hi : isAt (defectPath k) i.path = true) : root i.path = "defects" :=
    root_of_isAt_item (by decide) hi
  rw [filter_memberIssues defects_mem_sections (by decide) hp]
  change (defectListIssues doc).filter _ = _
  rw [defectListIssues, defectDocs]
  cases present? doc "defects" with
  | none => rfl
  | some x =>
    cases x with
    | arr defects =>
      exact filter_itemIssues (fun j x i hi => (allIn_defectIssues j x i hi).1.isAt_iff) defects
    | _ => exact filter_eq_nil_of_allAt (allAt_singleton rfl) fun _ hi => hi

theorem filter_closedFatalWarnings_defect :
    ((closedFatalWarnings doc).filter fun i => isAt (defectPath k) i.path) =
      (defectDocs doc)[k]?.elim [] (closedFatalIssues k) :=
  filter_itemIssues (fun j x i hi => (allIn_closedFatalIssues j x i hi).1.isAt_iff) _

theorem inList_of_mem_closedFatalWarnings {i : Issue} (h : i ∈ closedFatalWarnings doc) :
    InList doc "defects" i.path := inList_of_mem_itemIssues allIn_closedFatalIssues h

/-! ## The report -/

theorem exists_inList_of_mem_memberIssues {i : Issue} (h : i ∈ memberIssues doc) :
    ∃ list, IsName list ∧ InList doc list i.path := by
  rw [memberIssues_eq_sections] at h
  rcases List.mem_append.mp h with h | h
  · obtain ⟨s, -, hi⟩ := List.mem_flatMap.mp h
    exact ⟨s.field, s.isName, s.inList doc i hi⟩
  · exact ⟨"sanad_grade", by decide, .whole (allAt_gradeIssues i h).1⟩

/-- Indices in the paths of a report are positions in the lists of the document. -/
theorem namesItems_of_mem_validate {x : Json} {i : Issue} (h : i ∈ (validate x).issues) :
    NamesItems (membersOf x) i.path := by
  cases x with
  | obj doc =>
    rcases List.mem_append.mp h with h | h
    · obtain ⟨list, hlist, hpath⟩ := exists_inList_of_mem_memberIssues h
      exact hpath.namesItems hlist
    · exact (inList_of_mem_closedFatalWarnings h).namesItems (by decide)
  | _ =>
    have hdocument : InList [] "$" i.path := .whole (by rw [List.mem_singleton.mp h])
    exact hdocument.namesItems (by decide)

/-- What is wrong in one part of a document neither hides nor creates an issue in another. Issues
outside a field do not depend on it, but for the comparison of the grade with the defects. Issues at
a node, but for those of the linkage, are those of its own checks, and so are issues at a defect.
Every index in the path of an issue is a position in the list that the path names. -/
theorem issues_apart :
    (∀ (f : String) (doc doc' : Members),
      (∀ name, name ≠ f → doc'.lookup name = doc.lookup name) →
      (validate (.obj doc')).errors.filter
          (fun e => root e.path ≠ f ∧ e.code ≠ .gradeDefectMismatch) =
        (validate (.obj doc)).errors.filter
          fun e => root e.path ≠ f ∧ e.code ≠ .gradeDefectMismatch) ∧
    (∀ (doc : Members) (k : Nat),
      ((validate (.obj doc)).issues.filter
          fun e => isAt (nodePath k) e.path && !e.code.isLinkage) =
        (itemsOf doc "transmission_chain")[k]?.elim [] (nodeIssues k)) ∧
    (∀ (doc : Members) (k : Nat),
      ((validate (.obj doc)).issues.filter fun e => isAt (defectPath k) e.path) =
        (itemsOf doc "defects")[k]?.elim [] fun d => defectIssues k d ++ closedFatalIssues k d) ∧
    ∀ (x : Json), ∀ e ∈ (validate x).issues, NamesItems (membersOf x) e.path := by
  refine ⟨fun f doc doc' h => ?_, fun doc k => ?_, fun doc k => ?_, fun x e he => ?_⟩
  · exact filter_memberIssues_congr h fun e he => of_decide_eq_true he
  · have hwarnings : (closedFatalWarnings doc).filter
        (fun e => isAt (nodePath k) e.path && !e.code.isLinkage) = [] := by
      refine List.filter_eq_nil_iff.mpr fun e he hpe => ?_
      have hdefects := IsName.root_eq (by decide) (inList_of_mem_closedFatalWarnings he).isAt
      rw [root_of_isAt_item (by decide) (Bool.and_eq_true_iff.mp hpe).1] at hdefects
      exact absurd hdefects (by decide)
    rw [Report.issues, List.filter_append]
    exact (congrArg₂ _ filter_memberIssues_node hwarnings).trans (List.append_nil _)
  · rw [Report.issues, List.filter_append]
    refine (congrArg₂ _ filter_memberIssues_defect filter_closedFatalWarnings_defect).trans ?_
    change (defectDocs doc)[k]?.elim _ _ ++ _ = (defectDocs doc)[k]?.elim _ _
    cases (defectDocs doc)[k]? <;> rfl
  · exact namesItems_of_mem_validate he

/-- A claim that is not named leaves the issue of the name of the sanad where it was. -/
theorem issues_apart_claim :
    let doc : Members := [("claim_id", .str "claim"), ("sanad_id", .str "sanad")]
    let doc' : Members := [("sanad_id", .str "sanad")]
    (∀ name, name ≠ "claim_id" → doc'.lookup name = doc.lookup name) ∧
      (validate (.obj doc)).errors ≠ (validate (.obj doc')).errors ∧
      (validate (.obj doc')).errors.filter
          (fun e => root e.path ≠ "claim_id" ∧ e.code ≠ .gradeDefectMismatch) =
        (validate (.obj doc)).errors.filter
          fun e => root e.path ≠ "claim_id" ∧ e.code ≠ .gradeDefectMismatch := by
  have hagree (name : String) (h : name ≠ "claim_id") :
      [("sanad_id", Json.str "sanad")].lookup name =
        [("claim_id", Json.str "claim"), ("sanad_id", Json.str "sanad")].lookup name := by
    simp only [List.lookup_cons, beq_false_of_ne h]
  exact ⟨hagree, by decide +kernel, issues_apart.1 "claim_id" _ _ hagree⟩

end Sanad
end Isnad
