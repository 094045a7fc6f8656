import Isnad.Proofs.Chain.Firsts
import Isnad.Proofs.Document.Path
import Isnad.Proofs.Sanad.Codes

/-!
# The places of issues

The analysis of links reports at one of the links, or at the chain as a whole
(`Linkage.isInChain_of_mem_issues`). The checks of the items of a list report each at its own item,
so what is reported there is what the check of that item finds (`filter_itemIssues`).
-/

namespace Isnad

open Document

/-! ## Where the analysis of links reports -/

namespace ChainLink

theorem path_eq_itemPath (l : ChainLink) :
    l.path = itemPath "transmission_chain" l.position := by
  unfold path itemPath
  rfl

/-- Every link is the first of its name or repeats it. -/
theorem splitFirsts_perm (seen : List String) (links : List ChainLink) :
    ((splitFirsts seen links).1 ++ (splitFirsts seen links).2).Perm links := by
  induction links generalizing seen with
  | nil => exact .refl _
  | cons l ls ih =>
    rw [splitFirsts]
    split
    · exact List.perm_middle.trans ((ih seen).cons l)
    · exact (ih (l.id :: seen)).cons l

theorem mem_of_mem_repeats {links : List ChainLink} {l : ChainLink} (h : l ∈ repeats links) :
    l ∈ links := (splitFirsts_perm [] links).subset (List.mem_append_right _ h)

theorem path_duplicateIssue (l : ChainLink) :
    (duplicateIssue l).path = fieldPath l.path "node_id" := by
  rw [path_eq_itemPath, fieldPath_itemPath, ← path_eq_itemPath, String.append_assoc]
  rfl

end ChainLink

namespace Linkage

open ChainLink

variable {links : List ChainLink} {i : Issue}

/-- The issue stands at a link, or at the chain as a whole. -/
def IsInChain (links : List ChainLink) (i : Issue) : Prop :=
  i.path = "transmission_chain" ∨ ∃ l ∈ links, InItem l.path i.path

/-- Every issue of links stands at one of them, or at the chain as a whole. -/
theorem isInChain_of_mem_issues (h : i ∈ (ofLinks links).issues) : IsInChain links i := by
  have hfirst {c : IssueCode} (h : ∃ l ∈ firsts links, i.path = l.path ∧ i.code = c) :
      IsInChain links i := by
    obtain ⟨l, hl, hpath, -⟩ := h
    exact .inr ⟨l, (mem_firsts_iff.mp hl).mem, hpath ▸ .whole⟩
  rw [issues_ofLinks] at h
  simp only [List.mem_append] at h
  rcases h with (((h | h) | h) | h) | h
  · obtain ⟨l, hl, rfl⟩ := List.mem_map.mp h
    exact .inr ⟨l, mem_of_mem_repeats hl, path_duplicateIssue l ▸ .field (by decide)⟩
  · exact hfirst (exists_of_mem_orphanReferences h)
  · exact .inl (of_mem_rootIssues h).1
  · exact hfirst (exists_of_mem_cycleIssues h)
  · exact hfirst (exists_of_mem_orphanedIssues h)

end Linkage

namespace Sanad

open Issue

variable {doc : Members}

/-! ## Where the items of a list report -/

/-- The warnings of one defect. -/
def closedFatalIssues (k : Nat) (x : Json) : List Issue :=
  match fatalStatus? x with
  | some .opened | none => []
  | some _ => [⟨.fatalDefectNotOpen, "fatal defect is no longer open; grade is not forced to D",
      defectPath k⟩]

theorem allIn_closedFatalIssues (k : Nat) (x : Json) :
    AllIn (defectPath k) (closedFatalIssues k x) := by
  unfold closedFatalIssues
  split
  · exact allIn_whole allAt_nil
  · exact allIn_whole allAt_nil
  · exact allIn_whole (allAt_singleton rfl)

theorem itemIssues_cons (check : Nat → Json → List Issue) (x : Json) (items : List Json) :
    itemIssues check (x :: items) = check 0 x ++ itemIssues (fun k => check (k + 1)) items := by
  rw [itemIssues, List.mapIdx_cons, List.flatten_cons]
  rfl

theorem inList_of_mem_itemIssues {check : Nat → Json → List Issue} {list : String} {i : Issue}
    (h : ∀ k x, AllIn (itemPath list k) (check k x))
    (hi : i ∈ itemIssues check (itemsOf doc list)) : InList doc list i.path := by
  obtain ⟨k, x, hx, hi⟩ := mem_itemIssues.mp hi
  exact .inItem k (List.getElem?_eq_some_iff.mp hx).1 (h k x i hi).1

theorem filter_itemIssues {check : Nat → Json → List Issue} {p : Issue → Bool} {k : Nat}
    (h : ∀ j x, ∀ i ∈ check j x, (p i = true ↔ j = k)) (items : List Json) :
    (itemIssues check items).filter p = items[k]?.elim [] (check k) := by
  induction items generalizing check k with
  | nil => rfl
  | cons x items ih =>
    rw [itemIssues_cons, List.filter_append]
    cases k with
    | zero =>
      have hfirst : (check 0 x).filter p = check 0 x :=
        List.filter_eq_self.mpr fun i hi => (h 0 x i hi).mpr rfl
      have hlater : (itemIssues (fun k => check (k + 1)) items).filter p = [] := by
        refine List.filter_eq_nil_iff.mpr fun i hi hp => ?_
        obtain ⟨j, y, -, hi⟩ := mem_itemIssues.mp hi
        exact Nat.succ_ne_zero j ((h (j + 1) y i hi).mp hp)
      rw [hfirst, hlater]
      exact List.append_nil _
    | succ k =>
      have hfirst : (check 0 x).filter p = [] :=
        List.filter_eq_nil_iff.mpr fun i hi hp => Nat.succ_ne_zero k ((h 0 x i hi).mp hp).symm
      rw [hfirst, List.nil_append, ih fun j y i hi => ?_]
      · rfl
      · exact (h (j + 1) y i hi).trans Nat.succ_inj

end Sanad
end Isnad
