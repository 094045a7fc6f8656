import Isnad.Proofs.Chain.Linkage

/-!
# What is reported of a chain, by code

The issues of a chain come in parts, each of one code but for that of the roots, which has two. The
issues of the roots stand at the chain as a whole, the others at one of its links. The issues of a
code are a part of the report (`ofCode_ofLinks`).
-/

namespace Isnad

namespace Linkage

open ChainLink

variable {links : List ChainLink} {code : IssueCode}

/-! ## The code and the places of each part -/

section Parts

variable {nodes : List ChainLink} {i : Issue}

theorem of_mem_rootIssues {roots : List ChainLink} (h : i ∈ rootIssues nodes roots) :
    i.path = "transmission_chain" ∧ (i.code = .sanadNoRoot ∨ i.code = .sanadMultipleRoots) := by
  unfold rootIssues at h
  split at h
  · split at h
    · exact absurd h List.not_mem_nil
    · rw [List.mem_singleton.mp h]
      exact ⟨rfl, .inl rfl⟩
  · exact absurd h List.not_mem_nil
  · rw [List.mem_singleton.mp h]
    exact ⟨rfl, .inr rfl⟩

theorem exists_of_mem_orphanReferences {names : List String}
    (h : i ∈ nodes.filterMap (orphanReference? names)) :
    ∃ l ∈ nodes, i.path = l.path ∧ i.code = .sanadOrphanReference := by
  obtain ⟨l, hl, hi⟩ := List.mem_filterMap.mp h
  refine ⟨l, hl, ?_⟩
  unfold orphanReference? at hi
  split at hi
  · split at hi
    · cases hi
    · rw [← Option.some.inj hi]
      exact ⟨rfl, rfl⟩
  · cases hi

theorem exists_of_mem_cycleIssues {g : ChainGraph} {cycles : List (List Nat)}
    (h : i ∈ cycles.filterMap g.cycleIssue?) :
    ∃ l ∈ g.nodes, i.path = l.path ∧ i.code = .sanadCycleDetected := by
  obtain ⟨cycle, -, hi⟩ := List.mem_filterMap.mp h
  obtain ⟨k, -, hi⟩ := Option.bind_eq_some_iff.mp hi
  obtain ⟨l, hl, hi⟩ := Option.bind_eq_some_iff.mp hi
  refine ⟨l, List.mem_of_getElem? hl, ?_⟩
  rw [← Option.some.inj hi]
  exact ⟨rfl, rfl⟩

theorem exists_of_mem_orphanedIssues (h : i ∈ orphanedIssues nodes) :
    ∃ l ∈ nodes, i.path = l.path ∧ i.code = .sanadOrphanedNode := by
  unfold orphanedIssues at h
  split at h
  · obtain ⟨⟨k, l⟩, hl, hi⟩ := List.mem_filterMap.mp h
    obtain ⟨j, hj, heq⟩ := List.mem_mapIdx.mp hl
    obtain ⟨rfl, rfl⟩ := Prod.mk.inj heq
    refine ⟨_, List.getElem_mem hj, ?_⟩
    dsimp only at hi
    split at hi
    · cases hi
    · rw [← Option.some.inj hi]
      exact ⟨rfl, rfl⟩
  · exact absurd h List.not_mem_nil

theorem code_of_mem_duplicateIssues (h : i ∈ nodes.map duplicateIssue) :
    i.code = .sanadDuplicateNode := by
  obtain ⟨l, -, rfl⟩ := List.mem_map.mp h
  rfl

theorem code_of_mem_orphanReferences {names : List String}
    (h : i ∈ nodes.filterMap (orphanReference? names)) : i.code = .sanadOrphanReference := by
  obtain ⟨-, -, -, hcode⟩ := exists_of_mem_orphanReferences h
  exact hcode

theorem code_of_mem_cycleIssues {g : ChainGraph} {cycles : List (List Nat)}
    (h : i ∈ cycles.filterMap g.cycleIssue?) : i.code = .sanadCycleDetected := by
  obtain ⟨-, -, -, hcode⟩ := exists_of_mem_cycleIssues h
  exact hcode

theorem code_of_mem_orphanedIssues (h : i ∈ orphanedIssues nodes) :
    i.code = .sanadOrphanedNode := by
  obtain ⟨-, -, -, hcode⟩ := exists_of_mem_orphanedIssues h
  exact hcode

end Parts

/-! ## The parts of the report -/

/-- The issues of one code. -/
def ofCode (l : Linkage) (code : IssueCode) : List Issue := l.issues.filter (·.code = code)

theorem has_iff {l : Linkage} : l.has code = true ↔ l.ofCode code ≠ [] := by
  simp [has, ofCode]

theorem filter_code {issues : List Issue} {k : IssueCode} (h : ∀ i ∈ issues, i.code = k) :
    issues.filter (·.code = code) = if k = code then issues else [] := by
  split
  · rename_i hk
    exact List.filter_eq_self.mpr fun i hi => by simpa [h i hi] using hk
  · rename_i hk
    exact List.filter_eq_nil_iff.mpr fun i hi => by simpa [h i hi] using hk

theorem filter_rootIssues {nodes roots : List ChainLink} (hnoRoot : .sanadNoRoot ≠ code)
    (hmultiple : .sanadMultipleRoots ≠ code) :
    (rootIssues nodes roots).filter (·.code = code) = [] := by
  refine List.filter_eq_nil_iff.mpr fun i hi => ?_
  rcases (of_mem_rootIssues hi).2 with h | h
  · simpa [h] using hnoRoot
  · simpa [h] using hmultiple

theorem ofCode_ofLinks (links : List ChainLink) (code : IssueCode) :
    (ofLinks links).ofCode code =
      (if .sanadDuplicateNode = code then (repeats links).map duplicateIssue else []) ++
      (if .sanadOrphanReference = code then
        (firsts links).filterMap (orphanReference? (ids (firsts links))) else []) ++
      (rootIssues (firsts links) ((firsts links).filter (·.parent.isNone))).filter
        (·.code = code) ++
      (if .sanadCycleDetected = code then
        (ChainGraph.ofLinks (firsts links)).cycles.filterMap
          (ChainGraph.ofLinks (firsts links)).cycleIssue? else []) ++
      if .sanadOrphanedNode = code then orphanedIssues (firsts links) else [] := by
  rw [ofCode, issues_ofLinks]
  simp only [List.filter_append]
  rw [filter_code fun _ => code_of_mem_duplicateIssues,
    filter_code fun _ => code_of_mem_orphanReferences, filter_code fun _ => code_of_mem_cycleIssues,
    filter_code fun _ => code_of_mem_orphanedIssues]

end Linkage
end Isnad
