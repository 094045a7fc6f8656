import Isnad.Proofs.Claim.Rules

/-!
# Claims that are backed by sanads

A sanad that is attached to a claim gives it a reference and a grade, and the weakest grade calls
for an action where none is set. So of the rules that a claim breaks at most one is still broken
(`brokenRules_attach`), and none is broken that was kept (`brokenRules_attach_subset`). An action
that was called for stays when the grade rises again (`action_attachAll_eq_none_iff`). A claim that
was accepted is therefore accepted as it is written after each sanad (`attach_keepsValid`).
-/

namespace Isnad.Claim

open Json

variable {c : Claim} {doc : Document.Members} {x : Json} {sanad : Uuid} {grade : Grade}
  {backings : List (Uuid × Grade)}

/-! ## One sanad -/

/-- What it is to break a rule. -/
def Breaks (c : Claim) : ClaimRule → Prop
  | .noFreeFacts => c.isBound = true ∧ c.hasReference = false
  | .gradeDRequiresAction => c.grade = .d ∧ c.action = .none
  | .contradictedRequiresAction => c.verdict = .contradicted ∧ c.action = .none

theorem mem_brokenRules_iff {r : ClaimRule} : r ∈ c.brokenRules ↔ c.Breaks r := by
  cases r <;> simp [brokenRules, ClaimRule.broken, Breaks]

theorem hasReference_attach : (c.attach sanad grade).hasReference = true := by
  simp [hasReference, attach]

theorem action_attach_eq_none_iff :
    (c.attach sanad grade).action = .none ↔ c.action = .none ∧ grade ≠ .d := by
  by_cases h : c.action = .none <;> by_cases hd : grade = .d <;> simp [attach, h, hd]

/-- After a sanad was attached, a claim breaks no rule but that a contradicted one calls for an
action, and this one only where nothing has called for it. -/
theorem brokenRules_attach : (c.attach sanad grade).brokenRules =
    if c.verdict = .contradicted ∧ c.action = .none ∧ grade ≠ .d
    then [.contradictedRequiresAction] else [] := by
  have hbroken : (c.attach sanad grade).brokenRules =
      ClaimRule.broken grade c.verdict (c.attach sanad grade).action c.isBound true := by
    rw [brokenRules, hasReference_attach]
    rfl
  have hweakest : ¬ (grade = .d ∧ c.action = .none ∧ grade ≠ .d) := fun h => h.2.2 h.1
  simp [hbroken, ClaimRule.broken, action_attach_eq_none_iff, hweakest]

theorem brokenRules_attach_subset : (c.attach sanad grade).brokenRules ⊆ c.brokenRules := by
  rw [brokenRules_attach]
  split
  · rename_i h
    exact List.cons_subset.mpr ⟨mem_brokenRules_iff.mpr ⟨h.1, h.2.1⟩, List.nil_subset _⟩
  · exact List.nil_subset _

/-! ## One sanad after the other -/

/-- The claim backed by graded sanads, one after the other. -/
def attachAll (c : Claim) (backings : List (Uuid × Grade)) : Claim :=
  backings.foldl (fun c b => c.attach b.1 b.2) c

theorem attachAll_cons (b : Uuid × Grade) :
    c.attachAll (b :: backings) = (c.attach b.1 b.2).attachAll backings := rfl

theorem attachAll_concat (b : Uuid × Grade) :
    c.attachAll (backings ++ [b]) = (c.attachAll backings).attach b.1 b.2 := by
  rw [attachAll, List.foldl_append]
  rfl

theorem brokenRules_attachAll_subset : (c.attachAll backings).brokenRules ⊆ c.brokenRules := by
  induction backings generalizing c with
  | nil => exact List.Subset.refl _
  | cons b backings ih => exact List.Subset.trans ih brokenRules_attach_subset

theorem verdict_attachAll : (c.attachAll backings).verdict = c.verdict := by
  induction backings generalizing c with
  | nil => rfl
  | cons b backings ih => exact ih

/-- An action is still not called for exactly if none of the grades was the weakest: no later grade
takes back what one called for. -/
theorem action_attachAll_eq_none_iff :
    (c.attachAll backings).action = .none ↔ c.action = .none ∧ ∀ b ∈ backings, b.2 ≠ .d := by
  induction backings generalizing c with
  | nil => exact ⟨fun h => ⟨h, nofun⟩, fun h => h.1⟩
  | cons b backings ih =>
    rw [attachAll_cons, ih, action_attach_eq_none_iff, List.forall_mem_cons, and_assoc]

theorem brokenRules_attachAll_concat (b : Uuid × Grade) :
    (c.attachAll (backings ++ [b])).brokenRules =
      if c.verdict = .contradicted ∧ c.action = .none ∧ ∀ b' ∈ backings ++ [b], b'.2 ≠ .d
      then [.contradictedRequiresAction] else [] := by
  rw [attachAll_concat, brokenRules_attach]
  simp only [verdict_attachAll, action_attachAll_eq_none_iff, List.forall_mem_append,
    List.forall_mem_singleton, and_assoc]

/-! ## Claims that were accepted -/

/-- The rules that a claim breaks are among the issues of a document that shows it. -/
theorem Shows.suffix_memberIssues (h : Shows doc c) :
    c.brokenRules.map ClaimRule.issue <:+ memberIssues doc := by
  rw [← h.ruleIssues_eq]
  exact List.suffix_append _ _

theorem brokenRules_of_parse (h : parse x = .ok c) : c.brokenRules = [] := by
  obtain ⟨hpassed, hread⟩ := parse_eq_ok_iff.mp h
  obtain ⟨doc, rfl, hnil⟩ := passed_iff_memberIssues.mp hpassed
  have hsuffix := (shows_of_decode hread).suffix_memberIssues
  rw [hnil, List.suffix_nil, List.map_eq_nil_iff] at hsuffix
  exact hsuffix

theorem passed_toJson_iff : (validate c.toJson).passed = true ↔ c.brokenRules = [] := by
  rw [passed_eq, errors_validate_toJson, List.isEmpty_iff, List.map_eq_nil_iff]

/-- A claim that was accepted stays so, as it is written after each of any sanads that are attached
to it. Of no claim does a sanad break a rule that was kept. The one rule that can still be broken
after it is that a contradicted claim calls for an action, which it is exactly if the claim is
contradicted and had no action, and the grade is not the weakest; after several sanads, if none of
the grades was. -/
theorem attach_keepsValid :
    (∀ x c, parse x = .ok c → ∀ (backings : List (Uuid × Grade)) (n : Nat),
      (validate (c.attachAll (backings.take n)).toJson).passed = true) ∧
    (∀ (c : Claim) (sanad : Uuid) (grade : Grade),
      (c.attach sanad grade).brokenRules ⊆ c.brokenRules ∧
        (c.attach sanad grade).brokenRules =
          if c.verdict = .contradicted ∧ c.action = .none ∧ grade ≠ .d
          then [.contradictedRequiresAction] else []) ∧
    ∀ (c : Claim) (backings : List (Uuid × Grade)) (b : Uuid × Grade),
      (c.attachAll (backings ++ [b])).brokenRules =
        if c.verdict = .contradicted ∧ c.action = .none ∧ ∀ b' ∈ backings ++ [b], b'.2 ≠ .d
        then [.contradictedRequiresAction] else [] := by
  refine ⟨fun x c h backings n => ?_,
    fun c sanad grade => ⟨brokenRules_attach_subset, brokenRules_attach⟩,
    fun c backings b => brokenRules_attachAll_concat b⟩
  have hsubset : (c.attachAll (backings.take n)).brokenRules ⊆ c.brokenRules :=
    brokenRules_attachAll_subset
  rw [brokenRules_of_parse h, List.subset_nil] at hsubset
  exact passed_toJson_iff.mpr hsubset

/-- The grade of a claim falls to the weakest and rises again: an action is called for and stays. A
contradicted claim without an action still breaks its rule under a strong grade. -/
theorem attach_keepsValid_spanOnly :
    let id : Uuid := ⟨List.replicate 32 (.castAdd 5 (.last 10)), List.length_replicate⟩
    (∃ c, parse spanOnly = .ok c ∧ c.action = .none ∧
      (c.attachAll [(id, .d), (id, .a)]).action ≠ .none ∧
      (validate (c.attachAll ([(id, .d), (id, .a)].take 2)).toJson).passed = true) ∧
    let c : Claim := ⟨id, .null, .d, .contradicted, .none, true, none, some " "⟩
    c.brokenRules.length = 3 ∧
      (c.attach id .a).brokenRules = [.contradictedRequiresAction] := by
  intro id
  obtain ⟨haccepted, hstep, -⟩ := attach_keepsValid
  refine ⟨?_, by decide, by rw [(hstep _ id .a).2]; decide⟩
  obtain ⟨c, hc, hp⟩ := exists_of_any_toOption (x := parse spanOnly)
    (p := fun c => c.action = .none) (by decide +kernel)
  have hnone : c.action = .none := of_decide_eq_true hp
  refine ⟨c, hc, hnone, ?_, haccepted _ c hc _ 2⟩
  exact fun h => (action_attachAll_eq_none_iff.mp h).2 _ List.mem_cons_self rfl

end Isnad.Claim
