import Isnad.Gate.Clearance
import Isnad.Proofs.Grade
import Mathlib.Data.List.Forall2

/-!
# Many inputs at once

A batch holds the decisions that the gate takes on its inputs one by one, split by outcome
(`evaluateBatch_eq`). A calculation is cleared if the batch of its inputs blocks nothing, and then
with the decisions of that batch and the weakest grade; otherwise it is refused, with every input
that is blocked (`clear_agrees_evaluateBatch`).
-/

namespace Isnad.Gate

variable {t : Thresholds} {inputs : List CalculationInput} {i : CalculationInput}

/-! ## Batches -/

namespace Batch

/-- The decisions of two batches, side by side. -/
instance : Append Batch := ⟨fun b c => ⟨b.allowed ++ c.allowed, b.blocked ++ c.blocked⟩⟩

theorem append_def (b c : Batch) : b ++ c = ⟨b.allowed ++ c.allowed, b.blocked ++ c.blocked⟩ := rfl

/-- Each decision goes to the end of its side. -/
theorem foldl_push (ds : List Decision) (b : Batch) :
    ds.foldl push b = b ++ ⟨ds.filter Decision.isAllowed, ds.filter Decision.isBlocked⟩ := by
  induction ds generalizing b with
  | nil => simp [append_def]
  | cons d ds ih =>
    rw [List.foldl_cons, ih, push]
    cases h : d.isAllowed with
    | true => simp [append_def, h, Decision.isBlocked]
    | false => simp [append_def, h, Decision.isBlocked]

end Batch

theorem evaluateBatch_eq (t : Thresholds) (inputs : List Input) :
    t.evaluateBatch inputs = ⟨(inputs.map t.evaluate).filter Decision.isAllowed,
      (inputs.map t.evaluate).filter Decision.isBlocked⟩ := by
  rw [Thresholds.evaluateBatch, ← List.foldl_map, Batch.foldl_push]
  rfl

theorem evaluateBatch_append (t : Thresholds) (inputs inputs' : List Input) :
    t.evaluateBatch (inputs ++ inputs') = t.evaluateBatch inputs ++ t.evaluateBatch inputs' := by
  simp only [evaluateBatch_eq, List.map_append, List.filter_append, Batch.append_def]

/-- Every decision is on one side. -/
theorem sides_evaluateBatch_perm (t : Thresholds) (inputs : List Input) :
    ((t.evaluateBatch inputs).allowed ++ (t.evaluateBatch inputs).blocked).Perm
      (inputs.map t.evaluate) := by
  rw [evaluateBatch_eq]
  exact List.filter_append_perm _ _

/-! ## Blocked inputs -/

/-- What a refusal tells of an input: its name, its claim, and why the gate blocks it. -/
structure BlockedInput.Tells (t : Thresholds) (i : CalculationInput) (b : BlockedInput) : Prop where
  name : b.name = i.name
  claim : b.claim = i.claim
  reason : (t.evaluate i.toInput).reason = some b.reason

theorem Decision.isSome_reason (d : Decision) : d.reason.isSome = d.isBlocked := by
  obtain ⟨claim, verdict, confidence, dhabt⟩ := d
  cases verdict <;> rfl

theorem blockedInput?_eq_some_iff {b : BlockedInput} :
    t.blockedInput? i = some b ↔ b.Tells t i := by
  rw [Thresholds.blockedInput?, Option.map_eq_some_iff]
  constructor
  · rintro ⟨reason, hreason, rfl⟩
    exact ⟨rfl, rfl, hreason⟩
  · rintro ⟨hname, hclaim, hreason⟩
    exact ⟨b.reason, hreason, by rw [← hname, ← hclaim]⟩

theorem isSome_blockedInput? (t : Thresholds) (i : CalculationInput) :
    (t.blockedInput? i).isSome = (t.evaluate i.toInput).isBlocked := by
  rw [Thresholds.blockedInput?, Option.isSome_map, Decision.isSome_reason]

/-- A partial map gives the images of the elements that have one, in order. -/
theorem filterMap_eq_iff_forall₂ {α β : Type} {f : α → Option β} {as : List α} {bs : List β} :
    as.filterMap f = bs ↔
      List.Forall₂ (fun a b => f a = some b) (as.filter fun a => (f a).isSome) bs := by
  induction as generalizing bs with
  | nil => simp [eq_comm]
  | cons a as ih =>
    rw [List.filterMap_cons, List.filter_cons]
    cases h : f a with
    | none => exact ih
    | some b =>
      simp only [Option.isSome_some, if_true, List.forall₂_cons_left_iff, h, Option.some.injEq,
        ← ih]
      constructor
      · exact fun heq => ⟨b, _, rfl, rfl, heq.symm⟩
      · rintro ⟨_, _, rfl, rfl, rfl⟩
        rfl

theorem filterMap_blockedInput?_eq_iff {bs : List BlockedInput} :
    inputs.filterMap t.blockedInput? = bs ↔
      List.Forall₂ (BlockedInput.Tells t)
        (inputs.filter fun i => (t.evaluate i.toInput).isBlocked) bs := by
  simp only [filterMap_eq_iff_forall₂, blockedInput?_eq_some_iff, isSome_blockedInput?]

/-! ## Clearing a calculation -/

theorem blocked_evaluateBatch_eq_nil_iff :
    (t.evaluateBatch (inputs.map CalculationInput.toInput)).blocked = [] ↔
      inputs.filterMap t.blockedInput? = [] := by
  simp only [evaluateBatch_eq, List.filter_eq_nil_iff, List.filterMap_eq_nil_iff,
    List.forall_mem_map, ← isSome_blockedInput?, Option.not_isSome_iff_eq_none]

/-- Where nothing is blocked every decision is allowed. -/
theorem allowed_evaluateBatch_of_blocked {inputs : List Input}
    (h : (t.evaluateBatch inputs).blocked = []) :
    (t.evaluateBatch inputs).allowed = inputs.map t.evaluate := by
  rw [evaluateBatch_eq, List.filter_eq_nil_iff] at h
  rw [evaluateBatch_eq, List.filter_eq_self]
  exact fun d hd => by simpa [Decision.isBlocked] using h d hd

theorem clear_eq_ok_iff {c : Clearance} :
    t.clear inputs = .ok c ↔
      (t.evaluateBatch (inputs.map CalculationInput.toInput)).blocked = [] ∧
        c.decisions = (t.evaluateBatch (inputs.map CalculationInput.toInput)).allowed ∧
        Grade.IsWeakestOf (inputs.filterMap (·.grade)) c.weakestGrade := by
  have hgrades : (inputs.map (·.grade)).filterMap id = inputs.filterMap (·.grade) := by
    rw [List.filterMap_map]
    rfl
  unfold Thresholds.clear
  split
  · rename_i hnil
    have hblocked := blocked_evaluateBatch_eq_nil_iff.mpr hnil
    rw [← Grade.strictest?_eq_iff, ← hgrades, ← Grade.strictestCap,
      allowed_evaluateBatch_of_blocked hblocked, List.map_map]
    constructor
    · rintro ⟨⟩
      exact ⟨hblocked, rfl, rfl⟩
    · rintro ⟨-, hdecisions, hgrade⟩
      rw [hgrade, ← Function.comp_def t.evaluate, ← hdecisions]
  · rename_i hne
    exact ⟨nofun, fun h => absurd (blocked_evaluateBatch_eq_nil_iff.mp h.1) hne⟩

theorem clear_eq_error_iff {r : Refusal} :
    t.clear inputs = .error r ↔
      (t.evaluateBatch (inputs.map CalculationInput.toInput)).blocked ≠ [] ∧
        r.total = inputs.length ∧
        List.Forall₂ (BlockedInput.Tells t)
          (inputs.filter fun i => (t.evaluate i.toInput).isBlocked) r.blocked := by
  rw [ne_eq, blocked_evaluateBatch_eq_nil_iff, ← filterMap_blockedInput?_eq_iff]
  unfold Thresholds.clear
  split
  · rename_i hnil
    exact ⟨nofun, fun h => absurd hnil h.1⟩
  · rename_i hne
    constructor
    · rintro ⟨⟩
      exact ⟨hne, rfl, rfl⟩
    · rintro ⟨-, htotal, hblocked⟩
      rw [← htotal, hblocked]

/-- A batch holds the decision on every input once, each side in the order of the inputs, and that
of a concatenation is made of those of its parts. A calculation is cleared exactly if the batch of
its inputs blocks nothing, with the decisions of that batch and the weakest of its grades, and is
refused exactly if not, with the number of its inputs and, in their order, the blocked ones. -/
theorem clear_agrees_evaluateBatch (t : Thresholds) :
    (∀ inputs : List Input,
        (t.evaluateBatch inputs).allowed = (inputs.map t.evaluate).filter Decision.isAllowed ∧
          (t.evaluateBatch inputs).blocked = (inputs.map t.evaluate).filter Decision.isBlocked ∧
          ((t.evaluateBatch inputs).allowed ++ (t.evaluateBatch inputs).blocked).Perm
            (inputs.map t.evaluate)) ∧
      (∀ inputs inputs' : List Input,
        t.evaluateBatch (inputs ++ inputs') = t.evaluateBatch inputs ++ t.evaluateBatch inputs') ∧
      ∀ inputs : List CalculationInput,
        let batch := t.evaluateBatch (inputs.map CalculationInput.toInput)
        ((t.clear inputs).isOk = true ↔ batch.blocked = []) ∧
          (∀ c, t.clear inputs = .ok c ↔ batch.blocked = [] ∧ c.decisions = batch.allowed ∧
            Grade.IsWeakestOf (inputs.filterMap (·.grade)) c.weakestGrade) ∧
          ∀ r, t.clear inputs = .error r ↔ batch.blocked ≠ [] ∧ r.total = inputs.length ∧
            List.Forall₂ (BlockedInput.Tells t)
              (inputs.filter fun i => (t.evaluate i.toInput).isBlocked) r.blocked := by
  refine ⟨fun inputs => ⟨?_, ?_, sides_evaluateBatch_perm t inputs⟩, evaluateBatch_append t,
    fun inputs => ⟨?_, fun _ => clear_eq_ok_iff, fun _ => clear_eq_error_iff⟩⟩
  · rw [evaluateBatch_eq]
  · rw [evaluateBatch_eq]
  · cases hclear : t.clear inputs with
    | ok c => exact iff_of_true rfl (clear_eq_ok_iff.mp hclear).1
    | error r => exact iff_of_false nofun (clear_eq_error_iff.mp hclear).1

end Isnad.Gate
