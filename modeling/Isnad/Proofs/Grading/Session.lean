import Isnad.Grading.Session
import Isnad.Proofs.Grading.OnFile
import Isnad.Proofs.Sanad.Regraded

/-!
# Grades applied in the course of the work

To apply a grade replaces the derived defects that are open by those of the grading, and what else
is on record stays in its order (`Session.Applied`). So of several applications only the last one
shows, as long as nobody edits the defects in between (`Session.defects_run`). Both are said of
every point of every session in `Session.run_applied`.
-/

namespace Isnad.Grading

variable {r : GradeResult}

/-- The step is an edit of the defects by hand. -/
def Step.editsDefects : Step → Bool
  | .addDefect _ | .setStatus _ _ => true
  | _ => false

namespace Session

variable {w : Session} {a : Step} {steps : List Step}

/-! ## One application -/

theorem isOpenDerived_of_graded (h : w.graded = .ok r) :
    ∀ d ∈ r.addedDefects, d.isOpenDerived = true := by
  obtain ⟨item, -, rfl⟩ := exists_items_of_gradeFrom h
  exact fun _ => isOpenDerived_of_mem_addedDefects

/-- What it means for a result to be applied between two points of the work. -/
structure Applied (r : GradeResult) (w w' : Session) : Prop where
  store : w'.store = w.store
  last : w'.last = some (.ok r)
  sanad : w'.sanad =
    { w.sanad with grade := r.grade, status := r.status, defects := w'.sanad.defects }
  defects : w'.sanad.defects = w.sanad.defects.filter (!·.isOpenDerived) ++ r.addedDefects
  openDerived : w'.sanad.defects.filter (·.isOpenDerived) = r.addedDefects
  grade_of_hasOpenFatal : w'.sanad.hasOpenFatal = true → w'.sanad.grade = .d

theorem applied_step (h : w.graded = .ok r) : Applied r w (w.step .apply) := by
  rw [step, h]
  exact
    { store := rfl
      last := congrArg some h
      sanad := rfl
      defects := rfl
      openDerived := filter_replaced (isOpenDerived_of_graded h)
      grade_of_hasOpenFatal := by
        obtain ⟨item, -, rfl⟩ := exists_items_of_gradeFrom h
        exact grade_of_hasOpenFatal_regraded }

theorem step_apply_of_error {e : NotFound} (h : w.graded = .error e) :
    w.step .apply = w.regraded := by
  rw [step, h]

/-! ## Whole sessions -/

/-- Of several replacements the last one shows. -/
theorem foldl_replaced {results : List GradeResult} {defects : List Defect}
    (h : ∀ r ∈ results, ∀ d ∈ r.addedDefects, d.isOpenDerived = true) :
    results.foldl (fun defects r => replaced defects r.addedDefects) defects =
      results.getLast?.elim defects fun r => replaced defects r.addedDefects := by
  -- from the end: whatever the earlier ones added, the last one replaces all of it
  induction results using List.reverseRecOn with
  | nil => rfl
  | append_singleton results r ih =>
    obtain ⟨hearlier, -⟩ := List.forall_mem_append.mp h
    rw [List.foldl_append, ih hearlier, List.getLast?_concat, List.foldl_cons, List.foldl_nil]
    cases hlast : results.getLast? with
    | none => rfl
    | some r' => exact replaced_replaced (hearlier r' (List.mem_of_getLast? hlast)) _

/-- What is applied in the course of the steps. -/
def applied (w : Session) : List Step → List GradeResult
  | [] => []
  | .apply :: steps => w.graded.toOption.toList ++ (w.step .apply).applied steps
  | a :: steps => (w.step a).applied steps

theorem isOpenDerived_of_mem_applied (w : Session) (steps : List Step) :
    ∀ r ∈ w.applied steps, ∀ d ∈ r.addedDefects, d.isOpenDerived = true := by
  induction steps generalizing w with
  | nil => simp [applied]
  | cons a steps ih =>
    intro r hr
    cases a with
    | apply =>
      rcases List.mem_append.mp hr with hr | hr
      · cases hgraded : w.graded with
        | error e => simp [hgraded, Except.toOption] at hr
        | ok r' =>
          obtain rfl : r = r' := by simpa [hgraded, Except.toOption] using hr
          exact isOpenDerived_of_graded hgraded
      · exact ih _ r hr
    | _ => exact ih _ r hr

/-- Every application replaces defects, and no other step touches them unless it is an edit. -/
theorem defects_run_eq_foldl (w : Session) (h : ∀ a ∈ steps, a.editsDefects = false) :
    (w.run steps).sanad.defects =
      (w.applied steps).foldl (fun defects r => replaced defects r.addedDefects)
        w.sanad.defects := by
  induction steps generalizing w with
  | nil => rfl
  | cons a steps ih =>
    obtain ⟨ha, hsteps⟩ := List.forall_mem_cons.mp h
    rw [run, List.foldl_cons, ← run, ih _ hsteps]
    cases a with
    | addDefect d => cases ha
    | setStatus index status => cases ha
    | apply =>
      rw [applied]
      cases hgraded : w.graded with
      | error e => rw [step_apply_of_error hgraded]; rfl
      | ok r => rw [(applied_step hgraded).defects]; rfl
    | _ => rfl

theorem defects_run (w : Session) (h : ∀ a ∈ steps, a.editsDefects = false) :
    (w.run steps).sanad.defects =
      (w.applied steps).getLast?.elim w.sanad.defects fun r =>
        w.sanad.defects.filter (!·.isOpenDerived) ++ r.addedDefects := by
  rw [defects_run_eq_foldl w h, foldl_replaced (isOpenDerived_of_mem_applied w steps)]
  rfl

theorem run_take_succ {k : Nat} (w : Session) (h : steps[k]? = some a) :
    w.run (steps.take (k + 1)) = (w.run (steps.take k)).step a := by
  rw [List.take_add_one, h, run, List.foldl_append]
  rfl

/-- At every point of a session, to apply a grade replaces the open defects that gradings derive,
and changes the grade and the status, and nothing else. An open fatal defect then means the weakest
grade. A grading that fails for want of evidence leaves the evidence and the sanad as they were, and
so does one that is not applied; only what it gave is kept. Over a stretch in which the defects are
not edited by hand, only what was applied last is on record besides the defects that stay. -/
theorem run_applied (w₀ : Session) (steps : List Step) :
    (∀ k, steps[k]? = some .apply →
      let before := w₀.run (steps.take k)
      let after := w₀.run (steps.take (k + 1))
      (∀ r, before.graded = .ok r → Applied r before after) ∧
        ∀ e, before.graded = .error e → after = { before with last := some (.error e) }) ∧
    (∀ k, steps[k]? = some .grade →
      let before := w₀.run (steps.take k)
      w₀.run (steps.take (k + 1)) = { before with last := some before.graded }) ∧
    ((∀ a ∈ steps, a.editsDefects = false) →
      (w₀.run steps).sanad.defects =
        (w₀.applied steps).getLast?.elim w₀.sanad.defects fun r =>
          w₀.sanad.defects.filter (!·.isOpenDerived) ++ r.addedDefects) := by
  refine ⟨fun k hk => ?_, fun k hk => run_take_succ w₀ hk, defects_run w₀⟩
  rw [run_take_succ w₀ hk]
  exact ⟨fun r hr => applied_step hr, fun e he => by rw [step_apply_of_error he, regraded, he]⟩

/-- What was waived stays on record when the grade is applied again, and what was put there by hand
does not, if it is open and of a derived kind. -/
example :
    let w : Session := { store := .ofList [undisclosed], sanad := circular }
    let manual : Defect := .opened .coiHighUncured .major .requireMutawatirCorroboration "by hand"
    (w.run [.apply, .setStatus 1 .waived, .addDefect manual, .apply, .apply]).sanad.defects.map
        (fun d => (d.type, d.status)) =
      [(.circularity, .opened), (.coiHighUndisclosed, .waived), (.coiHighUndisclosed, .opened)] :=
  by decide

end Session
end Isnad.Grading
