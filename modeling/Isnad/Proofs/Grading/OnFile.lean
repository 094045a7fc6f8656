import Isnad.Grading.Lookup
import Isnad.Proofs.First
import Mathlib.Data.List.Induction
import Mathlib.Data.List.Nodup

/-!
# Grading by the evidence on file

A store that is filled from a list gives the last item of an identifier
(`EvidenceStore.get?_ofList_eq_some_iff`). So a sanad is graded by the last items of the identifiers
it refers to, if there are items for all of them (`gradeFrom_eq_ok_iff`), and otherwise the first
one that is missing is named (`gradeFrom_eq_error_iff`).
-/

namespace Isnad

variable {items : List Evidence} {id : Uuid} {e : Evidence}

/-- The last item of the identifier. -/
def Evidence.IsLastOf (items : List Evidence) (id : Uuid) (e : Evidence) : Prop :=
  e.id = id ∧ ∃ before after, items = before ++ e :: after ∧ ∀ x ∈ after, x.id ≠ id

theorem Evidence.IsLastOf.mem (h : IsLastOf items id e) : e ∈ items := by
  obtain ⟨-, before, after, rfl, -⟩ := h
  exact List.mem_append_right _ List.mem_cons_self

namespace EvidenceStore

/-- A store gives back each of its items. -/
theorem get?_eq_some_iff {store : EvidenceStore} :
    store.get? id = some e ↔ e ∈ store.items ∧ e.id = id := by
  constructor
  · intro h
    exact ⟨List.mem_of_find?_eq_some h, by simpa using List.find?_some h⟩
  · rintro ⟨hmem, rfl⟩
    have hsome : (store.get? e.id).isSome = true := List.find?_isSome.mpr ⟨e, hmem, by simp⟩
    obtain ⟨x, hx⟩ := Option.isSome_iff_exists.mp hsome
    have hid : x.id = e.id := by simpa using List.find?_some hx
    have hnodup := List.pairwise_map.mpr store.distinct
    rw [hx, List.inj_on_of_nodup_map hnodup (List.mem_of_find?_eq_some hx) hmem hid]

theorem id_of_get? {store : EvidenceStore} (h : store.get? id = some e) : e.id = id :=
  (get?_eq_some_iff.mp h).2

theorem get?_insert (s : EvidenceStore) (e : Evidence) (id : Uuid) :
    (s.insert e).get? id = if e.id = id then some e else s.get? id := by
  split
  · rename_i h
    rw [← h, get?_insert_self]
  · rename_i h
    exact get?_insert_of_ne s h

theorem get?_ofList (items : List Evidence) (id : Uuid) :
    (ofList items).get? id = items.reverse.find? (·.id = id) := by
  induction items using List.reverseRecOn with
  | nil => rfl
  | append_singleton items e ih =>
    rw [ofList, List.foldl_append, ← ofList, List.foldl_cons, List.foldl_nil, get?_insert, ih,
      List.reverse_append, List.reverse_singleton, List.singleton_append, List.find?_cons]
    by_cases h : e.id = id
    · simp [h]
    · simp [h]

theorem get?_ofList_eq_some_iff :
    (ofList items).get? id = some e ↔ Evidence.IsLastOf items id e := by
  rw [get?_ofList, List.find?_eq_some_iff_append, Evidence.IsLastOf, decide_eq_true_eq]
  refine and_congr_right fun _ => ⟨?_, ?_⟩
  · rintro ⟨after, before, hitems, hafter⟩
    refine ⟨before.reverse, after.reverse, ?_, fun x hx => ?_⟩
    · simpa using congrArg List.reverse hitems
    · simpa using hafter x (List.mem_reverse.mp hx)
  · rintro ⟨before, after, rfl, hafter⟩
    refine ⟨after.reverse, before.reverse, by simp, fun x hx => ?_⟩
    simpa using hafter x (List.mem_reverse.mp hx)

theorem get?_ofList_eq_none_iff : (ofList items).get? id = none ↔ ∀ e ∈ items, e.id ≠ id := by
  simp [get?_ofList, List.find?_eq_none]

end EvidenceStore

namespace Sanad

/-- The identifiers of the evidence that a sanad refers to. -/
def references (s : Sanad) : List Uuid := s.primary :: s.corroborators

end Sanad

namespace Grading

variable {s : Sanad} {r : GradeResult} {c : NotFound} {store : EvidenceStore}
  {item : Uuid → Evidence}

theorem resolve_eq_ok_iff_get? : resolve store s id = .ok e ↔ store.get? id = some e := by
  rw [resolve]
  cases store.get? id with
  | none => exact iff_of_false nofun nofun
  | some e' => rw [Except.ok.injEq, Option.some.injEq]

/-- The grading of items that are known by their identifiers. -/
theorem gradeFrom_of_items (h : ∀ id ∈ s.references, store.get? id = some (item id)) :
    gradeFrom store s = .ok (grade s (some (item s.primary)) (s.corroborators.map item)) := by
  obtain ⟨hprimary, hcorroborators⟩ := List.forall_mem_cons.mp h
  simp only [gradeFrom, Json.bind_eq_ok_iff, Json.mapM_eq_ok_iff, resolve_eq_ok_iff_get?]
  refine ⟨_, hprimary, _, ?_, rfl⟩
  rw [List.forall₂_map_right_iff, List.forall₂_same]
  exact hcorroborators

theorem exists_items_of_gradeFrom (h : gradeFrom store s = .ok r) :
    ∃ item : Uuid → Evidence, (∀ id ∈ s.references, store.get? id = some (item id)) ∧
      r = grade s (some (item s.primary)) (s.corroborators.map item) := by
  have hok := h
  simp only [gradeFrom, Json.bind_eq_ok_iff, Json.mapM_eq_ok_iff, resolve_eq_ok_iff_get?] at h
  obtain ⟨p, hp, cs, hcs, -⟩ := h
  have hitems : ∀ id ∈ s.references, store.get? id = some ((store.get? id).getD p) := by
    refine List.forall_mem_cons.mpr ⟨by rw [hp]; rfl, fun id hid => ?_⟩
    obtain ⟨e, -, he⟩ := Json.forall₂_exists_of_mem hcs.flip hid
    rw [he]
    rfl
  rw [gradeFrom_of_items hitems] at hok
  exact ⟨_, hitems, (Except.ok.inj hok).symm⟩

theorem resolve_eq_ok_iff :
    resolve (.ofList items) s id = .ok e ↔ Evidence.IsLastOf items id e :=
  resolve_eq_ok_iff_get?.trans EvidenceStore.get?_ofList_eq_some_iff

theorem resolve_eq_error_iff :
    resolve (.ofList items) s id = .error c ↔ c = ⟨s.id, id⟩ ∧ ∀ e ∈ items, e.id ≠ id := by
  rw [resolve, ← EvidenceStore.get?_ofList_eq_none_iff]
  cases (EvidenceStore.ofList items).get? id with
  | none => exact ⟨fun h => ⟨(Except.error.inj h).symm, rfl⟩, fun h => congrArg _ h.1.symm⟩
  | some e => exact iff_of_false nofun fun h => nomatch h.2

/-- A sanad is graded by the last items of its identifiers. -/
theorem gradeFrom_eq_ok_iff :
    gradeFrom (.ofList items) s = .ok r ↔
      ∃ p cs, Evidence.IsLastOf items s.primary p ∧
        List.Forall₂ (Evidence.IsLastOf items) s.corroborators cs ∧ r = grade s (some p) cs := by
  simp only [gradeFrom, Json.bind_eq_ok_iff, Json.mapM_eq_ok_iff, resolve_eq_ok_iff]
  constructor
  · rintro ⟨p, hp, cs, hcs, hr⟩
    exact ⟨p, cs, hp, hcs, (Except.ok.inj hr).symm⟩
  · rintro ⟨p, cs, hp, hcs, rfl⟩
    exact ⟨p, hp, cs, hcs, rfl⟩

/-- A grading fails where the look-up of what the sanad refers to fails. -/
theorem gradeFrom_eq_error_iff_mapM :
    gradeFrom store s = .error c ↔ s.references.mapM (resolve store s) = .error c := by
  have hdone : ∀ r, (pure r : Except NotFound GradeResult) ≠ .error c := fun _ => nofun
  have hread : ∀ e es, (pure (e :: es) : Except NotFound (List Evidence)) ≠ .error c :=
    fun _ _ => nofun
  simp only [gradeFrom, Sanad.references, List.mapM_cons, Json.bind_eq_error_iff, hdone, hread,
    and_false, exists_false, or_false]

/-- No item has the identifier. -/
def IsMissing (items : List Evidence) (id : Uuid) : Prop := ∀ e ∈ items, e.id ≠ id

/-- A sanad that is not graded refers to evidence that is not on file, and the first identifier of
such is named. -/
theorem gradeFrom_eq_error_iff :
    gradeFrom (.ofList items) s = .error c ↔
      c.sanad = s.id ∧ IsFirstOf (IsMissing items) s.references c.evidence := by
  have hmissing : Fails (resolve (.ofList items) s) = IsMissing items := by
    funext id
    simp only [Fails, resolve_eq_error_iff, exists_eq_left, IsMissing]
  rw [gradeFrom_eq_error_iff_mapM, mapM_eq_error_iff, hmissing]
  simp only [resolve_eq_error_iff]
  constructor
  · rintro ⟨id, hfirst, rfl, -⟩
    exact ⟨rfl, hfirst⟩
  · rintro ⟨hsanad, hfirst⟩
    exact ⟨c.evidence, hfirst, hsanad ▸ rfl, hfirst.prop⟩

theorem missing_of_gradeFrom (h : gradeFrom (.ofList items) s = .error c) :
    c.sanad = s.id ∧ c.evidence ∈ s.references ∧ ∀ e ∈ items, e.id ≠ c.evidence := by
  obtain ⟨hsanad, hfirst⟩ := gradeFrom_eq_error_iff.mp h
  exact ⟨hsanad, hfirst.mem, hfirst.prop⟩

/-- A sanad is graded exactly if all it refers to is on file. -/
theorem gradeFrom_isOk_iff :
    (∃ r, gradeFrom (.ofList items) s = .ok r) ↔ ∀ id ∈ s.references, ∃ e ∈ items, e.id = id := by
  constructor
  · rintro ⟨r, hr⟩ id hid
    obtain ⟨p, cs, hp, hcs, -⟩ := gradeFrom_eq_ok_iff.mp hr
    rcases List.mem_cons.mp hid with rfl | hid
    · exact ⟨p, hp.mem, hp.1⟩
    · obtain ⟨e, -, he⟩ := Json.forall₂_exists_of_mem hcs.flip hid
      exact ⟨e, Evidence.IsLastOf.mem he, he.1⟩
  · intro h
    cases hgrade : gradeFrom (.ofList items) s with
    | ok r => exact ⟨r, rfl⟩
    | error c =>
      obtain ⟨-, hmem, hmissing⟩ := missing_of_gradeFrom hgrade
      obtain ⟨e, he, hid⟩ := h _ hmem
      exact absurd hid (hmissing e he)

end Grading
end Isnad
