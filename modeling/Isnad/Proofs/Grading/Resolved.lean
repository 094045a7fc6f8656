import Isnad.Proofs.Grading.Repeats

/-!
# The records that a grading rests on

A sanad is graded by the last record of each identifier that it refers to, so a grading rests on
nothing but the records of these identifiers, each in the order of its own records
(`gradeFrom_ofList_congr`). Records of other identifiers do not matter, nor does the order of
records that have different ones. Together with what a grading gives this is `gradeFrom_resolved`.
-/

namespace Isnad

variable {items items' : List Evidence} {id : Uuid} {s : Sanad}

namespace EvidenceStore

/-- What is on file under an identifier rests on its own records. -/
theorem get?_ofList_congr (h : items'.filter (·.id = id) = items.filter (·.id = id)) :
    (ofList items').get? id = (ofList items).get? id := by
  rw [get?_ofList, get?_ofList, ← List.head?_filter, ← List.head?_filter, List.filter_reverse,
    List.filter_reverse, h]

end EvidenceStore

namespace Grading

theorem gradeFrom_congr {store store' : EvidenceStore}
    (h : ∀ id ∈ s.references, store'.get? id = store.get? id) :
    gradeFrom store' s = gradeFrom store s := by
  have hresolve : ∀ id ∈ s.references, resolve store' s id = resolve store s id := fun id hid => by
    rw [resolve, resolve, h id hid]
  obtain ⟨hprimary, hcorroborators⟩ := List.forall_mem_cons.mp hresolve
  rw [gradeFrom, gradeFrom, hprimary, Json.mapM_congr hcorroborators]

/-- The lists have the same records of each identifier that the sanad refers to, in the same
order. -/
def SameRecords (s : Sanad) (items items' : List Evidence) : Prop :=
  ∀ id ∈ s.references, items'.filter (·.id = id) = items.filter (·.id = id)

theorem gradeFrom_ofList_congr (h : SameRecords s items items') :
    gradeFrom (.ofList items') s = gradeFrom (.ofList items) s :=
  gradeFrom_congr fun id hid => EvidenceStore.get?_ofList_congr (h id hid)

/-- Records that the sanad does not refer to can be left out. -/
theorem sameRecords_filter : SameRecords s items (items.filter (·.id ∈ s.references)) := by
  intro id hid
  rw [List.filter_filter]
  refine List.filter_congr fun e _ => ?_
  by_cases h : e.id = id <;> simp [h, hid]

/-- Two neighbours of different identifiers can change places. -/
theorem sameRecords_swap {before after : List Evidence} {e e' : Evidence} (h : e.id ≠ e'.id) :
    SameRecords s (before ++ e :: e' :: after) (before ++ e' :: e :: after) := by
  intro id _
  by_cases he : e.id = id
  · have he' : e'.id ≠ id := fun h' => h (he.trans h'.symm)
    simp [he, he']
  · simp [List.filter_cons, he]

/-- Records that all have different identifiers can be put in any order. -/
theorem sameRecords_perm (h : items'.Perm items) (hdistinct : (items.map Evidence.id).Nodup) :
    SameRecords s items items' := by
  intro id _
  have hperm := h.filter fun e => e.id = id
  have hlength : (items.filter (·.id = id)).length ≤ 1 := by
    have hcount := List.nodup_iff_count.mp hdistinct id
    rwa [List.count, List.countP_map, List.countP_eq_length_filter] at hcount
  generalize items.filter (·.id = id) = records at hperm hlength ⊢
  match records with
  | [] => exact hperm.eq_nil
  | [e] => exact List.perm_singleton.mp hperm
  | _ :: _ :: _ => exact absurd hlength (by simp)

/-- Grading by the evidence on file is grading by the last record of each identifier that the sanad
refers to, the corroborators in their order and as often as they are listed. It succeeds exactly if
there are records for all of these, and otherwise names the sanad and the first identifier without a
record, the primary before the corroborators. It rests on no other records, and not on the order of
records of different identifiers. -/
theorem gradeFrom_resolved (items : List Evidence) (s : Sanad) :
    ((∃ r, gradeFrom (.ofList items) s = .ok r) ↔ ∀ id ∈ s.references, ∃ e ∈ items, e.id = id) ∧
    (∀ r, gradeFrom (.ofList items) s = .ok r ↔
      ∃ p cs, Evidence.IsLastOf items s.primary p ∧
        List.Forall₂ (Evidence.IsLastOf items) s.corroborators cs ∧ r = grade s (some p) cs) ∧
    (∀ c, gradeFrom (.ofList items) s = .error c ↔
      c.sanad = s.id ∧ IsFirstOf (IsMissing items) s.references c.evidence) ∧
    (∀ items', SameRecords s items items' →
      gradeFrom (.ofList items') s = gradeFrom (.ofList items) s) ∧
    gradeFrom (.ofList (items.filter (·.id ∈ s.references))) s = gradeFrom (.ofList items) s ∧
    (∀ before e e' after, items = before ++ e :: e' :: after → e.id ≠ e'.id →
      gradeFrom (.ofList (before ++ e' :: e :: after)) s = gradeFrom (.ofList items) s) ∧
    ∀ items', items'.Perm items → (items.map Evidence.id).Nodup →
      gradeFrom (.ofList items') s = gradeFrom (.ofList items) s := by
  refine ⟨gradeFrom_isOk_iff, fun r => gradeFrom_eq_ok_iff, fun c => gradeFrom_eq_error_iff,
    fun items' h => gradeFrom_ofList_congr h, gradeFrom_ofList_congr sameRecords_filter, ?_,
    fun items' hperm hdistinct => gradeFrom_ofList_congr (sameRecords_perm hperm hdistinct)⟩
  rintro before e e' after rfl hne
  exact gradeFrom_ofList_congr (sameRecords_swap hne)

/-- Of two records of the advisor the later one counts, wherever the other stands, and for each
mention. Without a record of it the advisor is named. -/
theorem gradeFrom_resolved_listedTwice :
    let former := { advisor with grade := .d }
    gradeFrom (.ofList [former, unconflicted, advisor]) listedTwice =
        .ok (grade listedTwice (some unconflicted) [advisor, advisor]) ∧
      gradeFrom (.ofList [unconflicted, former, advisor]) listedTwice =
        gradeFrom (.ofList [former, unconflicted, advisor]) listedTwice ∧
      gradeFrom (.ofList [advisor, unconflicted]) listedTwice =
        gradeFrom (.ofList [unconflicted, advisor]) listedTwice ∧
      gradeFrom (.ofList [unconflicted]) listedTwice = .error ⟨listedTwice.id, advisor.id⟩ := by
  intro former
  have hne : unconflicted.id ≠ advisor.id := by decide
  obtain ⟨-, hok, -, -, -, hswap, -⟩ :=
    gradeFrom_resolved [former, unconflicted, advisor] listedTwice
  obtain ⟨-, -, -, -, -, -, hperm⟩ := gradeFrom_resolved [unconflicted, advisor] listedTwice
  obtain ⟨-, -, herror, -⟩ := gradeFrom_resolved [unconflicted] listedTwice
  have hprimary : Evidence.IsLastOf [former, unconflicted, advisor] unconflicted.id unconflicted :=
    ⟨rfl, [former], [advisor], rfl, List.forall_mem_singleton.mpr hne.symm⟩
  have hadvisor : Evidence.IsLastOf [former, unconflicted, advisor] advisor.id advisor :=
    ⟨rfl, [former, unconflicted], [], rfl, fun _ h => absurd h List.not_mem_nil⟩
  have hmissing : IsFirstOf (IsMissing [unconflicted]) listedTwice.references advisor.id :=
    .tail (fun h => h unconflicted (List.mem_singleton_self _) rfl)
      (.head (List.forall_mem_singleton.mpr hne))
  refine ⟨?_, ?_, ?_, ?_⟩
  · exact (hok _).mpr ⟨unconflicted, [advisor, advisor], hprimary,
      .cons hadvisor (.cons hadvisor .nil), rfl⟩
  · exact hswap [] former unconflicted [advisor] rfl hne.symm
  · exact hperm [advisor, unconflicted] (.swap _ _ _) (by simp [hne])
  · exact (herror _).mpr ⟨rfl, hmissing⟩

end Grading
end Isnad
