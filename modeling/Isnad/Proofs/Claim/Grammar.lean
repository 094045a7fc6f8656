import Isnad.Claim.Validity
import Isnad.Proofs.Document.Record

/-!
# The grammar of claim documents

`Conforms` says of the members of an object what makes it a claim document: its fields are of their
kinds, and the rules over several fields hold of what they say. The checks find no issue exactly in
the documents of this grammar (`memberIssues_eq_nil_iff`). All of them can be read but those with a
null for whether the claim is bound (`decodes_iff`).
-/

namespace Isnad.Claim

open Document Json

variable {doc : Members} {name path : String} {x : Json}

/-! ## The grammar -/

/-- Yes or no. -/
inductive IsBool : Json → Prop where
  | intro (b : Bool) : IsBool (.bool b)

inductive IsString : Json → Prop where
  | intro (s : String) : IsString (.str s)

/-- The grammar of claim documents. -/
structure Conforms (doc : Members) : Prop where
  id : Holds doc "claim_id" IsUuid
  grade : Holds doc "claim_grade" (IsLabel Grade)
  verdict : Holds doc "claim_verdict" (IsLabel ClaimVerdict)
  action : Holds doc "claim_action" (IsLabel ClaimAction)
  isBound : MayHold doc "ic_bound" IsBool
  sanad : MayHold doc "sanad_id" IsUuid
  span : MayHold doc "primary_span_id" IsString
  reference : Holds doc "ic_bound" (· = .bool true) →
    Holds doc "sanad_id" IsUuid ∨ Holds doc "primary_span_id" IsText
  weakest : Holds doc "claim_grade" (Names Grade.d) →
    ¬ Holds doc "claim_action" (Names ClaimAction.none)
  contradicted : Holds doc "claim_verdict" (Names ClaimVerdict.contradicted) →
    ¬ Holds doc "claim_action" (Names ClaimAction.none)

/-! ## Checks of fields -/

theorem checkBool_issues_eq_nil_iff : (checkBool name path x).issues = [] ↔ IsBool x := by
  constructor
  · intro h
    cases x with
    | bool b => exact .intro b
    | _ => simp [checkBool, Checked.fail] at h
  · rintro ⟨b⟩
    rfl

theorem checkBool_value_eq_some_iff {b : Bool} :
    (checkBool name path x).value = some b ↔ x = .bool b := by
  cases x <;> simp [checkBool, Checked.ok, Checked.fail]

theorem checkSpan_issues_eq_nil_iff : (checkSpan path x).issues = [] ↔ IsString x := by
  constructor
  · intro h
    cases x with
    | str s => exact .intro s
    | _ => simp [checkSpan, Checked.fail] at h
  · rintro ⟨s⟩
    rfl

theorem checkSpan_value_eq_some_iff {s : String} :
    (checkSpan path x).value = some s ↔ x = .str s := by
  cases x <;> simp [checkSpan, Checked.ok, Checked.fail]

theorem checkUuid_value_eq_some_iff {u : Uuid} :
    (checkUuid path x).value = some u ↔ ∃ s, x = .str s ∧ Uuid.ofString? s = some u := by
  cases x <;> simp [checkUuid, Checked.fail]

/-! ## Rules -/

theorem broken_eq_nil_iff {g : Grade} {v : ClaimVerdict} {a : ClaimAction} {b r : Bool} :
    ClaimRule.broken g v a b r = [] ↔
      (b = true → r = true) ∧ (g = .d → a ≠ .none) ∧ (v = .contradicted → a ≠ .none) := by
  simp only [ClaimRule.broken, List.append_eq_nil_iff, ite_eq_right_iff, List.cons_ne_nil,
    imp_false, not_and, Bool.and_eq_true, Bool.not_eq_true', Bool.not_eq_false, ne_eq, and_assoc]

theorem isBound_iff :
    (field doc "ic_bound" "" false (checkBool "ic_bound")).value.getD false = true ↔
      Holds doc "ic_bound" (· = .bool true) := by
  have hread : (field doc "ic_bound" "" false (checkBool "ic_bound")).value = some true ↔
      Holds doc "ic_bound" (· = .bool true) := by
    simp only [field_value_eq_some_iff, checkBool_value_eq_some_iff]
  rw [← hread]
  cases (field doc "ic_bound" "" false (checkBool "ic_bound")).value <;> simp

theorem hasReference_iff :
    ((uuid? doc "sanad_id" "").value.isSome ||
        (field doc "primary_span_id" "" false checkSpan).value.any
          fun s => !Text.isBlankText s) = true ↔
      Holds doc "sanad_id" IsUuid ∨ Holds doc "primary_span_id" IsText := by
  rw [Bool.or_eq_true]
  refine or_congr ?_ ?_
  · simp only [Option.isSome_iff_exists, uuid?, field_value_eq_some_iff,
      checkUuid_value_eq_some_iff]
    constructor
    · rintro ⟨u, x, hx, hn, s, rfl, hu⟩
      exact ⟨_, hx, hn, .intro hu⟩
    · rintro ⟨x, hx, hn, ⟨hu⟩⟩
      exact ⟨_, _, hx, hn, _, rfl, hu⟩
  · simp only [Option.any_eq_true, field_value_eq_some_iff, checkSpan_value_eq_some_iff,
      Bool.not_eq_true']
    constructor
    · rintro ⟨s, ⟨x, hx, hn, rfl⟩, hs⟩
      exact ⟨_, hx, hn, .intro hs⟩
    · rintro ⟨x, hx, hn, ⟨hs⟩⟩
      exact ⟨_, ⟨_, hx, hn, rfl⟩, hs⟩

/-- What a label in a document says is known if it is. -/
theorem names_iff {α : Type} [Labelled α] {a b : α} (h : Holds doc name (Names a)) :
    Holds doc name (Names b) ↔ a = b := by
  have hvalue : ∀ c : α, (labelled doc name "" true).value = some c ↔ Holds doc name (Names c) :=
    fun _ => labelled_value_eq_some_iff
  rw [← hvalue] at h ⊢
  rw [h, Option.some.injEq]

theorem ruleIssues_eq_nil_iff {g : Grade} {v : ClaimVerdict} {a : ClaimAction}
    (hg : Holds doc "claim_grade" (Names g)) (hv : Holds doc "claim_verdict" (Names v))
    (ha : Holds doc "claim_action" (Names a)) :
    ruleIssues (labelled doc "claim_grade" "" true).value
        (labelled doc "claim_verdict" "" true).value (labelled doc "claim_action" "" true).value
        ((field doc "ic_bound" "" false (checkBool "ic_bound")).value.getD false)
        ((uuid? doc "sanad_id" "").value.isSome ||
          (field doc "primary_span_id" "" false checkSpan).value.any
            fun s => !Text.isBlankText s) = [] ↔
      (Holds doc "ic_bound" (· = .bool true) →
          Holds doc "sanad_id" IsUuid ∨ Holds doc "primary_span_id" IsText) ∧
        (Holds doc "claim_grade" (Names Grade.d) →
          ¬ Holds doc "claim_action" (Names ClaimAction.none)) ∧
        (Holds doc "claim_verdict" (Names ClaimVerdict.contradicted) →
          ¬ Holds doc "claim_action" (Names ClaimAction.none)) := by
  rw [names_iff hg, names_iff hv, names_iff ha, labelled_value_eq_some_iff.mpr hg,
    labelled_value_eq_some_iff.mpr hv, labelled_value_eq_some_iff.mpr ha, ruleIssues,
    List.map_eq_nil_iff, broken_eq_nil_iff, isBound_iff, hasReference_iff]

/-! ## The document -/

theorem exists_names {α : Type} [Labelled α] (h : Holds doc name (IsLabel α)) :
    ∃ a : α, Holds doc name (Names a) := by
  obtain ⟨x, hx, hn, a, ha⟩ := h
  exact ⟨a, x, hx, hn, ha⟩

theorem memberIssues_eq_nil_iff : memberIssues doc = [] ↔ Conforms doc := by
  simp only [memberIssues, List.append_eq_nil_iff, uuid_issues_eq_nil_iff,
    labelled_issues_eq_nil_iff, uuid?_issues_eq_nil_iff, field?_issues_eq_nil_iff,
    checkBool_issues_eq_nil_iff, checkSpan_issues_eq_nil_iff]
  constructor
  · rintro ⟨⟨⟨⟨⟨⟨⟨hid, hgrade⟩, hverdict⟩, haction⟩, hbound⟩, hsanad⟩, hspan⟩, hrules⟩
    obtain ⟨g, hg⟩ := exists_names hgrade
    obtain ⟨v, hv⟩ := exists_names hverdict
    obtain ⟨a, ha⟩ := exists_names haction
    obtain ⟨hreference, hweakest, hcontradicted⟩ := (ruleIssues_eq_nil_iff hg hv ha).mp hrules
    exact ⟨hid, hgrade, hverdict, haction, hbound, hsanad, hspan, hreference, hweakest,
      hcontradicted⟩
  · rintro ⟨hid, hgrade, hverdict, haction, hbound, hsanad, hspan, hreference, hweakest,
      hcontradicted⟩
    obtain ⟨g, hg⟩ := exists_names hgrade
    obtain ⟨v, hv⟩ := exists_names hverdict
    obtain ⟨a, ha⟩ := exists_names haction
    exact ⟨⟨⟨⟨⟨⟨⟨hid, hgrade⟩, hverdict⟩, haction⟩, hbound⟩, hsanad⟩, hspan⟩,
      (ruleIssues_eq_nil_iff hg hv ha).mpr ⟨hreference, hweakest, hcontradicted⟩⟩

theorem passed_iff_memberIssues {x : Json} :
    (validate x).passed = true ↔ ∃ doc, x = .obj doc ∧ memberIssues doc = [] := by
  cases x with
  | obj doc => simp [validate, Report.ofIssues]
  | _ => simp [validate, Report.failed, Report.ofIssues]

/-! ## Reading -/

/-- A document of the grammar can be read unless it says null for whether the claim is bound. -/
theorem decodes_iff (hc : Conforms doc) (hord : IsOrdered (.obj doc)) :
    Decodes decode (.obj doc) ↔ doc.lookup "ic_bound" ≠ some .null := by
  obtain ⟨f, hf⟩ := exists_read layout hord.names_nodup
  change (∃ c, decode (Json.obj doc).toWritten = .ok c) ↔ _
  simp (disch := decide) only [decode, exists_bind_eq_ok_iff, hf, Except.ok.injEq, exists_eq_left',
    pure, Except.pure, exists_eq', and_true, exists_and_right, exists_required_iff hf,
    exists_orElse_iff hf, exists_option_iff hf]
  constructor
  · rintro ⟨-, -, -, -, hbound, -⟩ hnull
    obtain ⟨b, hb⟩ := hbound _ hnull
    cases hb
  · intro hnull
    refine ⟨hc.action.exists_lookup fun _ => decodes_label_iff.mpr,
      hc.grade.exists_lookup fun _ => decodes_label_iff.mpr,
      hc.id.exists_lookup fun _ => decodes_uuid_iff.mpr,
      hc.verdict.exists_lookup fun _ => decodes_label_iff.mpr, fun y hy => ?_, hc.span.imp ?_,
      hc.sanad.imp fun _ => decodes_uuid_iff.mpr,
      fun y hy => ⟨_, decode_json ⟨y, hord.member? hy⟩⟩⟩
    · obtain ⟨b⟩ := hc.isBound y hy (by rintro rfl; exact hnull hy)
      exact ⟨b, decode_bool_eq_ok_iff.mpr rfl⟩
    · rintro _ ⟨s⟩
      exact ⟨s, decode_string_eq_ok_iff.mpr rfl⟩

end Isnad.Claim
