import Isnad.Proofs.Claim.Grammar
import Isnad.Proofs.Document.Written

/-!
# The rules of a claim and of its document

The rules over several fields are checked on documents and stated of claims. The two agree, since
the checks read from a document what a claim decoded from it holds (`Shows`). So the issues of a
claim that is written are the rules that it breaks (`errors_validate_toJson`), a claim that was
accepted breaks none, and it is accepted again as it is written (`rules_agree`).
-/

namespace Isnad.Claim

open Document Json

variable {doc : Members} {c : Claim} {x : Json}

/-- The values that the rules are checked on are those of the claim. -/
structure Shows (doc : Members) (c : Claim) : Prop where
  grade : (labelled doc "claim_grade" "" true).value = some c.grade
  verdict : (labelled doc "claim_verdict" "" true).value = some c.verdict
  action : (labelled doc "claim_action" "" true).value = some c.action
  isBound : (field doc "ic_bound" "" false (checkBool "ic_bound")).value.getD false = c.isBound
  sanad : (uuid? doc "sanad_id" "").value = c.sanad
  span : (field doc "primary_span_id" "" false checkSpan).value = c.span

theorem Shows.ruleIssues_eq (h : Shows doc c) :
    ruleIssues (labelled doc "claim_grade" "" true).value
        (labelled doc "claim_verdict" "" true).value (labelled doc "claim_action" "" true).value
        ((field doc "ic_bound" "" false (checkBool "ic_bound")).value.getD false)
        ((uuid? doc "sanad_id" "").value.isSome ||
          (field doc "primary_span_id" "" false checkSpan).value.any
            fun s => !Text.isBlankText s) = c.brokenRules.map ClaimRule.issue := by
  rw [h.grade, h.verdict, h.action, h.isBound, h.sanad, h.span, ruleIssues, brokenRules,
    hasReference]
  cases c.span <;> rfl

/-! ## Claims that are read -/

theorem shows_of_decode (h : Json.decode decode (.obj doc) = .ok c) : Shows doc c := by
  simp only [Json.decode, decode, bind_eq_ok_iff] at h
  obtain ⟨f, hf, action, haction, grade, hgrade, _, -, verdict, hverdict, isBound, hbound, span,
    hspan, sanad, hsanad, _, -, h⟩ := h
  obtain rfl := Except.ok.inj h
  have hlabel : ∀ {α : Type} [Labelled α] {name : String} {a : α}, name ∈ layout.names →
      f.required name .label = .ok a → (labelled doc name "" true).value = some a := by
    intro α _ name a hn ha
    obtain ⟨y, hy, hread⟩ := present?_of_required hf hn (by simp [Decoder.label]) ha
    exact labelled_value_eq_some_iff.mpr (holds_iff.mpr ⟨y, hy, decode_label_eq_ok_iff.mp hread⟩)
  refine ⟨hlabel (by decide) hgrade, hlabel (by decide) hverdict, hlabel (by decide) haction, ?_,
    ?_, ?_⟩
  · rw [field?_value]
    rcases present?_of_orElse hf (by decide) (by simp [Decoder.bool]) hbound with
      ⟨hnone, rfl⟩ | ⟨y, hy, hread⟩
    · rw [hnone]
      rfl
    · rw [hy, decode_bool_eq_ok_iff.mp hread]
      rfl
  · have hread := (option_eq_ok_iff hf (by decide)).mp hsanad
    rw [uuid?, field?_value]
    cases hp : present? doc "sanad_id" with
    | none =>
      rw [hp] at hread
      exact hread.symm
    | some y =>
      rw [hp] at hread
      obtain ⟨u, rfl, hu⟩ := hread
      exact checkUuid_value_eq_some_iff.mpr (decode_uuid_eq_ok_iff.mp hu)
  · have hread := (option_eq_ok_iff hf (by decide)).mp hspan
    rw [field?_value]
    cases hp : present? doc "primary_span_id" with
    | none =>
      rw [hp] at hread
      exact hread.symm
    | some y =>
      rw [hp] at hread
      obtain ⟨s, rfl, hs⟩ := hread
      exact checkSpan_value_eq_some_iff.mpr (decode_string_eq_ok_iff.mp hs)

/-! ## Claims that are written -/

/-- The members of the document of a claim. -/
structure WrittenAs (c : Claim) (doc : Members) : Prop where
  id : doc.lookup "claim_id" = some (ofUuid c.id)
  value : doc.lookup "value" = some c.value.toJson
  grade : doc.lookup "claim_grade" = some (ofLabel c.grade)
  verdict : doc.lookup "claim_verdict" = some (ofLabel c.verdict)
  action : doc.lookup "claim_action" = some (ofLabel c.action)
  isBound : doc.lookup "ic_bound" = some (.bool c.isBound)
  sanad : doc.lookup "sanad_id" = some (ofOption ofUuid c.sanad)
  span : doc.lookup "primary_span_id" = some (ofOption .str c.span)

theorem exists_writtenAs (c : Claim) : ∃ doc, c.toJson = .obj doc ∧ c.WrittenAs doc := by
  obtain ⟨doc, hdoc, hmember⟩ := exists_object _
  exact ⟨doc, hdoc, hmember _, hmember _, hmember _, hmember _, hmember _, hmember _, hmember _,
    hmember _⟩

theorem shows_of_writtenAs (hw : c.WrittenAs doc) : Shows doc c where
  grade := labelled_value_eq_some_iff.mpr (holds_names_ofLabel hw.grade)
  verdict := labelled_value_eq_some_iff.mpr (holds_names_ofLabel hw.verdict)
  action := labelled_value_eq_some_iff.mpr (holds_names_ofLabel hw.action)
  isBound := by
    rw [field?_value, present?_eq_some_iff.mpr ⟨hw.isBound, by simp⟩]
    rfl
  sanad := by
    rw [uuid?, field?_value, present?_ofOption hw.sanad ofUuid_ne_null]
    cases c.sanad with
    | none => rfl
    | some u => exact checkUuid_value_eq_some_iff.mpr ⟨_, rfl, u.ofString?_toString⟩
  span := by
    rw [field?_value, present?_ofOption hw.span str_ne_null]
    cases c.span <;> rfl

/-- The issues of a claim that is written are the rules that it breaks. -/
theorem errors_validate_toJson (c : Claim) :
    (validate c.toJson).errors = c.brokenRules.map ClaimRule.issue := by
  obtain ⟨doc, hdoc, hw⟩ := c.exists_writtenAs
  have hbound : (field doc "ic_bound" "" false (checkBool "ic_bound")).issues = [] :=
    field?_issues_eq_nil_iff.mpr (.of_lookup hw.isBound rfl)
  have hspan : (field doc "primary_span_id" "" false checkSpan).issues = [] :=
    field?_issues_eq_nil_iff.mpr (mayHold_ofOption hw.span str_ne_null fun _ _ => rfl)
  rw [hdoc, validate, Report.ofIssues]
  simp only [memberIssues, uuid_issues_eq_nil_iff.mpr (holds_ofUuid hw.id),
    labelled_issues_eq_nil_iff.mpr (holds_ofLabel hw.grade),
    labelled_issues_eq_nil_iff.mpr (holds_ofLabel hw.verdict),
    labelled_issues_eq_nil_iff.mpr (holds_ofLabel hw.action), hbound, hspan,
    uuid?_issues_eq_nil_iff.mpr (mayHold_isUuid_ofOption hw.sanad), List.nil_append]
  exact (shows_of_writtenAs hw).ruleIssues_eq

/-- A claim is read back from what is written of it. -/
theorem decode_toJson (c : Claim) : Json.decode decode c.toJson = .ok c := by
  refine decode_object layout fun hf hmember => ?_
  simp only [bind_eq_ok_iff]
  exact ⟨_, required_of_lookup hf (by decide) (hmember _) (decode_ofLabel _),
    _, required_of_lookup hf (by decide) (hmember _) (decode_ofLabel _),
    _, required_of_lookup hf (by decide) (hmember _) (decode_ofUuid _),
    _, required_of_lookup hf (by decide) (hmember _) (decode_ofLabel _),
    _, orElse_of_lookup hf (by decide) (hmember _) (decode_bool _),
    _, option_ofOption (hmember _) str_ne_null hf (by decide) decode_str,
    _, option_ofOption (hmember _) ofUuid_ne_null hf (by decide) decode_ofUuid,
    _, orElse_of_lookup hf (by decide) (hmember _) (decode_json _), rfl⟩

/-! ## Claims that are accepted -/

theorem passed_eq (x : Json) : (validate x).passed = (validate x).errors.isEmpty := by
  cases x <;> rfl

theorem parse_eq_ok_iff :
    parse x = .ok c ↔ (validate x).passed = true ∧ Json.decode decode x = .ok c := by
  unfold parse Report.accepted
  cases (validate x).passed with
  | false => simp [bind, Except.bind]
  | true => cases Json.decode decode x <;> simp [bind, Except.bind]

/-- The checks of a document and the rules of a claim agree. The codes of a claim that is written
are those of the rules it breaks, in their order. A claim that was accepted breaks none, and it is
accepted again from what is written of it. -/
theorem rules_agree :
    (∀ c : Claim, (validate c.toJson).codes = c.brokenRules.map ClaimRule.code) ∧
      ∀ x c, parse x = .ok c → c.brokenRules = [] ∧ parse c.toJson = .ok c := by
  refine ⟨fun c => ?_, fun x c h => ?_⟩
  · rw [Report.codes, errors_validate_toJson, List.map_map]
    rfl
  · obtain ⟨hpassed, hread⟩ := parse_eq_ok_iff.mp h
    obtain ⟨doc, rfl, hnil⟩ := passed_iff_memberIssues.mp hpassed
    have hbroken : c.brokenRules = [] := by
      simp only [memberIssues, List.append_eq_nil_iff] at hnil
      rw [← List.map_eq_nil_iff, ← (shows_of_decode hread).ruleIssues_eq]
      exact hnil.2
    refine ⟨hbroken, parse_eq_ok_iff.mpr ⟨?_, c.decode_toJson⟩⟩
    rw [passed_eq, errors_validate_toJson, hbroken]
    rfl

/-- A bound claim that names a span and does not speak of a sanad. -/
def spanOnly : Json :=
  .obj [("claim_action", .obj [("NONE", .null)]), ("claim_grade", .str "B"),
    ("claim_id", .str "FFFFFFFF-FFFF-FFFF-FFFF-FFFFFFFFFFFF"), ("claim_verdict", .str "VERIFIED"),
    ("ic_bound", .bool true), ("primary_span_id", .str "page 3"),
    ("value", .arr [.num (.int 5), .null])]

theorem rules_agree_spanOnly :
    ∃ c, parse spanOnly = .ok c ∧ c.isBound = true ∧ c.sanad = none ∧ c.brokenRules = [] ∧
      parse c.toJson = .ok c := by
  obtain ⟨c, hc, hp⟩ := exists_of_any_toOption (x := parse spanOnly)
    (p := fun c => c.isBound && c.sanad = none) (by decide +kernel)
  obtain ⟨hbound, hsanad⟩ := Bool.and_eq_true_iff.mp hp
  exact ⟨c, hc, hbound, of_decide_eq_true hsanad, rules_agree.2 _ c hc⟩

end Isnad.Claim
