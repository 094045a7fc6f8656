import Isnad.Command
import Isnad.Proofs.Debate.Release
import Isnad.Proofs.Debate.Script
import Isnad.Proofs.Gate.Batch
import Isnad.Proofs.Grading.OnFile
import Isnad.Proofs.RoundTrip
import Isnad.Proofs.Sanad.Regraded
import Isnad.Proofs.Sanad.Spelling

/-!
# What commands refuse

A command turns whatever its stages say into a report, or into an error where there is nothing to
report on. Each command is followed through its stages, from a file that can be read on. Together:
a report speaks of no failure exactly if the input is accepted (`run_reports`).
-/

namespace Isnad

open Json

/-- A sanad is rejected for what its checks found, or if they found nothing, for what its decoder
did not accept. -/
theorem Sanad.errors_of_parse {doc : Json} {r : Rejection} (h : parse doc = .error r) :
    (validate doc).passed = false ∧ r.errors = (validate doc).errors ∨
      (validate doc).passed = true ∧ ∃ e, Json.decode decode doc = .error e ∧
        r.errors = [⟨.invalidDocument, e.message, "$"⟩] := by
  rcases bind_eq_error_iff.mp h with haccepted | ⟨report, haccepted, hdecoded⟩
  · rw [Report.accepted] at haccepted
    split at haccepted
    · cases haccepted
    · rename_i hpassed
      cases haccepted
      exact .inl ⟨Bool.not_eq_true _ ▸ hpassed, rfl⟩
  · rw [Report.accepted] at haccepted
    split at haccepted
    · rename_i hpassed
      cases hd : Json.decode decode doc with
      | ok s =>
        rw [hd] at hdecoded
        cases hdecoded
      | error e =>
        rw [hd] at hdecoded
        cases hdecoded
        exact .inr ⟨hpassed, e, rfl, rfl⟩
    · cases haccepted

namespace Command

variable {settings : Settings} {clock : Nat → Timestamp} {f : File} {doc : OrderedJson}

/-! ## The gate -/

theorem gateReport_evaluateBatch (t : Gate.Thresholds) (inputs : List Gate.Input) :
    gateReport (t.evaluateBatch inputs) =
      ⟨(t.evaluateBatch inputs).toJson,
        if ∀ i ∈ inputs, (t.evaluate i).isAllowed = true then none
        else some (toString (inputs.countP fun i => (t.evaluate i).isBlocked) ++ " of " ++
          toString inputs.length ++ " inputs blocked")⟩ := by
  have htotal : (t.evaluateBatch inputs).total = inputs.length := by
    rw [Gate.Batch.total, ← List.length_append, (Gate.sides_evaluateBatch_perm t inputs).length_eq,
      List.length_map]
  have hblocked : (t.evaluateBatch inputs).blocked.length =
      inputs.countP fun i => (t.evaluate i).isBlocked := by
    rw [Gate.evaluateBatch_eq, ← List.countP_eq_length_filter, List.countP_map]
    rfl
  have hall : (t.evaluateBatch inputs).isAllAllowed = true ↔
      ∀ i ∈ inputs, (t.evaluate i).isAllowed = true := by
    rw [Gate.Batch.isAllAllowed, List.isEmpty_iff_length_eq_zero, hblocked, List.countP_eq_zero]
    simp [Gate.Decision.isBlocked]
  rw [gateReport, htotal, hblocked]
  simp only [hall]

theorem run_gate {inputs : List Gate.Input}
    (h : readJson (.list Gate.Input.decode) f = .ok inputs) :
    run settings clock (.gate f) = .ok (gateReport (settings.gate.evaluateBatch inputs)) := by
  rw [run, h]
  rfl

/-! ## Validation -/

theorem run_validateSanad (h : readJson .json f = .ok doc) :
    run settings clock (.validateSanad f) =
      .ok (validationReport "sanad" (Sanad.validate doc.toJson)) := by
  rw [run, h]
  rfl

theorem run_validateClaim (h : readJson .json f = .ok doc) :
    run settings clock (.validateClaim f) =
      .ok (validationReport "claim" (Claim.validate doc.toJson)) := by
  rw [run, h]
  rfl

/-! ## Debates -/

section Debates

open Debate

variable {play : Play} {s : State} {e : Debate.Error}

/-- The setting in which a play is played. -/
def Play.setting (play : Play) (config : Config) (clock : Nat → Timestamp) : Setting Unit :=
  play.script.setting play.context config clock

/-- How a play goes from its start to its end. -/
def Play.result (play : Play) (config : Config) (clock : Nat → Timestamp) :
    Except Debate.Error State :=
  ((play.setting config clock).run (.fresh play.context.id (clock 0)) ()).1

theorem run_debate (h : readJson Play.decode f = .ok play) :
    run settings clock (.debate f) =
      match play.result settings.debate clock with
      | .ok s => .ok (debateReport (.ofState s))
      | .error e => .error (.debate e) := by
  rw [run, h]
  rfl

/-- A play fails only where a role has nothing to say. -/
theorem Play.exists_runner_of_result {config : Config} (h : play.result config clock = .error e) :
    ∃ cause, e = .runner cause := by
  rw [result, setting] at h
  cases hsilent : play.script.firstSilent? with
  | some role =>
    rw [Script.run_of_firstSilent? hsilent] at h
    cases h
    exact ⟨_, rfl⟩
  | none =>
    obtain ⟨n, s, hrounds, hstopped⟩ := Script.exists_rounds play.context config clock hsilent
      play.context.id (clock 0)
    rw [Setting.run_eq_ok_iff.mpr ⟨hstopped, n, hrounds⟩] at h
    cases h

/-- The report on a play that came to its end. -/
theorem Play.debateReport_of_result {config : Config} (h : play.result config clock = .ok s) :
    ∃ why, debateReport (.ofState s) = ⟨(Outcome.ofState s).toJson,
      if ∀ l ∈ s.log, config.policy.passes l.output.account = true then none else some why⟩ := by
  obtain ⟨hstopped, n, hrounds⟩ := Setting.run_eq_ok_iff.mp (Prod.ext h rfl)
  obtain ⟨reason, hreason⟩ := Option.isSome_iff_exists.mp hstopped
  have hsound : s.firstFailure? = none ↔
      ∀ l ∈ s.log, config.policy.passes l.output.account = true := by
    simp only [Policy.passes_iff]
    exact hrounds.isFaithful.firstFailure?_eq_none_iff
  rw [debateReport, Outcome.deliverable, Outcome.ofState, hreason]
  simp only [← hsound]
  cases s.firstFailure? with
  | none => exact ⟨"", rfl⟩
  | some failure => exact ⟨(Undeliverable.failed failure).message, rfl⟩

end Debates

/-! ## Grades -/

section Grades

variable {evidence : File} {s : Sanad} {items : List Evidence}

theorem run_grade_of_error {r : Rejection} (h : readJson .json f = .ok doc)
    (hparse : Sanad.parse doc.toJson = .error r) :
    run settings clock (.grade f evidence) =
      .ok ⟨object [("errors", ofList Issue.toJson r.errors)], some r.message⟩ := by
  simp only [run, gradeReport, h, hparse, bind, Except.bind]
  rfl

theorem run_grade_of_ok (h : readJson .json f = .ok doc) (hparse : Sanad.parse doc.toJson = .ok s)
    (hitems : readJson (.list Evidence.decode) evidence = .ok items) :
    run settings clock (.grade f evidence) =
      match Grading.gradeFrom (.ofList items) s with
      | .ok r => .ok ⟨r.toJson, none⟩
      | .error e => .error (.grading s.id e) := by
  simp only [run, gradeReport, h, hparse, hitems, bind, Except.bind]
  rfl

theorem run_grade_of_references (h : readJson .json f = .ok doc)
    (hparse : Sanad.parse doc.toJson = .ok s)
    (hitems : readJson (.list Evidence.decode) evidence = .ok items)
    (hall : ∀ id ∈ s.references, ∃ e ∈ items, e.id = id) :
    ∃ p cs, Evidence.IsLastOf items s.primary p ∧
      List.Forall₂ (Evidence.IsLastOf items) s.corroborators cs ∧
      run settings clock (.grade f evidence) =
        .ok ⟨(Grading.grade s (some p) cs).toJson, none⟩ := by
  obtain ⟨r, hr⟩ := Grading.gradeFrom_isOk_iff.mpr hall
  obtain ⟨p, cs, hp, hcs, rfl⟩ := Grading.gradeFrom_eq_ok_iff.mp hr
  exact ⟨p, cs, hp, hcs, by rw [run_grade_of_ok h hparse hitems, hr]⟩

theorem run_grade_of_missing (h : readJson .json f = .ok doc)
    (hparse : Sanad.parse doc.toJson = .ok s)
    (hitems : readJson (.list Evidence.decode) evidence = .ok items)
    (hmissing : ¬ ∀ id ∈ s.references, ∃ e ∈ items, e.id = id) :
    ∃ c, run settings clock (.grade f evidence) = .error (.grading s.id c) ∧ c.sanad = s.id ∧
      c.evidence ∈ s.references ∧ ∀ e ∈ items, e.id ≠ c.evidence := by
  cases hgrade : Grading.gradeFrom (.ofList items) s with
  | ok r => exact absurd (Grading.gradeFrom_isOk_iff.mp ⟨r, hgrade⟩) hmissing
  | error c =>
    exact ⟨c, by rw [run_grade_of_ok h hparse hitems, hgrade], Grading.missing_of_gradeFrom hgrade⟩

/-- A grade is reported exactly for a sanad that is accepted and whose evidence is all on file. -/
theorem run_grade_passes_iff (h : readJson .json f = .ok doc)
    (hitems : readJson (.list Evidence.decode) evidence = .ok items) :
    (∃ body, run settings clock (.grade f evidence) = .ok ⟨body, none⟩) ↔
      ∃ s, Sanad.parse doc.toJson = .ok s ∧ ∀ id ∈ s.references, ∃ e ∈ items, e.id = id := by
  constructor
  · rintro ⟨body, hrun⟩
    cases hparse : Sanad.parse doc.toJson with
    | error r =>
      rw [run_grade_of_error h hparse] at hrun
      cases hrun
    | ok s =>
      refine ⟨s, rfl, ?_⟩
      by_contra hmissing
      obtain ⟨c, hc, -⟩ := run_grade_of_missing h hparse hitems hmissing
      rw [hc] at hrun
      cases hrun
  · rintro ⟨s, hparse, hall⟩
    obtain ⟨p, cs, -, -, hrun⟩ := run_grade_of_references h hparse hitems hall
    exact ⟨_, hrun⟩

end Grades

/-! ## All commands -/

/-- Reports tell accepted input from the rest, whatever the settings and the clock. That on a gate
speaks of no failure if every input is allowed, and else of how many are blocked; that on a document
if it passes its checks, and else of how many errors it has; that on a debate if every account that
was logged kept the rules. A debate that does not come to its end fails for a role that said
nothing. The grade of a sanad is that by the last evidence of each identifier. There is an error if
evidence is missing. A sanad that is rejected is reported with its issues, whatever is said to be
evidence. -/
theorem run_reports (settings : Settings) (clock : Nat → Timestamp) :
    (∀ f inputs, readJson (.list Gate.Input.decode) f = .ok inputs →
      run settings clock (.gate f) = .ok ⟨(settings.gate.evaluateBatch inputs).toJson,
        if ∀ i ∈ inputs, (settings.gate.evaluate i).isAllowed = true then none
        else some (toString (inputs.countP fun i => (settings.gate.evaluate i).isBlocked) ++
          " of " ++ toString inputs.length ++ " inputs blocked")⟩) ∧
    (∀ f doc, readJson .json f = .ok doc →
      run settings clock (.validateSanad f) = .ok ⟨(Sanad.validate doc.toJson).toJson,
        if (Sanad.validate doc.toJson).passed = true then none
        else some ("sanad failed validation with " ++
          toString (Sanad.validate doc.toJson).errors.length ++ " error(s)")⟩ ∧
      run settings clock (.validateClaim f) = .ok ⟨(Claim.validate doc.toJson).toJson,
        if (Claim.validate doc.toJson).passed = true then none
        else some ("claim failed validation with " ++
          toString (Claim.validate doc.toJson).errors.length ++ " error(s)")⟩) ∧
    (∀ f play, readJson Play.decode f = .ok play →
      (∀ s, play.result settings.debate clock = .ok s →
        ∃ why, run settings clock (.debate f) = .ok ⟨(Debate.Outcome.ofState s).toJson,
          if ∀ l ∈ s.log, settings.debate.policy.passes l.output.account = true then none
          else some why⟩) ∧
      ∀ e, play.result settings.debate clock = .error e →
        (∃ cause, e = .runner cause) ∧ run settings clock (.debate f) = .error (.debate e)) ∧
    ∀ f doc evidence, readJson .json f = .ok doc →
      (∀ r, Sanad.parse doc.toJson = .error r →
        run settings clock (.grade f evidence) =
            .ok ⟨object [("errors", ofList Issue.toJson r.errors)], some r.message⟩ ∧
          ((Sanad.validate doc.toJson).passed = false ∧
              r.errors = (Sanad.validate doc.toJson).errors ∨
            (Sanad.validate doc.toJson).passed = true ∧
              ∃ e, Json.decode Sanad.decode doc.toJson = .error e ∧
                r.errors = [⟨.invalidDocument, e.message, "$"⟩])) ∧
      ∀ items, readJson (.list Evidence.decode) evidence = .ok items →
        ((∃ body, run settings clock (.grade f evidence) = .ok ⟨body, none⟩) ↔
          ∃ s, Sanad.parse doc.toJson = .ok s ∧ ∀ id ∈ s.references, ∃ e ∈ items, e.id = id) ∧
        ∀ s, Sanad.parse doc.toJson = .ok s →
          ((∀ id ∈ s.references, ∃ e ∈ items, e.id = id) →
            ∃ p cs, Evidence.IsLastOf items s.primary p ∧
              List.Forall₂ (Evidence.IsLastOf items) s.corroborators cs ∧
              run settings clock (.grade f evidence) =
                .ok ⟨(Grading.grade s (some p) cs).toJson, none⟩) ∧
          ((¬ ∀ id ∈ s.references, ∃ e ∈ items, e.id = id) →
            ∃ c, run settings clock (.grade f evidence) = .error (.grading s.id c) ∧
              c.sanad = s.id ∧ c.evidence ∈ s.references ∧ ∀ e ∈ items, e.id ≠ c.evidence) := by
  refine ⟨fun f inputs h => ?_, fun f doc h => ⟨run_validateSanad h, run_validateClaim h⟩,
    fun f play h => ⟨fun s hresult => ?_, fun e hresult => ?_⟩, fun f doc evidence h => ⟨?_, ?_⟩⟩
  · rw [run_gate h, gateReport_evaluateBatch]
  · obtain ⟨why, hwhy⟩ := Play.debateReport_of_result hresult
    exact ⟨why, by rw [run_debate h, hresult, ← hwhy]⟩
  · exact ⟨Play.exists_runner_of_result hresult, by rw [run_debate h, hresult]⟩
  · exact fun r hparse => ⟨run_grade_of_error h hparse, Sanad.errors_of_parse hparse⟩
  · exact fun items hitems => ⟨run_grade_passes_iff h hitems, fun s hparse =>
      ⟨run_grade_of_references h hparse hitems, run_grade_of_missing h hparse hitems⟩⟩

/-! ### Some files -/

/-- A claim without scores. -/
def unscored : File := ⟨"gate.json", some "[[\"c-1\"]]"⟩

/-- No document, and no evidence. -/
def emptyList : File := ⟨"list.json", some "[]"⟩

/-- A debate in which everyone says little. -/
def brief : File where
  name := "debate.json"
  text := some ("[[\"d-1\",\"memo\"],[[\"ADVOCATE\",\"\",[\"\"],[\"0\",[\"c\"]]]," ++
    "[\"SANAD_BREAKER\",\"\",[\"\"],[\"0\",[\"c\"]]]," ++
    "[\"CONTRADICTION_FINDER\",\"\",[\"\"],[\"0\",[\"c\"]]]," ++
    "[\"RISK_OFFICER\",\"\",[\"\"],[\"0\",[\"c\"]]]," ++
    "[\"ARBITER\",\"\",[\"\"],[\"0\",[\"c\"]]]]]")

/-- The sanad of one node. -/
def circularDocument : OrderedJson := ⟨Grading.circular.toJson, by decide +kernel⟩

def circularFile : File := ⟨"sanad.json", some Grading.circular.toJson.compact⟩

/-- Two records of one item, of which the second counts. -/
def corrected : List Evidence := [{ Grading.undisclosed with grade := .d }, Grading.undisclosed]

def correctedFile : File := ⟨"evidence.json", some (ofList Evidence.toJson corrected).compact⟩

theorem readJson_circularFile : readJson .json circularFile = .ok circularDocument := by
  have htext : Grading.circular.toJson.TextHolds .json circularDocument :=
    textHolds_of_isReadable (Sanad.isReadable_toJson _ (by decide))
      (Document.decode_json circularDocument)
  exact htext "sanad.json"

theorem parse_circular : Sanad.parse Grading.circular.toJson = .ok Grading.circular :=
  Sanad.parse_eq_ok_iff.mpr ⟨by decide +kernel, Sanad.decode_toJson (by decide +kernel)⟩

theorem readJson_correctedFile :
    readJson (.list Evidence.decode) correctedFile = .ok corrected := by
  have htext : (ofList Evidence.toJson corrected).TextHolds (.list Evidence.decode) corrected :=
    textHolds_of_isReadable
      (isReadable_ofList (by decide) fun e => Evidence.isReadable_toJson e (by decide))
      (Document.decode_ofList Evidence.decode_toJson)
  exact htext "evidence.json"

theorem exists_result_brief :
    ∃ play s, readJson Play.decode brief = .ok play ∧
      play.result Settings.standard.debate Debate.Setting.oneQuestion.clock = .ok s ∧
      ∀ l ∈ s.log, Settings.standard.debate.policy.passes l.output.account = true := by
  obtain ⟨play, hplay, hpasses⟩ := exists_of_any_toOption (x := readJson Play.decode brief)
    (p := fun play =>
      (play.result Settings.standard.debate Debate.Setting.oneQuestion.clock).toOption.any
        fun s => s.log.all fun l => Settings.standard.debate.policy.passes l.output.account)
    (by decide +kernel)
  obtain ⟨s, hs, hall⟩ := exists_of_any_toOption hpasses
  exact ⟨play, s, hplay, hs, List.all_eq_true.mp hall⟩

theorem run_reports_files :
    (∃ body why, run .standard Debate.Setting.oneQuestion.clock (.gate unscored) =
      .ok ⟨body, some why⟩) ∧
    (∃ body why, run .standard Debate.Setting.oneQuestion.clock (.validateSanad emptyList) =
      .ok ⟨body, some why⟩) ∧
    (∃ body, run .standard Debate.Setting.oneQuestion.clock (.debate brief) = .ok ⟨body, none⟩) ∧
    (∃ body why, run .standard Debate.Setting.oneQuestion.clock (.grade emptyList unscored) =
      .ok ⟨body, some why⟩) ∧
    run .standard Debate.Setting.oneQuestion.clock (.grade circularFile correctedFile) =
      .ok ⟨(Grading.grade Grading.circular (some Grading.undisclosed) []).toJson, none⟩ ∧
    ∃ c, run .standard Debate.Setting.oneQuestion.clock (.grade circularFile emptyList) =
      .error (.grading Grading.circular.id c) := by
  obtain ⟨hgate, hvalidate, hdebate, hgrade⟩ :=
    run_reports .standard Debate.Setting.oneQuestion.clock
  have hempty : readJson .json emptyList = .ok ⟨.arr [], .arr (by simp)⟩ := by decide +kernel
  refine ⟨?_, ?_, ?_, ?_, ?_, ?_⟩
  · have hinputs : readJson (.list Gate.Input.decode) unscored =
        .ok [⟨"c-1", none, none, false, none⟩] := by decide +kernel
    rw [hgate unscored _ hinputs, if_neg (by decide +kernel)]
    exact ⟨_, _, rfl⟩
  · rw [(hvalidate emptyList _ hempty).1, if_neg (by decide +kernel)]
    exact ⟨_, _, rfl⟩
  · obtain ⟨play, s, hplay, hs, hall⟩ := exists_result_brief
    obtain ⟨why, hrun⟩ := (hdebate brief play hplay).1 s hs
    rw [hrun, if_pos hall]
    exact ⟨_, rfl⟩
  · cases hrejected : Sanad.parse (.arr []) with
    | ok s => cases hrejected
    | error r => exact ⟨_, _, ((hgrade emptyList _ unscored hempty).1 r hrejected).1⟩
  · have hall : ∀ id ∈ Grading.circular.references, ∃ e ∈ corrected, e.id = id := by decide
    obtain ⟨p, cs, hp, hcs, hrun⟩ := (((hgrade circularFile _ correctedFile
      readJson_circularFile).2 corrected readJson_correctedFile).2 _ parse_circular).1 hall
    have hlast : Evidence.IsLastOf corrected Grading.circular.primary Grading.undisclosed :=
      ⟨rfl, [_], [], rfl, fun _ hx => absurd hx List.not_mem_nil⟩
    rw [← EvidenceStore.get?_ofList_eq_some_iff] at hp hlast
    obtain rfl := Option.some.inj (hp.symm.trans hlast)
    cases hcs
    exact hrun
  · obtain ⟨c, hrun, -⟩ := (((hgrade circularFile _ emptyList readJson_circularFile).2 []
      (by decide +kernel)).2 _ parse_circular).2 (by decide)
    exact ⟨c, hrun⟩

end Command
end Isnad
