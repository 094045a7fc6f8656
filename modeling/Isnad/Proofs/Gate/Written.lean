import Isnad.Gate.Decision
import Isnad.Proofs.Json.Source

/-!
# The gate and the scores as they are written

The gate compares decimals that were read from a text, and reading rounds. A score that is written
below its threshold is admitted if it is read as one that reaches it. So whatever is admitted was
written as high as its thresholds exactly for the texts no score of which is rounded up
(`admitsAsWritten_iff`), and texts whose numerals are read exactly are among these.
-/

namespace Isnad.Gate

open Json

variable {text name : String} {i : Input} {t : Thresholds}

/-- The input that a text holds. -/
def Input.ofString? (s : String) : Option Input := do
  (Input.decode (← Written.ofString? s)).toOption

/-- What a text has for a field of an input, with all its digits. -/
def field? (text name : String) : Option (Source Reader.Numeral) := do
  (← (Input.layout.read (← Source.ofString? text)).toOption).entries.lookup name

/-- The number that a text writes for a score. -/
def written? (text name : String) : Option ℚ :=
  ((field? text name).bind Source.literal?).map Literal.value

/-- The number written for a score reaches the threshold, and is not above one. -/
def Reaches (text name : String) (threshold : Decimal) : Prop :=
  ∃ q, written? text name = some q ∧ threshold.toRat ≤ q ∧ q ≤ 1

/-- Whatever the thresholds, the written scores of a text that is admitted reach them. -/
def AdmitsAsWritten (text : String) (i : Input) : Prop :=
  ∀ t : Thresholds, t.minConfidence.inUnitInterval = true → t.minDhabt.inUnitInterval = true →
    (t.evaluate i).verdict = .allowed false →
      Reaches text "extraction_confidence" t.minConfidence ∧ Reaches text "dhabt_score" t.minDhabt

/-- Two scores of the unit interval are judged by the gate. -/
def IsJudged (i : Input) (confidence dhabt : Decimal) : Prop :=
  i.hasHumanVerification = false ∧ i.confidence = some confidence ∧ i.dhabt = some dhabt ∧
    confidence.inUnitInterval = true ∧ dhabt.inUnitInterval = true

/-- The score is read as no more than what is written for it, and that is not above one. -/
def NotRoundedUp (text name : String) (score : Decimal) : Prop :=
  ∀ q, written? text name = some q → score.toRat ≤ q ∧ q ≤ 1

/-- The scores are written in numerals that are read exactly. -/
def IsExactlyWritten (text : String) : Prop :=
  ∀ name ∈ ["extraction_confidence", "dhabt_score"], ∀ x ∈ field? text name, x.IsExact

instance (text : String) : Decidable (IsExactlyWritten text) :=
  inferInstanceAs (Decidable (∀ name ∈ _, ∀ x ∈ field? text name, x.IsExact))

/-! ## Verdicts -/

theorem scoreVerdict_eq_allowed_iff {confidence dhabt : Decimal} :
    t.scoreVerdict (some confidence) (some dhabt) = .allowed false ↔
      confidence.inUnitInterval = true ∧ dhabt.inUnitInterval = true ∧
        t.minConfidence ≤ confidence ∧ t.minDhabt ≤ dhabt := by
  simp only [Thresholds.scoreVerdict, ← Decimal.not_lt]
  cases confidence.inUnitInterval with
  | false => simp
  | true =>
    cases dhabt.inUnitInterval with
    | false => simp
    | true =>
      by_cases hconfidence : confidence < t.minConfidence
      · simp [hconfidence]
      · by_cases hdhabt : dhabt < t.minDhabt
        · simp [hconfidence, hdhabt]
        · simp [hconfidence, hdhabt]

theorem verdict_eq_allowed_iff :
    t.verdict i = .allowed false ↔
      ∃ confidence dhabt, IsJudged i confidence dhabt ∧
        t.minConfidence ≤ confidence ∧ t.minDhabt ≤ dhabt := by
  unfold Thresholds.verdict IsJudged
  cases i.hasHumanVerification with
  | true => simp
  | false =>
    rw [if_neg (by decide)]
    cases i.confidence with
    | none => simp [Thresholds.scoreVerdict]
    | some c =>
      cases i.dhabt with
      | none => simp [Thresholds.scoreVerdict]
      | some d =>
        rw [scoreVerdict_eq_allowed_iff]
        constructor
        · rintro ⟨hc, hd, hminc, hmind⟩
          exact ⟨c, d, ⟨rfl, rfl, rfl, hc, hd⟩, hminc, hmind⟩
        · rintro ⟨c', d', ⟨-, hc', hd', hc, hd⟩, hminc, hmind⟩
          obtain rfl := Option.some.inj hc'
          obtain rfl := Option.some.inj hd'
          exact ⟨hc, hd, hminc, hmind⟩

/-! ## Scores of texts -/

/-- A score that was read is written, and what is written was read if it is exact. -/
theorem exists_written {w : Written} {f : Fields Number} {r : Decimal}
    (hw : Written.ofString? text = some w) (hf : Input.layout.read w = .ok f)
    (hr : f.option name .decimal = .ok (some r)) :
    ∃ x q, field? text name = some x ∧ written? text name = some q ∧
      (x.IsExact → r.toRat = q) := by
  obtain ⟨src, hsrc, rfl⟩ := Option.map_eq_some_iff.mp hw
  obtain ⟨g, hg, hentries⟩ := Layout.read_numbers hf
  rw [Fields.option_eq_ok_iff, hentries, memberNumbers_eq_map, lookup_map] at hr
  have hfield : field? text name = g.entries.lookup name := by
    simp [field?, hsrc, hg, Except.toOption]
  cases hx : g.entries.lookup name with
  | none => simp [hx] at hr
  | some x =>
    rw [hx] at hr hfield
    have hread : ∃ a, some r = some a ∧ Decoder.decimal (Reader.numbers x) = .ok a := by
      cases hn : Reader.numbers x with
      | null => simp [hn] at hr
      | _ => simpa [hn] using hr
    obtain ⟨a, ha, hdecimal⟩ := hread
    obtain rfl := Option.some.inj ha
    obtain ⟨l, hl, hexact⟩ := exists_literal_of_decimal hdecimal
    refine ⟨x, l.value, hfield, ?_, hexact⟩
    simp [written?, hfield, hl]

theorem fields_of_ofString? (h : Input.ofString? text = some i) :
    ∃ w f, Written.ofString? text = some w ∧ Input.layout.read w = .ok f ∧
      f.option "extraction_confidence" .decimal = .ok i.confidence ∧
      f.option "dhabt_score" .decimal = .ok i.dhabt := by
  obtain ⟨w, hw, hdecode⟩ := Option.bind_eq_some_iff.mp h
  cases hi : Input.decode w with
  | error e =>
    rw [hi] at hdecode
    cases hdecode
  | ok i' =>
    rw [hi] at hdecode
    obtain rfl := Option.some.inj hdecode
    simp only [Input.decode, bind_eq_ok_iff] at hi
    obtain ⟨f, hf, _, -, dhabt, hdhabt, confidence, hconfidence, _, -, _, -, hi⟩ := hi
    obtain rfl := Except.ok.inj hi
    exact ⟨w, f, hw, hf, hconfidence, hdhabt⟩

/-! ## Admission -/

theorem reaches_of_notRoundedUp {threshold score : Decimal} {q : ℚ}
    (hq : written? text name = some q) (h : NotRoundedUp text name score)
    (ht : threshold ≤ score) : Reaches text name threshold := by
  obtain ⟨hle, hone⟩ := h q hq
  exact ⟨q, hq, (Decimal.le_iff_toRat.mp ht).trans hle, hone⟩

theorem notRoundedUp_of_reaches {score : Decimal} (h : Reaches text name score) :
    NotRoundedUp text name score := by
  obtain ⟨q, hq, hle, hone⟩ := h
  intro q' hq'
  obtain rfl := Option.some.inj (hq.symm.trans hq')
  exact ⟨hle, hone⟩

theorem notRoundedUp_of_eq {score : Decimal} {q : ℚ} (hq : written? text name = some q)
    (heq : score.toRat = q) (hscore : score.inUnitInterval = true) :
    NotRoundedUp text name score := by
  intro q' hq'
  obtain rfl := Option.some.inj (hq.symm.trans hq')
  exact ⟨heq.le, heq ▸ (Decimal.inUnitInterval_iff_toRat.mp hscore).2⟩

/-- The texts that are admitted only as high as they are written are those no judged score of which
is rounded up. Texts in numerals that are read exactly are such. -/
theorem admitsAsWritten_iff (h : Input.ofString? text = some i) :
    (AdmitsAsWritten text i ↔ ∀ confidence dhabt, IsJudged i confidence dhabt →
      NotRoundedUp text "extraction_confidence" confidence ∧
        NotRoundedUp text "dhabt_score" dhabt) ∧
    (IsExactlyWritten text → AdmitsAsWritten text i) := by
  obtain ⟨w, f, hw, hf, hconfidence, hdhabt⟩ := fields_of_ofString? h
  have hiff : AdmitsAsWritten text i ↔ ∀ confidence dhabt, IsJudged i confidence dhabt →
      NotRoundedUp text "extraction_confidence" confidence ∧
        NotRoundedUp text "dhabt_score" dhabt := by
    constructor
    · intro hadmits c d hjudged
      -- the scores themselves are thresholds at which they are admitted
      have hverdict : (Thresholds.evaluate ⟨c, d⟩ i).verdict = .allowed false :=
        verdict_eq_allowed_iff.mpr ⟨c, d, hjudged, Decimal.le_refl c, Decimal.le_refl d⟩
      obtain ⟨-, -, -, hc, hd⟩ := hjudged
      obtain ⟨hrc, hrd⟩ := hadmits ⟨c, d⟩ hc hd hverdict
      exact ⟨notRoundedUp_of_reaches hrc, notRoundedUp_of_reaches hrd⟩
    · rintro hrounded t - - hverdict
      obtain ⟨c, d, hjudged, hminc, hmind⟩ := verdict_eq_allowed_iff.mp hverdict
      obtain ⟨hrc, hrd⟩ := hrounded c d hjudged
      obtain ⟨-, hc, hd, -, -⟩ := hjudged
      rw [hc] at hconfidence
      rw [hd] at hdhabt
      obtain ⟨-, q, -, hq, -⟩ := exists_written hw hf hconfidence
      obtain ⟨-, q', -, hq', -⟩ := exists_written hw hf hdhabt
      exact ⟨reaches_of_notRoundedUp hq hrc hminc, reaches_of_notRoundedUp hq' hrd hmind⟩
  refine ⟨hiff, fun hexact => hiff.mpr ?_⟩
  rintro c d ⟨-, hc, hd, hunitc, hunitd⟩
  rw [hc] at hconfidence
  rw [hd] at hdhabt
  obtain ⟨x, q, hx, hq, hread⟩ := exists_written hw hf hconfidence
  obtain ⟨x', q', hx', hq', hread'⟩ := exists_written hw hf hdhabt
  have hxe := hexact "extraction_confidence" (by simp) x hx
  have hxe' := hexact "dhabt_score" (by simp) x' hx'
  exact ⟨notRoundedUp_of_eq hq (hread hxe) hunitc, notRoundedUp_of_eq hq' (hread' hxe') hunitd⟩

/-- A text with two scores. -/
def scoresText (confidence dhabt : String) : String :=
  "\x7b\"claim_id\": \"c\", \"extraction_confidence\": " ++ confidence ++
    ", \"dhabt_score\": " ++ dhabt ++ "\x7d"

/-- A number and a string of two digits are read exactly. -/
theorem admitsAsWritten_scores :
    ∃ i, Input.ofString? (scoresText "0.95" "\"0.90\"") = some i ∧
      (Thresholds.standard.evaluate i).verdict = .allowed false ∧
      AdmitsAsWritten (scoresText "0.95" "\"0.90\"") i := by
  have hread : Input.ofString? (scoresText "0.95" "\"0.90\"") =
      some (.scored "c" (.percent 95 (by decide)) (.percent 90 (by decide))) := by
    decide +kernel
  have hexact : IsExactlyWritten (scoresText "0.95" "\"0.90\"") := by decide +kernel
  exact ⟨_, hread, by decide, (admitsAsWritten_iff hread).2 hexact⟩

/-- The score of a text that writes the numeral is admitted from `0.95` on. -/
theorem not_admitsAsWritten_of_lt {l : Literal}
    (hl : (field? text "extraction_confidence").bind Source.literal? = some l)
    (hlt : l.value < 95 / 100)
    (hallowed : (Thresholds.standard.evaluate i).verdict = .allowed false) :
    ¬ AdmitsAsWritten text i := by
  intro hadmits
  obtain ⟨⟨q, hq, hle, -⟩, -⟩ := hadmits .standard (by decide) (by decide) hallowed
  have hvalue : q = l.value := by
    rw [written?, hl] at hq
    exact (Option.some.inj hq).symm
  have hmin : Thresholds.standard.minConfidence.toRat = 95 / 100 := by
    norm_num [Decimal.toRat, Decimal.mantissa, Thresholds.standard, Decimal.percent]
  rw [hvalue, hmin] at hle
  exact absurd hlt (not_lt.mpr hle)

/-- A number of twenty digits and a string of 29 digits below `0.95` are read as `0.95`. -/
theorem not_admitsAsWritten :
    (∃ i, Input.ofString? (scoresText "0.94999999999999999999" "1") = some i ∧
      ¬ AdmitsAsWritten (scoresText "0.94999999999999999999" "1") i) ∧
    ∃ i, Input.ofString? (scoresText "\"0.94999999999999999999999999999\"" "1") = some i ∧
      ¬ AdmitsAsWritten (scoresText "\"0.94999999999999999999999999999\"" "1") i := by
  constructor
  · have hliteral : (field? (scoresText "0.94999999999999999999" "1")
        "extraction_confidence").bind Source.literal? =
        some ⟨false, 94999999999999999999, 20, 0⟩ := by decide +kernel
    have hread : Input.ofString? (scoresText "0.94999999999999999999" "1") =
        some (.scored "c" (.percent 95 (by decide)) .one) := by decide +kernel
    refine ⟨_, hread, not_admitsAsWritten_of_lt hliteral ?_ (by decide)⟩
    norm_num [Literal.value]
  · have hliteral : (field? (scoresText "\"0.94999999999999999999999999999\"" "1")
        "extraction_confidence").bind Source.literal? =
        some ⟨false, 94999999999999999999999999999, 29, 0⟩ := by decide +kernel
    have hread : Input.ofString? (scoresText "\"0.94999999999999999999999999999\"" "1") =
        some (.scored "c" ⟨false, 95 * pow10 26, 28, by decide, by decide⟩ .one) := by
      decide +kernel
    refine ⟨_, hread, not_admitsAsWritten_of_lt hliteral ?_ (by decide)⟩
    norm_num [Literal.value]

end Isnad.Gate
