import Isnad.Gate.Decision
import Isnad.Proofs.Decimal.Value

/-!
# Verdicts by the first reason that applies

A value that no human verified is blocked for the first reason that applies to it, and allowed if
none does (`verdict_eq_iff`). What applies depends on the values of the scores and thresholds alone,
so that numerically equal scores get one verdict (`IsRuled.congr`). No reason comes to apply where
thresholds are lowered or scores raised, so that what is allowed stays allowed
(`IsRuled.of_isRaised`).
-/

namespace Isnad.Gate

variable {t t' : Thresholds} {i i' : Input} {r : BlockReason} {v v' : Verdict}
  {score score' : Option Decimal} {threshold threshold' : Decimal}

/-! ## Reasons to block -/

/-- There is a score, and it is not between zero and one. -/
def IsOutside (score : Option Decimal) : Prop :=
  ∃ x, score = some x ∧ ¬ (0 ≤ x.toRat ∧ x.toRat ≤ 1)

/-- There is a score, and it does not reach its threshold. -/
def IsBelow (score : Option Decimal) (threshold : Decimal) : Prop :=
  ∃ x, score = some x ∧ x.toRat < threshold.toRat

namespace BlockReason

/-- The place of a reason in the order in which they are looked for. -/
def place : BlockReason → Nat
  | .missingConfidence => 0
  | .missingDhabt => 1
  | .invalidConfidence => 2
  | .invalidDhabt => 3
  | .lowConfidence => 4
  | .lowDhabt => 5

theorem place_injective : Function.Injective place := by
  intro r r' h
  cases r <;> cases r' <;> first | rfl | cases h

theorem place_lt (r : BlockReason) : r.place < 6 := by cases r <;> decide

/-- What the reason says is so. -/
def Applies (t : Thresholds) (i : Input) : BlockReason → Prop
  | .missingConfidence => i.confidence = none
  | .missingDhabt => i.dhabt = none
  | .invalidConfidence => IsOutside i.confidence
  | .invalidDhabt => IsOutside i.dhabt
  | .lowConfidence => IsBelow i.confidence t.minConfidence
  | .lowDhabt => IsBelow i.dhabt t.minDhabt

/-- No reason applies that is looked for before the given place. -/
def NoneBefore (t : Thresholds) (i : Input) (n : Nat) : Prop :=
  ∀ r : BlockReason, r.place < n → ¬ r.Applies t i

theorem noneBefore_zero : NoneBefore t i 0 := fun _ h => absurd h (Nat.not_lt_zero _)

theorem NoneBefore.next (h : NoneBefore t i r.place) (hr : ¬ r.Applies t i) :
    NoneBefore t i (r.place + 1) := by
  intro r' hlt
  rcases Nat.lt_or_eq_of_le (Nat.le_of_lt_succ hlt) with hlt | heq
  · exact h r' hlt
  · exact place_injective heq ▸ hr

/-- The reason applies, and none that is looked for before. -/
structure IsFirst (t : Thresholds) (i : Input) (r : BlockReason) : Prop where
  applies : r.Applies t i
  earlier : NoneBefore t i r.place

/-- Only one reason is the first. -/
theorem IsFirst.eq {r r' : BlockReason} (h : r.IsFirst t i) (h' : r'.IsFirst t i) : r = r' := by
  rcases Nat.lt_trichotomy r.place r'.place with hlt | heq | hlt
  · exact absurd h.applies (h'.earlier r hlt)
  · exact place_injective heq
  · exact absurd h'.applies (h.earlier r' hlt)

end BlockReason

/-- The verdict that the rules give: human verification comes before every reason to block. -/
inductive IsRuled (t : Thresholds) (i : Input) : Verdict → Prop
  | bypassed : i.hasHumanVerification = true → IsRuled t i (.allowed true)
  | blocked (r : BlockReason) : i.hasHumanVerification = false → r.IsFirst t i →
    IsRuled t i (.blocked r)
  | cleared : i.hasHumanVerification = false → (∀ r : BlockReason, ¬ r.Applies t i) →
    IsRuled t i (.allowed false)

theorem IsRuled.eq (h : IsRuled t i v) (h' : IsRuled t i v') : v = v' := by
  cases h with
  | bypassed hhuman => cases h' <;> simp_all
  | blocked r hhuman hfirst =>
    cases h' with
    | bypassed hhuman' => simp_all
    | blocked r' _ hfirst' => rw [hfirst.eq hfirst']
    | cleared _ hnone => exact absurd hfirst.applies (hnone r)
  | cleared hhuman hnone =>
    cases h' with
    | bypassed hhuman' => simp_all
    | blocked r' _ hfirst' => exact absurd hfirst'.applies (hnone r')
    | cleared => rfl

/-! ## The verdict -/

open BlockReason

theorem isOutside_some {x : Decimal} : IsOutside (some x) ↔ x.inUnitInterval = false := by
  rw [← Bool.not_eq_true, Decimal.inUnitInterval_iff_toRat]
  exact ⟨fun ⟨y, hy, h⟩ => Option.some.inj hy ▸ h, fun h => ⟨x, rfl, h⟩⟩

theorem isBelow_some {x : Decimal} : IsBelow (some x) threshold ↔ x < threshold := by
  rw [Decimal.lt_iff_toRat]
  exact ⟨fun ⟨y, hy, h⟩ => Option.some.inj hy ▸ h, fun h => ⟨x, rfl, h⟩⟩

/-- One rule of the gate: it blocks for a reason that applies, and leaves the rest to the rules that
come after it. -/
theorem IsRuled.ite {c : Prop} [Decidable c] (hhuman : i.hasHumanVerification = false)
    (hearlier : NoneBefore t i r.place) (hr : r.Applies t i ↔ c)
    (hrest : NoneBefore t i (r.place + 1) → IsRuled t i v) :
    IsRuled t i (if c then .blocked r else v) := by
  split
  · rename_i h
    exact .blocked r hhuman ⟨hr.mpr h, hearlier⟩
  · rename_i h
    exact hrest (hearlier.next (mt hr.mp h))

theorem isRuled_scoreVerdict (hhuman : i.hasHumanVerification = false) :
    IsRuled t i (t.scoreVerdict i.confidence i.dhabt) := by
  have hstart : NoneBefore t i 0 := noneBefore_zero
  cases hc : i.confidence with
  | none => exact .blocked _ hhuman ⟨hc, hstart⟩
  | some c =>
    have hconfidence := hstart.next (r := .missingConfidence) (by simp [Applies, hc])
    cases hd : i.dhabt with
    | none => exact .blocked _ hhuman ⟨hd, hconfidence⟩
    | some d =>
      have hboth := hconfidence.next (r := .missingDhabt) (by simp [Applies, hd])
      refine .ite hhuman hboth ?_ fun hvalid => .ite hhuman hvalid ?_ fun hvalid' =>
        .ite hhuman hvalid' ?_ fun hhigh => .ite hhuman hhigh ?_ fun hall =>
        .cleared hhuman fun r => hall r r.place_lt
      · rw [Applies, hc, isOutside_some, Bool.not_eq_true']
      · rw [Applies, hd, isOutside_some, Bool.not_eq_true']
      · rw [Applies, hc, isBelow_some]
      · rw [Applies, hd, isBelow_some]

theorem isRuled_verdict (t : Thresholds) (i : Input) : IsRuled t i (t.verdict i) := by
  unfold Thresholds.verdict
  split
  · rename_i hhuman
    exact .bypassed hhuman
  · rename_i hhuman
    exact isRuled_scoreVerdict (Bool.eq_false_of_not_eq_true hhuman)

theorem verdict_eq_iff : t.verdict i = v ↔ IsRuled t i v :=
  ⟨fun h => h ▸ isRuled_verdict t i, fun h => (isRuled_verdict t i).eq h⟩

/-! ## Two inputs -/

theorem IsRuled.congr (h : IsRuled t i v)
    (hhuman : i'.hasHumanVerification = i.hasHumanVerification)
    (happlies : ∀ r : BlockReason, r.Applies t' i' ↔ r.Applies t i) : IsRuled t' i' v := by
  have hnone {n : Nat} (h : NoneBefore t i n) : NoneBefore t' i' n :=
    fun r hlt => mt (happlies r).mp (h r hlt)
  cases h with
  | bypassed h => exact .bypassed (hhuman.trans h)
  | blocked r h hfirst =>
    exact .blocked r (hhuman.trans h) ⟨(happlies r).mpr hfirst.applies, hnone hfirst.earlier⟩
  | cleared h hall => exact .cleared (hhuman.trans h) fun r => mt (happlies r).mp (hall r)

/-- The score is the same number, if there is one. -/
def IsSame (score score' : Option Decimal) : Prop :=
  score'.map Decimal.toRat = score.map Decimal.toRat

theorem exists_iff_of_isSame (h : IsSame score score') (f : ℚ → Prop) :
    (∃ x, score' = some x ∧ f x.toRat) ↔ ∃ x, score = some x ∧ f x.toRat := by
  cases score <;> cases score' <;> simp_all [IsSame]

theorem applies_iff_of_isSame (hconfidence : IsSame i.confidence i'.confidence)
    (hdhabt : IsSame i.dhabt i'.dhabt) (r : BlockReason) : r.Applies t i' ↔ r.Applies t i := by
  have hnone {score score' : Option Decimal} (h : IsSame score score') :
      score' = none ↔ score = none := by
    rw [← Option.map_eq_none_iff (f := Decimal.toRat), h, Option.map_eq_none_iff]
  cases r with
  | missingConfidence => exact hnone hconfidence
  | missingDhabt => exact hnone hdhabt
  | invalidConfidence => exact exists_iff_of_isSame hconfidence fun q => ¬ (0 ≤ q ∧ q ≤ 1)
  | invalidDhabt => exact exists_iff_of_isSame hdhabt fun q => ¬ (0 ≤ q ∧ q ≤ 1)
  | lowConfidence => exact exists_iff_of_isSame hconfidence fun q => q < t.minConfidence.toRat
  | lowDhabt => exact exists_iff_of_isSame hdhabt fun q => q < t.minDhabt.toRat

/-- The score is the same, or a higher one that is not above one. -/
inductive IsRaised : Option Decimal → Option Decimal → Prop
  | same (score : Option Decimal) : IsRaised score score
  | higher {x y : Decimal} : x.toRat ≤ y.toRat → y.toRat ≤ 1 → IsRaised (some x) (some y)

/-- There is a score, between zero and one, and it reaches its threshold. -/
def Fits (score : Option Decimal) (threshold : Decimal) : Prop :=
  ∃ x, score = some x ∧ (0 ≤ x.toRat ∧ x.toRat ≤ 1) ∧ threshold.toRat ≤ x.toRat

theorem fits_iff : Fits score threshold ↔
    score ≠ none ∧ ¬ IsOutside score ∧ ¬ IsBelow score threshold := by
  cases score with
  | none => simp [Fits]
  | some x => simp [Fits, IsOutside, IsBelow]

theorem Fits.of_isRaised (h : Fits score threshold) (hraised : IsRaised score score')
    (hthreshold : threshold'.toRat ≤ threshold.toRat) : Fits score' threshold' := by
  obtain ⟨x, rfl, ⟨hzero, hone⟩, hreaches⟩ := h
  cases hraised with
  | same => exact ⟨x, rfl, ⟨hzero, hone⟩, hthreshold.trans hreaches⟩
  | @higher _ y hle hone' =>
    exact ⟨y, rfl, ⟨hzero.trans hle, hone'⟩, (hthreshold.trans hreaches).trans hle⟩

/-- No reason applies exactly if both scores fit. -/
theorem forall_not_applies_iff : (∀ r : BlockReason, ¬ r.Applies t i) ↔
    Fits i.confidence t.minConfidence ∧ Fits i.dhabt t.minDhabt := by
  rw [fits_iff, fits_iff]
  constructor
  · intro h
    exact ⟨⟨h .missingConfidence, h .invalidConfidence, h .lowConfidence⟩,
      h .missingDhabt, h .invalidDhabt, h .lowDhabt⟩
  · rintro ⟨⟨hpresent, hvalid, hhigh⟩, hpresent', hvalid', hhigh'⟩ r
    cases r <;> assumption

theorem IsRuled.of_isRaised {isBypassed : Bool} (h : IsRuled t i (.allowed isBypassed))
    (hhuman : i'.hasHumanVerification = i.hasHumanVerification)
    (hminc : t'.minConfidence.toRat ≤ t.minConfidence.toRat)
    (hmind : t'.minDhabt.toRat ≤ t.minDhabt.toRat) (hc : IsRaised i.confidence i'.confidence)
    (hd : IsRaised i.dhabt i'.dhabt) : IsRuled t' i' (.allowed isBypassed) := by
  cases h with
  | bypassed h => exact .bypassed (hhuman.trans h)
  | cleared h hall =>
    obtain ⟨hfits, hfits'⟩ := forall_not_applies_iff.mp hall
    exact .cleared (hhuman.trans h) (forall_not_applies_iff.mpr
      ⟨hfits.of_isRaised hc hminc, hfits'.of_isRaised hd hmind⟩)

theorem isAllowed_evaluate_iff :
    (t.evaluate i).isAllowed = true ↔ ∃ isBypassed, t.verdict i = .allowed isBypassed := by
  rw [Decision.isAllowed, Thresholds.evaluate]
  cases t.verdict i <;> simp

theorem hasHumanVerification_iff : i.hasHumanVerification = true ↔
    i.isHumanVerified = true ∨ i.method = some .humanVerified ∨ i.method = some .dualVerified := by
  rw [Input.hasHumanVerification, Bool.or_eq_true]
  refine or_congr_right ?_
  cases i.method with
  | none => simp
  | some m => cases m <;> simp [VerificationMethod.isHuman]

/-- An input is allowed on a human verification of either kind. Any other is blocked for the first
reason that applies to the exact values of its scores, and allowed if none does. So what is allowed
stays allowed, in the same way, under thresholds that are not higher and with scores that are not
lower and at most one, and numerically equal scores get one verdict. -/
theorem verdict_firstReason (t : Thresholds) (i : Input) :
    ((t.evaluate i).verdict = .allowed true ↔
      i.isHumanVerified = true ∨ i.method = some .humanVerified ∨
        i.method = some .dualVerified) ∧
    (∀ r : BlockReason, (t.evaluate i).verdict = .blocked r ↔
      i.hasHumanVerification = false ∧ r.Applies t i ∧
        ∀ r' : BlockReason, r'.place < r.place → ¬ r'.Applies t i) ∧
    ((t.evaluate i).verdict = .allowed false ↔
      i.hasHumanVerification = false ∧ ∀ r : BlockReason, ¬ r.Applies t i) ∧
    (∀ (t' : Thresholds) (i' : Input), (t.evaluate i).isAllowed = true →
      i'.hasHumanVerification = i.hasHumanVerification →
      t'.minConfidence.toRat ≤ t.minConfidence.toRat → t'.minDhabt.toRat ≤ t.minDhabt.toRat →
      IsRaised i.confidence i'.confidence → IsRaised i.dhabt i'.dhabt →
      (t'.evaluate i').verdict = (t.evaluate i).verdict) ∧
    ∀ i' : Input, i'.hasHumanVerification = i.hasHumanVerification →
      IsSame i.confidence i'.confidence → IsSame i.dhabt i'.dhabt →
      (t.evaluate i').verdict = (t.evaluate i).verdict := by
  refine ⟨?_, fun r => ?_, ?_, fun t' i' hallowed hhuman hminc hmind hc hd => ?_,
    fun i' hhuman hc hd => ?_⟩
  · rw [← hasHumanVerification_iff]
    exact verdict_eq_iff.trans ⟨fun | .bypassed h => h, .bypassed⟩
  · exact verdict_eq_iff.trans
      ⟨fun | .blocked _ h hfirst => ⟨h, hfirst.applies, hfirst.earlier⟩,
        fun ⟨h, happlies, hearlier⟩ => .blocked r h ⟨happlies, hearlier⟩⟩
  · exact verdict_eq_iff.trans
      ⟨fun | .cleared h hall => ⟨h, hall⟩, fun ⟨h, hall⟩ => .cleared h hall⟩
  · obtain ⟨isBypassed, hverdict⟩ := isAllowed_evaluate_iff.mp hallowed
    have hruled := (verdict_eq_iff.mp hverdict).of_isRaised hhuman hminc hmind hc hd
    exact (verdict_eq_iff.mpr hruled).trans hverdict.symm
  · exact verdict_eq_iff.mpr ((isRuled_verdict t i).congr hhuman (applies_iff_of_isSame hc hd))

/-- The score `0.950000` is allowed as `0.95` is, and so is one where both are raised to one and the
thresholds lowered to zero. A score above one is blocked before the other one is found too low. -/
theorem verdict_firstReason_scored :
    let sixPlaces : Decimal := ⟨false, 950000, 6, by decide, by decide⟩
    let standard := Input.scored "c" (.percent 95 (by decide)) (.percent 90 (by decide))
    let precise := Input.scored "d" sixPlaces (.percent 90 (by decide))
    let raised := Input.scored "e" .one .one
    let outside := Input.scored "f" (.percent 10 (by decide)) ⟨false, 12, 1, by decide, by decide⟩
    IsSame standard.confidence precise.confidence ∧
      (Thresholds.standard.evaluate precise).verdict =
        (Thresholds.standard.evaluate standard).verdict ∧
      (Thresholds.standard.evaluate precise).isAllowed = true ∧
      IsRaised precise.confidence raised.confidence ∧
      (Thresholds.evaluate ⟨.zero, .zero⟩ raised).verdict =
        (Thresholds.standard.evaluate precise).verdict ∧
      BlockReason.invalidDhabt.Applies Thresholds.standard outside ∧
      (Thresholds.standard.evaluate outside).verdict = .blocked .invalidDhabt ∧
      ¬ BlockReason.missingDhabt.Applies Thresholds.standard outside := by
  intro sixPlaces standard precise raised outside
  obtain ⟨-, -, -, -, hequal⟩ := verdict_firstReason .standard standard
  obtain ⟨-, -, -, hmonotone, -⟩ := verdict_firstReason .standard precise
  obtain ⟨-, hblocked, -⟩ := verdict_firstReason .standard outside
  have hvalue : sixPlaces.toRat = (Decimal.percent 95 (by decide)).toRat :=
    le_antisymm (Decimal.le_iff_toRat.mp (by decide)) (Decimal.le_iff_toRat.mp (by decide))
  have hsame : IsSame standard.confidence precise.confidence := congrArg some hvalue
  have hallowed : (Thresholds.standard.evaluate precise).isAllowed = true := by decide
  have hraised : IsRaised precise.confidence raised.confidence :=
    .higher (Decimal.le_iff_toRat.mp (by decide)) Decimal.toRat_one.le
  have hraised' : IsRaised precise.dhabt raised.dhabt :=
    .higher (Decimal.le_iff_toRat.mp (by decide)) Decimal.toRat_one.le
  have houtside : (Thresholds.standard.evaluate outside).verdict = .blocked .invalidDhabt := by
    decide
  obtain ⟨-, happlies, hearlier⟩ := (hblocked _).mp houtside
  exact ⟨hsame, hequal precise rfl hsame rfl, hallowed, hraised,
    hmonotone ⟨.zero, .zero⟩ raised hallowed rfl (Decimal.le_iff_toRat.mp (by decide))
      (Decimal.le_iff_toRat.mp (by decide)) hraised hraised',
    happlies, houtside, hearlier .missingDhabt (by decide)⟩

end Isnad.Gate
