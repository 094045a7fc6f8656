import Isnad.Proofs.RoundTrip

/-!
# Records of decisions

A decision is read back from its record, and so from what is written of the record
(`ofRecord_toRecord`, `DecisionRecord.decode_toJson`). The other way round, a record that states a
decision is the record of that decision but for a bypass that a blocked one claims: it is left out
(`ofRecord_eq_ok_iff`). So the records that come back unchanged are those without one, which are
the records that decisions have (`records_decided`).
-/

namespace Isnad.Gate

open Json Document Reader

variable {d : Decision} {r : DecisionRecord} {depth : Nat}

/-! ## What is written of a record -/

namespace DecisionRecord

/-- The record, with scores of zero left without their signs. -/
def dropZeroSigns (r : DecisionRecord) : DecisionRecord :=
  { r with
    confidence := r.confidence.map Decimal.dropZeroSign
    dhabt := r.dhabt.map Decimal.dropZeroSign }

theorem decode_toJson (r : DecisionRecord) :
    Json.decode decode r.toJson = .ok r.dropZeroSigns := by
  refine decode_object layout fun hf hmember => ?_
  simp only [bind_eq_ok_iff]
  exact ⟨_, required_of_lookup hf (by decide) (hmember _) (decode_bool _),
    _, required_of_lookup hf (by decide) (hmember _) (decode_bool _),
    _, required_of_lookup hf (by decide) (hmember _) (decode_bool _),
    _, required_of_lookup hf (by decide) (hmember _) (decode_str _),
    _, option_ofDecimal (hmember _) hf (by decide),
    _, option_ofDecimal (hmember _) hf (by decide),
    _, option_ofOption (hmember _) ofLabel_ne_null hf (by decide) decode_ofLabel, rfl⟩

theorem isReadable_toJson (r : DecisionRecord) (hdepth : depth < maxDepth) :
    r.toJson.IsReadable depth := isReadable_object hdepth (by simp)

theorem textHolds_toJson (r : DecisionRecord) : r.toJson.TextHolds decode r.dropZeroSigns :=
  textHolds_of_isReadable (r.isReadable_toJson (by decide)) r.decode_toJson

end DecisionRecord

/-! ## The same scores -/

/-- Two scores are the same number, whatever their scales, or both are missing. -/
def SameScore (x y : Option Decimal) : Prop := x.map Decimal.toRat = y.map Decimal.toRat

theorem sameScore_dropZeroSign (x : Option Decimal) : SameScore (x.map Decimal.dropZeroSign) x := by
  cases x with
  | none => rfl
  | some x => exact congrArg some x.toRat_dropZeroSign

/-- The decisions are equal, their scores as numbers. -/
structure Decision.Same (d d' : Decision) : Prop where
  claim : d.claim = d'.claim
  verdict : d.verdict = d'.verdict
  confidence : SameScore d.confidence d'.confidence
  dhabt : SameScore d.dhabt d'.dhabt

/-- The records are equal, their scores as numbers. -/
structure DecisionRecord.Same (r r' : DecisionRecord) : Prop where
  allowed : r.allowed = r'.allowed
  blocked : r.blocked = r'.blocked
  reason : r.reason = r'.reason
  claim : r.claim = r'.claim
  confidence : SameScore r.confidence r'.confidence
  dhabt : SameScore r.dhabt r'.dhabt
  bypassed : r.bypassed = r'.bypassed

theorem DecisionRecord.same_dropZeroSigns (r : DecisionRecord) : r.dropZeroSigns.Same r :=
  ⟨rfl, rfl, rfl, rfl, sameScore_dropZeroSign _, sameScore_dropZeroSign _, rfl⟩

/-! ## Records and decisions -/

namespace DecisionRecord

/-- The flags of the record are opposite, and there is a reason if it is blocked and only then. -/
structure IsStated (r : DecisionRecord) : Prop where
  flags : r.blocked = !r.allowed
  reason : r.reason.isSome = r.blocked

/-- The record claims a bypass only of a decision that it allows. -/
def BypassesAllowed (r : DecisionRecord) : Prop := r.bypassed = true → r.allowed = true

/-- The record without a bypass that a blocked decision claims. -/
def dropBypass (r : DecisionRecord) : DecisionRecord :=
  { r with bypassed := r.bypassed && r.allowed }

theorem dropBypass_eq_iff : r.dropBypass = r ↔ r.BypassesAllowed := by
  obtain ⟨allowed, blocked, reason, claim, confidence, dhabt, bypassed⟩ := r
  cases bypassed <;> cases allowed <;> simp [dropBypass, BypassesAllowed]

end DecisionRecord

namespace Decision

theorem ofRecord_toRecord (d : Decision) : ofRecord d.toRecord = .ok d := by
  obtain ⟨claim, verdict, confidence, dhabt⟩ := d
  cases verdict with
  | allowed bypassed => cases bypassed <;> rfl
  | blocked reason => rfl

theorem isStated_toRecord (d : Decision) : d.toRecord.IsStated := by
  obtain ⟨claim, verdict, confidence, dhabt⟩ := d
  cases verdict <;> exact ⟨rfl, rfl⟩

theorem bypassesAllowed_toRecord (d : Decision) : d.toRecord.BypassesAllowed := by
  obtain ⟨claim, verdict, confidence, dhabt⟩ := d
  cases verdict <;> simp [DecisionRecord.BypassesAllowed, toRecord, isBypassed, isAllowed]

/-- A bypass that a blocked decision claims makes no difference. -/
theorem ofRecord_dropBypass (r : DecisionRecord) : ofRecord r.dropBypass = ofRecord r := by
  obtain ⟨allowed, blocked, reason, claim, confidence, dhabt, bypassed⟩ := r
  cases allowed <;> cases blocked <;> cases reason <;> simp [ofRecord, DecisionRecord.dropBypass]

/-- A record states a decision if it is that decision's record, once a bypass that a blocked one
claims has been left out. -/
theorem ofRecord_eq_ok_iff : ofRecord r = .ok d ↔ d.toRecord = r.dropBypass := by
  constructor
  · intro h
    obtain ⟨allowed, blocked, reason, claim, confidence, dhabt, bypassed⟩ := r
    cases allowed <;> cases blocked <;> cases reason <;> cases h <;> cases bypassed <;> rfl
  · intro h
    rw [← ofRecord_dropBypass, ← h, ofRecord_toRecord]

theorem exists_ofRecord_iff : (∃ d, ofRecord r = .ok d) ↔ r.IsStated := by
  constructor
  · rintro ⟨d, h⟩
    have hstated := d.isStated_toRecord
    rw [ofRecord_eq_ok_iff.mp h] at hstated
    exact ⟨hstated.flags, hstated.reason⟩
  · rintro ⟨hflags, hreason⟩
    obtain ⟨allowed, blocked, reason, claim, confidence, dhabt, bypassed⟩ := r
    cases allowed <;> cases hflags <;> cases reason <;> cases hreason
    · exact ⟨_, rfl⟩
    · exact ⟨_, rfl⟩

/-- The record comes back unless it claims a bypass of a decision that it blocks. -/
theorem toRecord_eq_iff (h : ofRecord r = .ok d) : d.toRecord = r ↔ r.BypassesAllowed := by
  rw [ofRecord_eq_ok_iff.mp h]
  exact DecisionRecord.dropBypass_eq_iff

/-- The records of decisions. -/
theorem exists_toRecord_iff :
    (∃ d : Decision, d.toRecord = r) ↔ r.IsStated ∧ r.BypassesAllowed := by
  constructor
  · rintro ⟨d, rfl⟩
    exact ⟨d.isStated_toRecord, d.bypassesAllowed_toRecord⟩
  · rintro ⟨hstated, hbypass⟩
    obtain ⟨d, hd⟩ := exists_ofRecord_iff.mpr hstated
    exact ⟨d, (toRecord_eq_iff hd).mpr hbypass⟩

/-! ## What is written of a decision -/

/-- The decision, with scores of zero left without their signs. -/
def dropZeroSigns (d : Decision) : Decision :=
  { d with
    confidence := d.confidence.map Decimal.dropZeroSign
    dhabt := d.dhabt.map Decimal.dropZeroSign }

theorem same_dropZeroSigns (d : Decision) : d.dropZeroSigns.Same d :=
  ⟨rfl, rfl, sameScore_dropZeroSign _, sameScore_dropZeroSign _⟩

theorem ofRecord_dropZeroSigns (d : Decision) :
    ofRecord d.toRecord.dropZeroSigns = .ok d.dropZeroSigns := ofRecord_toRecord d.dropZeroSigns

end Decision

/-- The value holds the record, and so does any file of its text. -/
structure DecisionRecord.IsWritten (r : DecisionRecord) (x : Json) : Prop where
  value : Json.decode decode x = .ok r
  text : x.TextHolds decode r

theorem Decision.isWritten_toJson (d : Decision) : d.toRecord.dropZeroSigns.IsWritten d.toJson :=
  ⟨d.toRecord.decode_toJson, d.toRecord.textHolds_toJson⟩

/-- A decision is read back from what is written of it. The records that are accepted are those with
opposite flags and a reason that goes with them. What is written of the decision that such a record
states is the record again, but for a bypass that a blocked decision claims: this one is left out.
The accepted records without it are those that decisions have. -/
theorem Decision.records_decided (d : Decision) (r : DecisionRecord) :
    (∃ r' d', DecisionRecord.IsWritten r' d.toJson ∧ ofRecord r' = .ok d' ∧ d'.Same d) ∧
    ((∃ e, ofRecord r = .ok e) ↔ r.IsStated) ∧
    ((∃ e : Decision, e.toRecord = r) ↔ r.IsStated ∧ r.BypassesAllowed) ∧
    ∀ e, ofRecord r = .ok e →
      e.toRecord = r.dropBypass ∧ (e.toRecord = r ↔ r.BypassesAllowed) ∧
        ∃ r' : DecisionRecord, r'.IsWritten e.toJson ∧ r'.Same r.dropBypass ∧
          (r'.Same r ↔ r.BypassesAllowed) := by
  refine ⟨⟨_, _, d.isWritten_toJson, d.ofRecord_dropZeroSigns, d.same_dropZeroSigns⟩,
    exists_ofRecord_iff, exists_toRecord_iff, fun e h => ?_⟩
  have hrecord := ofRecord_eq_ok_iff.mp h
  have hsame := e.toRecord.same_dropZeroSigns
  refine ⟨hrecord, toRecord_eq_iff h, _, e.isWritten_toJson, hrecord ▸ hsame, fun hback => ?_,
    fun hbypass => ?_⟩
  · have hbypassed : (r.bypassed && r.allowed) = r.bypassed :=
      (congrArg DecisionRecord.bypassed hrecord).symm.trans hback.bypassed
    exact fun hr => by simpa [hr] using hbypassed
  · rw [(toRecord_eq_iff h).mpr hbypass] at hsame ⊢
    exact hsame

/-- A record of a decision that was allowed on human verification comes back. -/
theorem Decision.records_decided_bypassed :
    let r : DecisionRecord := ⟨true, false, none, "c-2", some .one, none, true⟩
    ∃ d, ofRecord r = .ok d ∧ r.BypassesAllowed ∧ d.toRecord = r := by
  intro r
  have hbypass : r.BypassesAllowed := fun _ => rfl
  have hback := (records_decided ⟨"c-2", .allowed true, some .one, none⟩ r).2.2.2 _ rfl
  exact ⟨_, rfl, hbypass, hback.2.1.mpr hbypass⟩

/-- A blocked record that claims a bypass is accepted, and comes back without it. -/
theorem Decision.not_toRecord_ofRecord :
    ¬ ∀ (r : DecisionRecord) (d : Decision), r.toJson.TextHolds DecisionRecord.decode r →
      ofRecord r = .ok d → d.toRecord = r := by
  intro h
  have hback := h ⟨false, true, some .lowDhabt, "c-1", some (.percent 97 (by decide)),
    some (.percent 50 (by decide)), true⟩ _ (DecisionRecord.textHolds_toJson _) rfl
  cases hback

end Isnad.Gate
