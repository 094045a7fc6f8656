import Isnad.Command
import Isnad.Gate.Clearance
import Isnad.Proofs.Claim.Rules
import Isnad.Proofs.Document.Written
import Isnad.Proofs.Json.Compact

/-!
# Records that are read back

A record is read back from the value that is written of it: each of its fields is a member of the
object, and is read by the decoder of its kind. Only the sign of a zero is lost. A file of the
compact text holds the record as well if the text can be read, which only a free-form value in it
can prevent, by a number that is rounded or by its depth (`records_read_back`).
-/

namespace Isnad

open Json Document Reader

variable {depth : Nat}

/-- Any file of the compact text of the value holds the record. -/
def Json.TextHolds {α : Type} (d : Decoder α) (a : α) (x : Json) : Prop :=
  ∀ name, Command.readJson d ⟨name, some x.compact⟩ = .ok a

theorem Json.textHolds_of_isReadable {α : Type} {d : Decoder α} {a : α} {x : Json}
    (h : x.IsReadable 0) (hd : Json.decode d x = .ok a) : x.TextHolds d a := by
  intro name
  rw [decode] at hd
  simp [Command.readJson, Command.File.read, ofString?_compact h, hd, bind, Except.bind]

/-! ## Evidence -/

theorem Conflict.decode_toJson (c : Conflict) : Json.decode decode c.toJson = .ok c := by
  refine decode_object layout fun hf hmember => ?_
  simp only [bind_eq_ok_iff]
  exact ⟨_, option_ofOption (hmember _) str_ne_null hf (by decide) decode_str,
    _, orElse_of_lookup hf (by decide) (hmember _) (decode_bool _),
    _, orElse_of_lookup hf (by decide) (hmember _) (decode_bool _),
    _, option_ofOption (hmember _) ofLabel_ne_null hf (by decide) decode_ofLabel,
    _, option_ofOption (hmember _) str_ne_null hf (by decide) decode_str, rfl⟩

theorem Conflict.isReadable_toJson (c : Conflict) (hdepth : depth < maxDepth) :
    c.toJson.IsReadable depth := isReadable_object hdepth (by simp)

theorem Conflict.toJson_ne_null (c : Conflict) : c.toJson ≠ .null := by simp [toJson, object]

theorem Evidence.decode_toJson (e : Evidence) : Json.decode decode e.toJson = .ok e := by
  refine decode_object layout fun hf hmember => ?_
  simp only [bind_eq_ok_iff]
  exact ⟨_, option_ofOption (hmember _) Conflict.toJson_ne_null hf (by decide)
      Conflict.decode_toJson,
    _, required_of_lookup hf (by decide) (hmember _) (decode_ofUuid _),
    _, required_of_lookup hf (by decide) (hmember _) (decode_str _),
    _, required_of_lookup hf (by decide) (hmember _) (decode_ofLabel _),
    _, required_of_lookup hf (by decide) (hmember _) (decode_ofLabel _), rfl⟩

theorem Evidence.isReadable_toJson (e : Evidence) (hdepth : depth + 1 < maxDepth) :
    e.toJson.IsReadable depth :=
  isReadable_object (by omega) (by simp [Conflict.isReadable_toJson, hdepth])

/-! ## Sanads -/

namespace TransmissionNode

/-- The node, with a confidence of zero left without its sign. -/
def dropZeroSigns (n : TransmissionNode) : TransmissionNode :=
  { n with confidence := n.confidence.map Decimal.dropZeroSign }

theorem decode_toJson {n : TransmissionNode}
    (h : 0 ≤ n.timestamp.date.year ∧ n.timestamp.date.year ≤ 9999) :
    Json.decode decode n.toJson = .ok n.dropZeroSigns := by
  refine decode_object layout fun hf hmember => ?_
  simp only [bind_eq_ok_iff]
  exact ⟨_, required_of_lookup hf (by decide) (hmember _) (decode_str _),
    _, required_of_lookup hf (by decide) (hmember _) (decode_ofLabel _),
    _, option_ofDecimal (hmember _) hf (by decide),
    _, required_of_lookup hf (by decide) (hmember _) (decode_ofUuid _),
    _, required_of_lookup hf (by decide) (hmember _) (decode_ofLabel _),
    _, option_ofOption (hmember _) ofUuid_ne_null hf (by decide) decode_ofUuid,
    _, option_ofOption (hmember _) ofUuid_ne_null hf (by decide) decode_ofUuid,
    _, required_of_lookup hf (by decide) (hmember _) (decode_ofTimestamp h), rfl⟩

theorem isReadable_toJson (n : TransmissionNode) (hdepth : depth < maxDepth) :
    n.toJson.IsReadable depth := isReadable_object hdepth (by simp)

end TransmissionNode

theorem Defect.decode_toJson (d : Defect) : Json.decode decode d.toJson = .ok d := by
  refine decode_object layout fun hf hmember => ?_
  simp only [bind_eq_ok_iff]
  exact ⟨_, required_of_lookup hf (by decide) (hmember _) (decode_ofLabel _),
    _, required_of_lookup hf (by decide) (hmember _) (decode_ofLabel _),
    _, required_of_lookup hf (by decide) (hmember _) (decode_str _),
    _, required_of_lookup hf (by decide) (hmember _) (decode_ofLabel _),
    _, orElse_of_lookup hf (by decide) (hmember _) (decode_ofLabel _), rfl⟩

theorem Defect.isReadable_toJson (d : Defect) (hdepth : depth < maxDepth) :
    d.toJson.IsReadable depth := isReadable_object hdepth (by simp)

namespace IndependenceCheck

theorem decode_toJson (c : IndependenceCheck) : Json.decode decode c.toJson = .ok c := by
  refine decode_object layout fun hf hmember => ?_
  simp only [bind_eq_ok_iff]
  exact ⟨_, required_of_lookup hf (by decide) (hmember _) (decode_bool _),
    _, required_of_lookup hf (by decide) (hmember _) (decode_bool _), rfl⟩

theorem toJson_ne_null (c : IndependenceCheck) : c.toJson ≠ .null := by simp [toJson, object]

theorem isReadable_toJson (c : IndependenceCheck) (hdepth : depth < maxDepth) :
    c.toJson.IsReadable depth := isReadable_object hdepth (by simp)

end IndependenceCheck

namespace Sanad

/-- The sanad, with confidences of zero left without their signs. -/
def dropZeroSigns (s : Sanad) : Sanad :=
  { s with
    confidence := s.confidence.dropZeroSign
    chain := s.chain.map TransmissionNode.dropZeroSigns }

theorem decode_toJson {s : Sanad}
    (h : ∀ n ∈ s.chain, 0 ≤ n.timestamp.date.year ∧ n.timestamp.date.year ≤ 9999) :
    Json.decode decode s.toJson = .ok s.dropZeroSigns := by
  refine decode_object layout fun hf hmember => ?_
  simp only [bind_eq_ok_iff]
  exact ⟨_, required_of_lookup hf (by decide) (hmember _) (decode_ofUuid _),
    _, orElse_of_lookup hf (by decide) (hmember _) (decode_ofList decode_ofUuid),
    _, required_of_lookup hf (by decide) (hmember _) (decode_ofLabel _),
    _, orElse_of_lookup hf (by decide) (hmember _) (decode_ofList Defect.decode_toJson),
    _, required_of_lookup hf (by decide) (hmember _) (decode_ofDecimal _),
    _, option_ofOption (hmember _) IndependenceCheck.toJson_ne_null hf (by decide)
      IndependenceCheck.decode_toJson,
    _, required_of_lookup hf (by decide) (hmember _) (decode_ofUuid _),
    _, required_of_lookup hf (by decide) (hmember _) (decode_ofLabel _),
    _, required_of_lookup hf (by decide) (hmember _) (decode_ofUuid _),
    _, required_of_lookup hf (by decide) (hmember _)
      (decode_ofList_map fun n hn => TransmissionNode.decode_toJson (h n hn)), rfl⟩

theorem isReadable_toJson (s : Sanad) (hdepth : depth + 2 < maxDepth) :
    s.toJson.IsReadable depth := by
  have hlist : depth + 1 < maxDepth := by omega
  refine isReadable_object (by omega) ?_
  simp [isReadable_ofList hlist, TransmissionNode.isReadable_toJson, Defect.isReadable_toJson,
    IndependenceCheck.isReadable_toJson, hlist, hdepth]

end Sanad

/-! ## Claims -/

theorem Claim.isReadable_toJson {c : Claim} (hdepth : depth < maxDepth)
    (h : c.value.toJson.IsReadable (depth + 1)) : c.toJson.IsReadable depth :=
  isReadable_object hdepth (by simp [h])

namespace ClaimDraft

/-- The draft, with scores of zero left without their signs. -/
def dropZeroSigns (d : ClaimDraft) : ClaimDraft :=
  { d with
    confidence := d.confidence.map Decimal.dropZeroSign
    dhabt := d.dhabt.map Decimal.dropZeroSign }

theorem decode_toJson (d : ClaimDraft) : Json.decode decode d.toJson = .ok d.dropZeroSigns := by
  refine decode_object layout fun hf hmember => ?_
  simp only [bind_eq_ok_iff]
  exact ⟨_, required_of_lookup hf (by decide) (hmember _) (decode_ofUuid _),
    _, option_ofDecimal (hmember _) hf (by decide),
    _, option_ofDecimal (hmember _) hf (by decide),
    _, orElse_of_lookup hf (by decide) (hmember _) (decode_bool _),
    _, orElse_of_lookup hf (by decide) (hmember _) (decode_json _),
    _, option_ofOption (hmember _) ofLabel_ne_null hf (by decide) decode_ofLabel, rfl⟩

theorem isReadable_toJson {d : ClaimDraft} (hdepth : depth < maxDepth)
    (h : d.value.toJson.IsReadable (depth + 1)) : d.toJson.IsReadable depth :=
  isReadable_object hdepth (by simp [h])

end ClaimDraft

/-! ## Inputs of the gate -/

namespace Gate

namespace Input

/-- The input, with scores of zero left without their signs. -/
def dropZeroSigns (i : Input) : Input :=
  { i with
    confidence := i.confidence.map Decimal.dropZeroSign
    dhabt := i.dhabt.map Decimal.dropZeroSign }

theorem decode_toJson (i : Input) : Json.decode decode i.toJson = .ok i.dropZeroSigns := by
  refine decode_object layout fun hf hmember => ?_
  simp only [bind_eq_ok_iff]
  exact ⟨_, required_of_lookup hf (by decide) (hmember _) (decode_str _),
    _, option_ofDecimal (hmember _) hf (by decide),
    _, option_ofDecimal (hmember _) hf (by decide),
    _, orElse_of_lookup hf (by decide) (hmember _) (decode_bool _),
    _, option_ofOption (hmember _) ofLabel_ne_null hf (by decide) decode_ofLabel, rfl⟩

theorem isReadable_toJson (i : Input) (hdepth : depth < maxDepth) :
    i.toJson.IsReadable depth := isReadable_object hdepth (by simp)

end Input

namespace CalculationInput

/-- The input, with scores of zero left without their signs. -/
def dropZeroSigns (i : CalculationInput) : CalculationInput :=
  { i with
    confidence := i.confidence.map Decimal.dropZeroSign
    dhabt := i.dhabt.map Decimal.dropZeroSign }

theorem decode_toJson (i : CalculationInput) :
    Json.decode decode i.toJson = .ok i.dropZeroSigns := by
  refine decode_object layout fun hf hmember => ?_
  simp only [bind_eq_ok_iff]
  exact ⟨_, required_of_lookup hf (by decide) (hmember _) (decode_str _),
    _, option_ofDecimal (hmember _) hf (by decide),
    _, option_ofDecimal (hmember _) hf (by decide),
    _, required_of_lookup hf (by decide) (hmember _) (decode_str _),
    _, orElse_of_lookup hf (by decide) (hmember _) (decode_bool _),
    _, option_ofOption (hmember _) ofLabel_ne_null hf (by decide) decode_ofLabel,
    _, option_ofOption (hmember _) ofLabel_ne_null hf (by decide) decode_ofLabel, rfl⟩

theorem isReadable_toJson (i : CalculationInput) (hdepth : depth < maxDepth) :
    i.toJson.IsReadable depth := isReadable_object hdepth (by simp)

end CalculationInput
end Gate

/-! ## Outputs of debates -/

namespace Debate

namespace Account

/-- The account, with a confidence of zero left without its sign. -/
def dropZeroSigns (a : Account) : Account := { a with confidence := a.confidence.dropZeroSign }

theorem decode_toJson (a : Account) : Json.decode decode a.toJson = .ok a.dropZeroSigns := by
  refine decode_object layout fun hf hmember => ?_
  simp only [bind_eq_ok_iff]
  exact ⟨_, required_of_lookup hf (by decide) (hmember _) (decode_ofDecimal _),
    _, orElse_of_lookup hf (by decide) (hmember _) (decode_ofStrings _),
    _, orElse_of_lookup hf (by decide) (hmember _) (decode_ofStrings _),
    _, orElse_of_lookup hf (by decide) (hmember _) (decode_bool _),
    _, orElse_of_lookup hf (by decide) (hmember _) (decode_ofStrings _),
    _, orElse_of_lookup hf (by decide) (hmember _) (decode_ofStrings _),
    _, orElse_of_lookup hf (by decide) (hmember _) (decode_ofStrings _), rfl⟩

theorem isReadable_toJson (a : Account) (hdepth : depth + 1 < maxDepth) :
    a.toJson.IsReadable depth :=
  isReadable_object (by omega) (by simp [isReadable_ofStrings hdepth])

end Account

theorem Content.decode_toJson (c : Content) : Json.decode decode c.toJson = .ok c := by
  refine decode_object layout fun hf hmember => ?_
  simp only [bind_eq_ok_iff]
  exact ⟨_, orElse_of_lookup hf (by decide) (hmember _) (decode_json _),
    _, option_ofOption (hmember _) str_ne_null hf (by decide) decode_str,
    _, required_of_lookup hf (by decide) (hmember _) (decode_str _),
    _, orElse_of_lookup hf (by decide) (hmember _) (decode_ofStrings _), rfl⟩

theorem Content.isReadable_toJson {c : Content} (hdepth : depth + 1 < maxDepth)
    (h : c.details.toJson.IsReadable (depth + 1)) : c.toJson.IsReadable depth :=
  isReadable_object (by omega) (by simp [isReadable_ofStrings hdepth, h])

namespace Output

/-- The output, with a confidence of zero left without its sign. -/
def dropZeroSigns (o : Output) : Output := { o with account := o.account.dropZeroSigns }

theorem decode_toJson (o : Output) : Json.decode decode o.toJson = .ok o.dropZeroSigns := by
  refine decode_object layout fun hf hmember => ?_
  simp only [bind_eq_ok_iff]
  exact ⟨_, required_of_lookup hf (by decide) (hmember _) o.content.decode_toJson,
    _, required_of_lookup hf (by decide) (hmember _) o.account.decode_toJson,
    _, required_of_lookup hf (by decide) (hmember _) (decode_str _),
    _, required_of_lookup hf (by decide) (hmember _) (decode_ofLabel _), rfl⟩

theorem isReadable_toJson {o : Output} (hdepth : depth + 2 < maxDepth)
    (h : o.content.details.toJson.IsReadable (depth + 2)) : o.toJson.IsReadable depth :=
  isReadable_object (by omega) (by
    simp [Content.isReadable_toJson hdepth h, Account.isReadable_toJson, hdepth])

end Output
end Debate

/-! ## All records -/

/-- Each record is read back from what is written of it, field by field and but for the sign of a
zero, and so it is from a file of the text. A free-form value may be any that a document can hold.
From a text it is read back unless a number in it is rounded or it is nested too deep. -/
theorem records_read_back :
    (∀ s : Sanad, (∀ n ∈ s.chain, 0 ≤ n.timestamp.date.year ∧ n.timestamp.date.year ≤ 9999) →
      Json.decode Sanad.decode s.toJson = .ok s.dropZeroSigns ∧
        s.toJson.TextHolds Sanad.decode s.dropZeroSigns) ∧
    (∀ e : Evidence, Json.decode Evidence.decode e.toJson = .ok e ∧
      e.toJson.TextHolds Evidence.decode e) ∧
    (∀ c : Claim, Json.decode Claim.decode c.toJson = .ok c ∧
      (c.value.toJson.IsReadable 1 → c.toJson.TextHolds Claim.decode c)) ∧
    (∀ d : ClaimDraft, Json.decode ClaimDraft.decode d.toJson = .ok d.dropZeroSigns ∧
      (d.value.toJson.IsReadable 1 → d.toJson.TextHolds ClaimDraft.decode d.dropZeroSigns)) ∧
    (∀ i : Gate.Input, Json.decode Gate.Input.decode i.toJson = .ok i.dropZeroSigns ∧
      i.toJson.TextHolds Gate.Input.decode i.dropZeroSigns) ∧
    (∀ i : Gate.CalculationInput,
      Json.decode Gate.CalculationInput.decode i.toJson = .ok i.dropZeroSigns ∧
        i.toJson.TextHolds Gate.CalculationInput.decode i.dropZeroSigns) ∧
    ∀ o : Debate.Output, Json.decode Debate.Output.decode o.toJson = .ok o.dropZeroSigns ∧
      (o.content.details.toJson.IsReadable 2 →
        o.toJson.TextHolds Debate.Output.decode o.dropZeroSigns) := by
  refine ⟨fun s hs => ?_, fun e => ?_, fun c => ?_, fun d => ?_, fun i => ?_, fun i => ?_,
    fun o => ?_⟩
  · have hread := Sanad.decode_toJson hs
    exact ⟨hread, textHolds_of_isReadable (s.isReadable_toJson (by decide)) hread⟩
  · have hread := e.decode_toJson
    exact ⟨hread, textHolds_of_isReadable (e.isReadable_toJson (by decide)) hread⟩
  · have hread := c.decode_toJson
    exact ⟨hread, fun h => textHolds_of_isReadable (Claim.isReadable_toJson (by decide) h) hread⟩
  · have hread := d.decode_toJson
    exact ⟨hread, fun h =>
      textHolds_of_isReadable (ClaimDraft.isReadable_toJson (by decide) h) hread⟩
  · have hread := i.decode_toJson
    exact ⟨hread, textHolds_of_isReadable (i.isReadable_toJson (by decide)) hread⟩
  · have hread := i.decode_toJson
    exact ⟨hread, textHolds_of_isReadable (i.isReadable_toJson (by decide)) hread⟩
  · have hread := o.decode_toJson
    exact ⟨hread, fun h =>
      textHolds_of_isReadable (Debate.Output.isReadable_toJson (by decide) h) hread⟩

/-- A value within a value within a value. -/
def OrderedJson.nested : OrderedJson where
  toJson := .obj [("", .arr [.num (.int (-3)), .obj [("\n", .str "\"")]]), ("b", .null)]
  isOrdered := by
    refine .obj (by decide) ?_
    simp only [List.forall_mem_cons]
    refine ⟨.arr ?_, .null, nofun⟩
    simp only [List.forall_mem_cons]
    exact ⟨.num _, .obj (by decide) (by simpa using .str _), nofun⟩

theorem OrderedJson.isReadable_nested (h : depth + 2 < maxDepth) :
    nested.toJson.IsReadable depth := by
  refine .obj (by omega) ?_
  simp only [List.forall_mem_cons]
  refine ⟨.arr (by omega) ?_, .null, nofun⟩
  simp only [List.forall_mem_cons]
  exact ⟨.num (Number.isReadBack_int (by decide)), .obj h (by simp), nofun⟩

/-- A zero with a sign and two places. -/
def Decimal.signedZero : Decimal := { percent 0 (Nat.zero_le _) with negative := true }

/-- A sanad of a leap second, with zeros that have a sign. -/
def Sanad.atLeapSecond : Sanad :=
  let id : Uuid := ⟨List.replicate 32 (.castAdd 5 (.last 10)), List.length_replicate⟩
  { id, claim := id, primary := id
    corroborators := [id]
    confidence := .signedZero
    chain := [⟨id, .exported, .human, "\x7f",
      ⟨⟨2015, 6, 30, by decide⟩, .last 23, .last 59, .last 60, .last 999999999⟩, some .signedZero,
      none, some id⟩]
    defects := [⟨.circularity, .fatal, .discardClaim, .waived, ""⟩]
    grade := .b
    status := .ahad1
    independence := some ⟨true, false⟩ }

theorem records_read_back_nested :
    (Sanad.atLeapSecond.dropZeroSigns ≠ Sanad.atLeapSecond ∧
      Sanad.atLeapSecond.toJson.TextHolds Sanad.decode Sanad.atLeapSecond.dropZeroSigns) ∧
    (∃ c : Claim, c.value = .nested ∧ c.toJson.TextHolds Claim.decode c) ∧
    (∃ d : ClaimDraft, d.value = .nested ∧ d.toJson.TextHolds ClaimDraft.decode d.dropZeroSigns) ∧
    ∃ o : Debate.Output, o.content.details = .nested ∧
      o.toJson.TextHolds Debate.Output.decode o.dropZeroSigns := by
  obtain ⟨hsanad, -, hclaim, hdraft, -, -, houtput⟩ := records_read_back
  let id := Sanad.atLeapSecond.id
  refine ⟨⟨by decide, (hsanad _ (by decide)).2⟩,
    ⟨⟨id, .nested, .d, .contradicted, .flag, true, none, some " "⟩, rfl, ?_⟩,
    ⟨⟨id, .nested, some .signedZero, none, true, some .dualVerified⟩, rfl, ?_⟩,
    ⟨⟨.arbiter, "ruling", ⟨"", none, ["c"], .nested⟩, .ofConfidence .signedZero⟩, rfl, ?_⟩⟩
  · exact (hclaim _).2 (OrderedJson.isReadable_nested (by decide))
  · exact (hdraft _).2 (OrderedJson.isReadable_nested (by decide))
  · exact (houtput _).2 (OrderedJson.isReadable_nested (by decide))

end Isnad
