import Isnad.Proofs.Document.Decimal
import Isnad.Proofs.Sanad.Grammar
import Isnad.Proofs.Timestamp

/-!
# Which documents of the grammar can be read

A sanad is decoded by its own reader, which minds some things that the checks let pass: a null for a
list or a status that has a value of its own where it is absent, and a numeral in a string between
blanks. These are all there are (`Sanad.decodes_iff`).
-/

namespace Isnad

open Document Json

variable {doc : Members} {x : Json}

/-! ## Parts -/

theorem TransmissionNode.decodes_iff (hc : Sanad.NodeConforms doc) (hord : IsOrdered (.obj doc)) :
    Decodes decode (.obj doc) ↔ ∀ y, doc.lookup "confidence" = some y → ¬ y.IsPadded := by
  obtain ⟨f, hf⟩ := exists_read layout hord.names_nodup
  rw [← mayHold_decodes_decimal_iff hc.confidence]
  change (∃ n, decode (Json.obj doc).toWritten = .ok n) ↔ _
  simp (disch := decide) only [decode, exists_bind_eq_ok_iff, hf, Except.ok.injEq, exists_eq_left',
    pure, Except.pure, exists_eq', and_true, exists_and_right, exists_required_iff hf,
    exists_option_iff hf]
  constructor
  · rintro ⟨-, -, hconfidence, -⟩
    exact hconfidence
  · exact fun hconfidence => ⟨hc.actor.exists_lookup fun _ => decodes_of_isText,
      hc.actorType.exists_lookup fun _ => decodes_label_iff.mpr, hconfidence,
      hc.id.exists_lookup fun _ => decodes_uuid_iff.mpr,
      hc.type.exists_lookup fun _ => decodes_label_iff.mpr,
      hc.parent.imp fun _ => decodes_uuid_iff.mpr, hc.previous.imp fun _ => decodes_uuid_iff.mpr,
      hc.timestamp.exists_lookup fun _ => decodes_of_isTime⟩

theorem Defect.decodes_iff (hc : Sanad.DefectConforms doc) (hord : IsOrdered (.obj doc)) :
    Decodes decode (.obj doc) ↔ doc.lookup "status" ≠ some .null := by
  obtain ⟨f, hf⟩ := exists_read layout hord.names_nodup
  change (∃ d, decode (Json.obj doc).toWritten = .ok d) ↔ _
  simp (disch := decide) only [decode, exists_bind_eq_ok_iff, hf, Except.ok.injEq, exists_eq_left',
    pure, Except.pure, exists_eq', and_true, exists_and_right, exists_required_iff hf,
    exists_orElse_iff hf, decodes_label_iff]
  constructor
  · rintro ⟨-, -, -, -, hstatus⟩ hnull
    obtain ⟨_, h⟩ := hstatus _ hnull
    cases h
  · exact fun hnull => ⟨hc.cure.exists_lookup fun _ => id, hc.type.exists_lookup fun _ => id,
      hc.description.exists_lookup fun _ => decodes_of_isText,
      hc.severity.exists_lookup fun _ => id,
      fun y hy => hc.status y hy (by rintro rfl; exact hnull hy)⟩

theorem IndependenceCheck.decodes_of_isIndependence (h : Sanad.IsIndependence x)
    (hord : x.IsOrdered) : Decodes decode x := by
  obtain ⟨⟨b, hb⟩, b', hb'⟩ := h
  cases x with
  | obj doc =>
    obtain ⟨f, hf⟩ := exists_read layout hord.names_nodup
    change ∃ c, decode (Json.obj doc).toWritten = .ok c
    simp (disch := decide) only [decode, exists_bind_eq_ok_iff, hf, Except.ok.injEq,
      exists_eq_left', pure, Except.pure, exists_eq', and_true, exists_and_right,
      exists_required_iff hf]
    exact ⟨⟨_, hb', _, rfl⟩, _, hb, _, rfl⟩
  | _ => cases hb

/-! ## The document -/

namespace Sanad

/-- What the checks of a sanad document let pass although it cannot be read. -/
inductive Unreadable (x : Json) : Prop where
  | corroborators (h : x.member? "corroborating_evidence_ids" = some .null)
  | defects (h : x.member? "defects" = some .null)
  | status {defects : List Json} {d : Json} (h : x.member? "defects" = some (.arr defects))
      (hd : d ∈ defects) (hstatus : d.member? "status" = some .null)
  | confidence {y : Json} (h : x.member? "extraction_confidence" = some y) (hy : y.IsPadded)
  | nodeConfidence {nodes : List Json} {n y : Json}
      (h : x.member? "transmission_chain" = some (.arr nodes)) (hn : n ∈ nodes)
      (hconfidence : n.member? "confidence" = some y) (hy : y.IsPadded)

/-- Where a list may be left out, it cannot be null. -/
theorem forall_decodes_list_iff {α : Type} {d : Decoder α} {name : String} {P : Json → Prop}
    (h : MayHold doc name (IsListOf P)) :
    (∀ x, doc.lookup name = some x → Decodes (.list d) x) ↔
      doc.lookup name ≠ some .null ∧
        ∀ items, doc.lookup name = some (.arr items) → ∀ y ∈ items, Decodes d y := by
  simp only [decodes_list_iff]
  constructor
  · intro hread
    refine ⟨fun hnull => ?_, fun items hitems y hy => ?_⟩
    · obtain ⟨items, heq, -⟩ := hread _ hnull
      cases heq
    · obtain ⟨items', heq, hall⟩ := hread _ hitems
      cases heq
      exact hall y hy
  · rintro ⟨hnull, hall⟩ x hx
    have hn : x ≠ .null := by
      rintro rfl
      exact hnull hx
    obtain ⟨items, rfl, -⟩ := h x hx hn
    exact ⟨items, rfl, hall items hx⟩

theorem decodes_defect_iff (h : IsObjectOf DefectConforms x) (hord : x.IsOrdered) :
    Decodes Defect.decode x ↔ x.member? "status" ≠ some .null := by
  obtain ⟨doc, rfl, hc⟩ := h
  exact Defect.decodes_iff hc hord

theorem decodes_node_iff (h : IsObjectOf NodeConforms x) (hord : x.IsOrdered) :
    Decodes TransmissionNode.decode x ↔ ∀ y, x.member? "confidence" = some y → ¬ y.IsPadded := by
  obtain ⟨doc, rfl, hc⟩ := h
  exact TransmissionNode.decodes_iff hc hord

/-- A document of the grammar can be read but for the listed cases. -/
theorem decodes_iff (hc : Conforms doc) (hord : IsOrdered (.obj doc)) :
    Decodes decode (.obj doc) ↔ ¬ Unreadable (.obj doc) := by
  obtain ⟨f, hf⟩ := exists_read layout hord.names_nodup
  obtain ⟨chain, hchain, -, nodes, rfl, hnodes⟩ := hc.chain
  obtain ⟨c, hconfidence, -, hunit⟩ := hc.confidence
  have hitem : ∀ {name items y}, doc.lookup name = some (.arr items) → y ∈ items → y.IsOrdered :=
    fun h hy => IsOrdered.of_mem (hord.member? h) hy
  have hdefect : ∀ {items d}, doc.lookup "defects" = some (.arr items) → d ∈ items →
      IsObjectOf DefectConforms d := by
    intro items d h hd
    obtain ⟨_, heq, hall⟩ := hc.defects _ h nofun
    cases heq
    exact hall d hd
  change (∃ s, decode (Json.obj doc).toWritten = .ok s) ↔ _
  simp (disch := decide) only [decode, exists_bind_eq_ok_iff, hf, Except.ok.injEq, exists_eq_left',
    pure, Except.pure, exists_eq', and_true, exists_and_right, exists_required_iff hf,
    exists_orElse_iff hf, exists_option_iff hf, forall_decodes_list_iff hc.corroborators,
    forall_decodes_list_iff hc.defects]
  constructor
  · rintro ⟨-, ⟨hcorroborators, -⟩, -, ⟨hdefects, hdefectsRead⟩, ⟨c', hc', hread⟩, -, -, -, -,
      chain', hchain', hnodesRead⟩ hunread
    cases hunread with
    | corroborators h => exact hcorroborators h
    | defects h => exact hdefects h
    | status h hd hstatus =>
      exact (decodes_defect_iff (hdefect h hd) (hitem h hd)).mp (hdefectsRead _ h _ hd) hstatus
    | confidence h hy =>
      cases hconfidence.symm.trans hc'
      cases hconfidence.symm.trans h
      exact (decodes_decimal_iff hunit).mp hread hy
    | nodeConfidence h hn hconfidence hy =>
      cases hchain.symm.trans hchain'
      cases hchain.symm.trans h
      obtain ⟨_, heq, hall⟩ := decodes_list_iff.mp hnodesRead
      cases heq
      exact (decodes_node_iff (hnodes.nodes _ hn) (hitem hchain hn)).mp (hall _ hn) _ hconfidence hy
  · intro hread
    refine ⟨hc.claim.exists_lookup fun _ => decodes_uuid_iff.mpr,
      ⟨fun h => hread (.corroborators h), fun items h y hy => ?_⟩,
      hc.status.exists_lookup fun _ => decodes_label_iff.mpr,
      ⟨fun h => hread (.defects h), fun items h d hd => ?_⟩,
      ⟨c, hconfidence,
        (decodes_decimal_iff hunit).mpr fun hy => hread (.confidence hconfidence hy)⟩,
      fun y hy hn => ?_,
      hc.primary.exists_lookup fun _ => decodes_uuid_iff.mpr,
      hc.grade.exists_lookup fun _ => decodes_label_iff.mpr,
      hc.id.exists_lookup fun _ => decodes_uuid_iff.mpr,
      _, hchain, decodes_list_iff.mpr ⟨nodes, rfl, fun n hn => ?_⟩⟩
    · obtain ⟨_, heq, hall⟩ := hc.corroborators _ h nofun
      cases heq
      exact decodes_uuid_iff.mpr (hall y hy)
    · exact (decodes_defect_iff (hdefect h hd) (hitem h hd)).mpr fun hstatus =>
        hread (.status h hd hstatus)
    · exact IndependenceCheck.decodes_of_isIndependence (hc.independence y hy hn) (hord.member? hy)
    · exact (decodes_node_iff (hnodes.nodes n hn) (hitem hchain hn)).mpr fun y hy hpad =>
        hread (.nodeConfidence hchain hn hy hpad)

end Sanad
end Isnad
