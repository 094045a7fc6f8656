import Isnad.Proofs.Document.Decimal
import Isnad.Proofs.Grading.Result
import Isnad.Proofs.Sanad.Spelling

/-!
# What was checked and what a sanad holds

A sanad is read from its document a second time once the checks have passed. The names in its links
are those of its nodes, an open fatal defect is one in both readings, and so is its grade. A
confidence is in the unit interval both times, and the same decimal unless its number is tied: then
the text of the document and the digits of the decoder round it to different neighbours
(`parse_reads`).
-/

namespace Isnad.Sanad

open Document Json

variable {doc : Members} {s : Sanad} {x y : Json}

/-! ## The two readings -/

/-- A decimal of the unit interval where it is checked and where it is decoded, the same one unless
its number is tied. -/
structure UnitReading (x : Json) (d : Decimal) : Prop where
  exists_checked : ∃ v, decimal? x = some v ∧ v.inUnitInterval = true ∧
    (d.toRat = v.toRat ↔ ¬ x.IsTied)
  decoded : d.inUnitInterval = true

/-- The confidence of a node, if it has one. -/
def ConfidenceReading (x : Json) (n : TransmissionNode) : Prop :=
  ∃ doc, x = .obj doc ∧ Option.Rel UnitReading (present? doc "confidence") n.confidence

/-- A link spells the identifiers of a node and of its parent. -/
structure LinkReading (l : ChainLink) (n : TransmissionNode) : Prop where
  id : Uuid.ofString? l.id = some n.id
  parent : l.parent.map Uuid.ofString? = n.parent.map some

/-! ## Fields -/

theorem unitReading_of_decode {d : Decimal} (hx : IsUnit x)
    (hd : Json.decode Decoder.decimal x = .ok d) : UnitReading x d := by
  obtain ⟨v, hv, hunit⟩ := hx
  have hv' := decimal?_eq_some_iff.mpr hv
  have hunit' := Decimal.inUnitInterval_iff_toRat.mpr hunit
  obtain ⟨hdecoded, hiff⟩ := toRat_decode_iff hv' hunit' hd
  exact ⟨⟨v, hv', hunit', hiff⟩, hdecoded⟩

theorem names_inj {α : Type} [Labelled α] {a b : α} (ha : Names a x) (hb : Names b x) : a = b :=
  Except.ok.inj ((decode_label_eq_ok_iff.mpr ha).symm.trans (decode_label_eq_ok_iff.mpr hb))

/-! ## Nodes -/

theorem confidenceReading_of_decode {n : TransmissionNode} (hx : IsObjectOf NodeConforms x)
    (hn : Json.decode TransmissionNode.decode x = .ok n) : ConfidenceReading x n := by
  obtain ⟨doc, rfl, hc⟩ := hx
  refine ⟨doc, rfl, ?_⟩
  simp only [Json.decode, TransmissionNode.decode, bind_eq_ok_iff] at hn
  obtain ⟨f, hf, _, -, _, -, confidence, hconfidence, _, -, _, -, _, -, _, -, _, -, hn⟩ := hn
  obtain rfl := Except.ok.inj hn
  have hread := (option_eq_ok_iff hf (by decide)).mp hconfidence
  have hunit := mayHold_iff.mp hc.confidence
  dsimp only
  cases hp : present? doc "confidence" with
  | none =>
    rw [hp] at hread
    rw [show confidence = none from hread]
    exact .none
  | some y =>
    rw [hp] at hread
    obtain ⟨d, rfl, hd⟩ := hread
    exact .some (unitReading_of_decode (hunit y hp) hd)

theorem linkReading_of_decode {nodes : List Json} {chain : List TransmissionNode}
    (h : List.Forall₂ (fun x n => Json.decode TransmissionNode.decode x = .ok n) nodes chain)
    (hconf : ∀ x ∈ nodes, IsObjectOf NodeConforms x) :
    List.Forall₂ LinkReading (nodeLinks nodes) chain := by
  have hnames := mapNames_of_decode h hconf
  rw [← lineage_nodeLinks hconf, Lineage.mapNames, Lineage.mapNames, ChainLink.lineage,
    List.map_map, List.map_map, ← List.forall₂_eq_eq_eq, List.forall₂_map_left_iff,
    List.forall₂_map_right_iff] at hnames
  refine hnames.imp fun l n hln => ?_
  obtain ⟨hid, hparent⟩ := Prod.mk.inj hln
  exact ⟨hid, hparent⟩

/-! ## Defects -/

theorem isOpenFatal_of_decode {d : Defect} (hx : IsObjectOf DefectConforms x)
    (hd : Json.decode Defect.decode x = .ok d) (hfatal : d.isOpenFatal = true) :
    IsObjectOf IsOpenFatal x := by
  obtain ⟨doc, rfl, hc⟩ := hx
  refine ⟨doc, rfl, ?_⟩
  simp only [Json.decode, Defect.decode, bind_eq_ok_iff] at hd
  obtain ⟨f, hf, _, -, _, -, _, -, severity, hseverity, status, hstatus, hd⟩ := hd
  obtain rfl := Except.ok.inj hd
  obtain ⟨rfl, rfl⟩ : status = .opened ∧ severity = .fatal := by
    simpa [Defect.isOpenFatal, Defect.isOpen] using hfatal
  constructor
  · obtain ⟨y, hy, hread⟩ := present?_of_required hf (by decide) (by simp [Decoder.label]) hseverity
    exact holds_iff.mpr ⟨y, hy, decode_label_eq_ok_iff.mp hread⟩
  · rw [mayHold_iff]
    intro y hy
    rcases present?_of_orElse hf (by decide) (by simp [Decoder.label]) hstatus with
      ⟨hnone, -⟩ | ⟨z, hz, hread⟩
    · rw [hnone] at hy
      cases hy
    · obtain rfl := Option.some.inj (hy.symm.trans hz)
      exact decode_label_eq_ok_iff.mp hread

/-- The members of a document of which the sanad holds more than identifiers. -/
theorem members_of_decode (h : Json.decode decode (.obj doc) = .ok s) :
    (∃ y, present? doc "extraction_confidence" = some y ∧
        Json.decode Decoder.decimal y = .ok s.confidence) ∧
      (∃ y, present? doc "sanad_grade" = some y ∧ Names s.grade y) ∧
      (s.defects = [] ∨ ∃ items, present? doc "defects" = some (.arr items) ∧
        List.Forall₂ (fun x d => Json.decode Defect.decode x = .ok d) items s.defects) := by
  simp only [Json.decode, decode, bind_eq_ok_iff] at h
  obtain ⟨f, hf, _, -, _, -, _, -, defects, hdefects, confidence, hconfidence, _, -, _, -, grade,
    hgrade, _, -, _, -, h⟩ := h
  obtain rfl := Except.ok.inj h
  obtain ⟨y, hy, hread⟩ := present?_of_required hf (by decide) (by simp [Decoder.label]) hgrade
  refine ⟨present?_of_required hf (by decide) (by simp [Decoder.decimal]) hconfidence,
    ⟨y, hy, decode_label_eq_ok_iff.mp hread⟩, ?_⟩
  rcases present?_of_orElse hf (by decide) (by simp [Decoder.list]) hdefects with
    ⟨-, rfl⟩ | ⟨z, hz, hlist⟩
  · exact .inl rfl
  · obtain ⟨items, rfl, hitems⟩ := decode_list_eq_ok_iff.mp hlist
    exact .inr ⟨items, hz, hitems⟩

theorem hasOpenFatal_of_decode (hc : Conforms doc) (h : Json.decode decode (.obj doc) = .ok s)
    (hfatal : s.hasOpenFatal = true) : HasOpenFatal doc := by
  obtain ⟨d, hd, hopen⟩ := hasOpenFatal_iff.mp hfatal
  obtain ⟨-, -, hnil | ⟨items, hitems, hread⟩⟩ := members_of_decode h
  · rw [hnil] at hd
    cases hd
  · obtain ⟨_, hlist, hconform⟩ := mayHold_iff.mp hc.defects _ hitems
    cases hlist
    obtain ⟨y, hy, hyd⟩ := forall₂_exists_of_mem hread hd
    have hfatal := isOpenFatal_of_decode (hconform y hy) hyd hopen
    exact holds_iff.mpr ⟨_, hitems, items, rfl, y, hy, hfatal⟩

/-! ## The sanad -/

theorem unitReading_of_parse (h : parse (.obj doc) = .ok s) :
    ∃ y, present? doc "extraction_confidence" = some y ∧ UnitReading y s.confidence := by
  obtain ⟨hpassed, hs⟩ := parse_eq_ok_iff.mp h
  obtain ⟨doc, hdoc, hnil⟩ := passed_iff_memberIssues.mp hpassed
  cases hdoc
  have hc := memberIssues_eq_nil_iff.mp hnil
  obtain ⟨⟨y, hy, hconfidence⟩, -⟩ := members_of_decode hs
  obtain ⟨w, hw, hunit⟩ := holds_iff.mp hc.confidence
  obtain rfl := Option.some.inj (hy.symm.trans hw)
  exact ⟨y, hy, unitReading_of_decode hunit hconfidence⟩

theorem grade_of_parse (h : parse (.obj doc) = .ok s) (hfatal : s.hasOpenFatal = true) :
    s.grade = .d := by
  obtain ⟨hpassed, hs⟩ := parse_eq_ok_iff.mp h
  obtain ⟨doc, hdoc, hnil⟩ := passed_iff_memberIssues.mp hpassed
  cases hdoc
  have hc := memberIssues_eq_nil_iff.mp hnil
  obtain ⟨-, ⟨z, hz, hgrade⟩, -⟩ := members_of_decode hs
  obtain ⟨w, hw, hd⟩ := holds_iff.mp (hc.gradeOfFatal (hasOpenFatal_of_decode hc hs hfatal))
  obtain rfl := Option.some.inj (hz.symm.trans hw)
  exact names_inj hgrade hd

/-- What a sanad holds is what was checked of its document: its chain has a node for each link and
is not empty, an open fatal defect comes with the weakest grade, and the confidences are those of
the document but for tied numbers. -/
theorem parse_reads (h : parse x = .ok s) :
    ∃ doc y nodes, x = .obj doc ∧ present? doc "extraction_confidence" = some y ∧
      present? doc "transmission_chain" = some (.arr nodes) ∧ s.chain ≠ [] ∧
      (s.hasOpenFatal = true → s.grade = .d) ∧ UnitReading y s.confidence ∧
      List.Forall₂ ConfidenceReading nodes s.chain ∧
      List.Forall₂ LinkReading (nodeLinks nodes) s.chain := by
  obtain ⟨hpassed, hs⟩ := parse_eq_ok_iff.mp h
  obtain ⟨doc, rfl, hnil⟩ := passed_iff_memberIssues.mp hpassed
  have hc := memberIssues_eq_nil_iff.mp hnil
  obtain ⟨y, hy, hreading⟩ := unitReading_of_parse h
  obtain ⟨nodes, hnodes, hread⟩ := chain_of_decode hs
  obtain ⟨_, hx, nodes', rfl, hchain⟩ := holds_iff.mp hc.chain
  obtain rfl : nodes = nodes' := by simpa [hnodes] using hx
  refine ⟨doc, y, nodes, rfl, hy, hnodes, ?_, grade_of_parse h, hreading, ?_,
    linkReading_of_decode hread hchain.nodes⟩
  · intro hnil
    rw [hnil, List.forall₂_nil_right_iff] at hread
    exact hchain.nonempty hread
  · have hboth := (List.forall₂_and_left _ _).mpr ⟨hchain.nodes, hread⟩
    exact hboth.imp fun _ _ ⟨hx, hn⟩ => confidenceReading_of_decode hx hn

/-! ## A tied confidence -/

/-- A sanad with a confidence. -/
def withConfidence (c : Binary64) : Members :=
  insertMember "extraction_confidence" (.num (.float c)) (twoNodes lowerName otherName lowerName)

def oneHalf : Binary64 :=
  ⟨false, 2 ^ 52, -53, by decide, by decide, by decide, .inl (by decide)⟩

/-- One half and a little more, `0.50000762939453125`, which lies halfway between two decimals of
sixteen digits. -/
def overOneHalf : Binary64 :=
  ⟨false, 2 ^ 52 + 2 ^ 36, -53, by decide, by decide, by decide, .inl (by decide)⟩

theorem parse_reads_oneHalf :
    ∃ s y, parse (.obj (withConfidence oneHalf)) = .ok s ∧
      present? (withConfidence oneHalf) "extraction_confidence" = some y ∧ ¬ y.IsTied ∧
      UnitReading y s.confidence := by
  obtain ⟨s, hs, -⟩ := exists_of_any_toOption (x := parse (.obj (withConfidence oneHalf)))
    (p := fun _ => true) (by decide +kernel)
  obtain ⟨doc, y, -, hdoc, hy, -, -, -, hreading, -⟩ := parse_reads hs
  cases hdoc
  have hpresent : present? (withConfidence oneHalf) "extraction_confidence" =
      some (.num (.float oneHalf)) := rfl
  obtain rfl := Option.some.inj (hpresent.symm.trans hy)
  exact ⟨s, _, hs, hy, by decide +kernel, hreading⟩

/-- The confidence that was checked is not always the one that the sanad holds. -/
theorem not_parse_reads_same :
    ¬ ∀ doc s y v, parse (.obj doc) = .ok s → present? doc "extraction_confidence" = some y →
      decimal? y = some v → s.confidence.toRat = v.toRat := by
  intro h
  obtain ⟨s, hs, -⟩ := exists_of_any_toOption (x := parse (.obj (withConfidence overOneHalf)))
    (p := fun _ => true) (by decide +kernel)
  obtain ⟨y, hy, ⟨v, hv, -, hiff⟩, -⟩ := unitReading_of_parse hs
  have hpresent : present? (withConfidence overOneHalf) "extraction_confidence" =
      some (.num (.float overOneHalf)) := rfl
  obtain rfl := Option.some.inj (hpresent.symm.trans hy)
  exact hiff.mp (h _ s _ v hs hy hv) (by decide +kernel)

end Isnad.Sanad
