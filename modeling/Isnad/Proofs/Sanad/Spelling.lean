import Isnad.Proofs.Document.Record
import Isnad.Proofs.Sanad.Codes
import Isnad.Proofs.Sanad.Grammar
import Isnad.Proofs.Uuid

/-!
# Chains by text and by identifier

The checks of a document compare the names of nodes as texts, and a sanad read from it has
identifiers. An identifier has several spellings. The two views of a chain differ if two nodes have
one identifier in two spellings, which only the second view sees, or if a parent is spelled
otherwise than its node, which only the first one minds. There are no other differences
(`unlinked_iff_isSound_iff`).
-/

namespace Isnad.Sanad

open Document Json Issue

variable {doc : Members} {s : Sanad}

/-- The chain of a sanad by the identifiers of its nodes and of their parents. -/
def lineage (s : Sanad) : Lineage Uuid := s.chain.map fun n => (n.id, n.parent)

/-- The checks of single nodes find nothing. -/
def NodesPass (doc : Members) : Prop :=
  ∀ nodes, present? doc "transmission_chain" = some (.arr nodes) → itemIssues nodeIssues nodes = []

/-- Each parent is spelled as the node is that has its identifier. -/
def SpelledAlike (doc : Members) : Prop :=
  ∀ nodes, present? doc "transmission_chain" = some (.arr nodes) →
    Lineage.NamesAgree Uuid.ofString? (nodes.map nodeEntry)

/-! ## Reading the chain -/

section Reading

variable {l : Layout} {f : Fields Number} {name : String}

theorem reference_of_option {o : Option Uuid} (h : l.read (Json.obj doc).toWritten = .ok f)
    (hn : name ∈ l.names) (ho : f.option name .uuid = .ok o) :
    match present? doc name with
    | none => o = none
    | some x => ∃ t u, text? x = some t ∧ Uuid.ofString? t = some u ∧ o = some u := by
  have ho' := (option_eq_ok_iff h hn).mp ho
  cases hx : present? doc name with
  | none => simpa [hx] using ho'
  | some x =>
    rw [hx] at ho'
    obtain ⟨u, rfl, hu⟩ := ho'
    obtain ⟨t, rfl, ht⟩ := decode_uuid_eq_ok_iff.mp hu
    exact ⟨t, u, rfl, ht, rfl⟩

end Reading

/-- A node is read with the identifiers that its names spell. -/
theorem nodeEntry_of_decode {n : TransmissionNode}
    (h : Json.decode TransmissionNode.decode (.obj doc) = .ok n) :
    Prod.map Uuid.ofString? (Option.map Uuid.ofString?) (nodeEntry (.obj doc)) =
      Prod.map some (Option.map some) (n.id, n.parent) := by
  simp only [Json.decode, TransmissionNode.decode, bind_eq_ok_iff] at h
  obtain ⟨f, hf, _, -, _, -, _, -, id, hid, _, -, parentRef, hparent, previous, hprevious, _, -,
    h⟩ := h
  obtain rfl := Except.ok.inj h
  obtain ⟨x, hx, hu⟩ := present?_of_required hf (by decide) (by simp [Decoder.uuid]) hid
  obtain ⟨t, rfl, ht⟩ := decode_uuid_eq_ok_iff.mp hu
  have hname : ((present? doc "node_id").bind text?).getD "" = t := by
    rw [hx]
    rfl
  have hentry : Option.map Uuid.ofString? (parentText? doc) =
      Option.map some (previous <|> parentRef) := by
    have hprev := reference_of_option hf (by decide) hprevious
    have hpar := reference_of_option hf (by decide) hparent
    unfold parentText?
    cases hp : present? doc "prev_node_id" with
    | some y =>
      rw [hp] at hprev
      obtain ⟨r, u, hr, hu, rfl⟩ := hprev
      simp [hr, hu]
    | none =>
      rw [hp] at hprev
      obtain rfl : previous = none := hprev
      cases hq : present? doc "parent_id" with
      | some y =>
        rw [hq] at hpar
        obtain ⟨r, u, hr, hu, rfl⟩ := hpar
        simp [hr, hu]
      | none =>
        rw [hq] at hpar
        obtain rfl : parentRef = none := hpar
        rfl
  rw [nodeEntry, hname]
  exact Prod.ext ht hentry

theorem chain_of_decode (h : Json.decode decode (.obj doc) = .ok s) :
    ∃ nodes, present? doc "transmission_chain" = some (.arr nodes) ∧
      List.Forall₂ (fun x n => Json.decode TransmissionNode.decode x = .ok n) nodes s.chain := by
  simp only [Json.decode, decode, bind_eq_ok_iff] at h
  obtain ⟨f, hf, _, -, _, -, _, -, _, -, _, -, _, -, _, -, _, -, _, -, chain, hchain, h⟩ := h
  obtain rfl := Except.ok.inj h
  obtain ⟨x, hx, hlist⟩ := present?_of_required hf (by decide) (by simp [Decoder.list]) hchain
  obtain ⟨nodes, rfl, hnodes⟩ := decode_list_eq_ok_iff.mp hlist
  exact ⟨nodes, hx, hnodes⟩

/-- The identifiers of a chain are what the names of its nodes spell. -/
theorem mapNames_of_decode {nodes : List Json} {chain : List TransmissionNode}
    (h : List.Forall₂ (fun x n => Json.decode TransmissionNode.decode x = .ok n) nodes chain)
    (hobj : ∀ x ∈ nodes, IsObjectOf NodeConforms x) :
    Lineage.mapNames Uuid.ofString? (nodes.map nodeEntry) =
      Lineage.mapNames some (chain.map fun n => (n.id, n.parent)) := by
  induction h with
  | nil => rfl
  | @cons x n xs ns hx _ ih =>
    obtain ⟨doc, rfl, -⟩ := hobj x List.mem_cons_self
    have htail := ih fun y hy => hobj y (List.mem_cons_of_mem _ hy)
    simp only [Lineage.mapNames, List.map_cons] at htail ⊢
    rw [nodeEntry_of_decode hx, htail]

/-! ## The two views -/

theorem lineage_ofNodes (s : Sanad) :
    ChainLink.lineage (ChainLink.ofNodes s.chain) = s.lineage.mapNames Uuid.toString := by
  apply List.ext_getElem
  · simp [ChainLink.lineage, ChainLink.ofNodes, Lineage.mapNames, lineage]
  · intro i _ _
    simp [ChainLink.lineage, ChainLink.ofNodes, Lineage.mapNames, lineage]

/-- A chain of nodes is sound if it is empty or a tree by their identifiers. -/
theorem isSound_ofNodes_iff (h : s.chain ≠ []) :
    (Linkage.ofLinks (ChainLink.ofNodes s.chain)).isSound = true ↔ s.lineage.IsTree := by
  have hne : ChainLink.ofNodes s.chain ≠ [] := by simpa [ChainLink.ofNodes] using h
  rw [Linkage.isSound_iff_isTree hne, lineage_ofNodes,
    Lineage.isTree_mapNames_iff Uuid.toString_injective]

theorem names_lineage (s : Sanad) : s.lineage.names = s.chain.map (·.id) := by
  simp [lineage, Lineage.names, Function.comp_def]

/-- The texts of a chain without repeated identifiers link it as the identifiers do where parents
are spelled as their nodes. -/
theorem unlinked_and_distinct_iff (hs : Json.decode decode (.obj doc) = .ok s)
    (hpass : NodesPass doc) :
    NoneOfLinkage (validate (.obj doc)).errors ∧ (s.chain.map (·.id)).Nodup ↔
      (Linkage.ofLinks (ChainLink.ofNodes s.chain)).isSound = true ∧ SpelledAlike doc := by
  obtain ⟨nodes, hnodes, hread⟩ := chain_of_decode hs
  have hconf : ∀ x ∈ nodes, IsObjectOf NodeConforms x :=
    (itemIssues_eq_nil_iff_forall (P := IsObjectOf NodeConforms)
      fun _ _ => nodeIssues_eq_nil_iff).mp (hpass nodes hnodes)
  have halike : SpelledAlike doc ↔ Lineage.NamesAgree Uuid.ofString? (nodes.map nodeEntry) := by
    simp [SpelledAlike, hnodes]
  rw [noneOfLinkage_errors_iff hnodes, halike]
  cases nodes with
  | nil =>
    obtain hchain : s.chain = [] := by simpa using hread
    simp [hchain, nodeLinks, ChainLink.ofNodes, Linkage.isSound_nil, Lineage.NamesAgree,
      Lineage.IsParent]
  | cons x xs =>
    have hchain : s.chain ≠ [] := by
      intro h
      simp [h] at hread
    have hlinks : nodeLinks (x :: xs) ≠ [] :=
      mt (nodeLinks_eq_nil_iff hconf).mp (List.cons_ne_nil _ _)
    have hmap := mapNames_of_decode hread hconf
    have hdistinct : (s.chain.map (·.id)).Nodup ↔
        ((Lineage.names ((x :: xs).map nodeEntry)).map Uuid.ofString?).Nodup := by
      rw [← Lineage.names_mapNames, hmap, Lineage.names_mapNames,
        List.nodup_map_iff (Option.some_injective _), ← lineage, names_lineage]
    rw [Linkage.isSound_iff_isTree hlinks, lineage_nodeLinks hconf, isSound_ofNodes_iff hchain,
      hdistinct, Lineage.isTree_and_distinct_iff, hmap,
      Lineage.isTree_mapNames_iff (Option.some_injective _), lineage]

theorem distinct_of_isSound (h : (Linkage.ofLinks (ChainLink.ofNodes s.chain)).isSound = true) :
    (s.chain.map (·.id)).Nodup := by
  by_cases hne : s.chain = []
  · simp [hne]
  · exact names_lineage s ▸ ((isSound_ofNodes_iff hne).mp h).distinct

theorem parse_eq_ok_iff {x : Json} :
    parse x = .ok s ↔ (validate x).passed = true ∧ Json.decode decode x = .ok s := by
  unfold parse Report.accepted
  cases (validate x).passed with
  | false => simp [bind, Except.bind]
  | true => cases Json.decode decode x <;> simp [bind, Except.bind]

/-- The checks of a document and the identifiers of its sanad agree on the linkage of the chain
exactly if two spellings of one identifier make no difference: no two nodes share one where the
texts link well, and no parent is spelled otherwise than its node where the identifiers do. The
chain of a sanad that passed the checks is a tree exactly if no identifier is repeated. -/
theorem unlinked_iff_isSound_iff (doc : Members) (s : Sanad)
    (hs : Json.decode decode (.obj doc) = .ok s) (hpass : NodesPass doc) :
    ((NoneOfLinkage (validate (.obj doc)).errors ↔
        (Linkage.ofLinks (ChainLink.ofNodes s.chain)).isSound = true) ↔
      (NoneOfLinkage (validate (.obj doc)).errors → (s.chain.map (·.id)).Nodup) ∧
        ((Linkage.ofLinks (ChainLink.ofNodes s.chain)).isSound = true → SpelledAlike doc)) ∧
    (parse (.obj doc) = .ok s → (s.lineage.IsTree ↔ (s.chain.map (·.id)).Nodup)) := by
  have hboth := unlinked_and_distinct_iff hs hpass
  constructor
  · constructor
    · intro h
      refine ⟨fun hu => distinct_of_isSound (h.mp hu), fun ht => ?_⟩
      exact (hboth.mp ⟨h.mpr ht, distinct_of_isSound ht⟩).2
    · rintro ⟨hdistinct, halike⟩
      exact ⟨fun hu => (hboth.mp ⟨hu, hdistinct hu⟩).1, fun ht => (hboth.mpr ⟨ht, halike ht⟩).1⟩
  · intro hparse
    have hconf : Conforms doc := by
      have hpassed := (parse_eq_ok_iff.mp hparse).1
      rwa [validate, Report.ofIssues, List.isEmpty_iff, memberIssues_eq_nil_iff] at hpassed
    obtain ⟨nodes, hnodes, hread⟩ := chain_of_decode hs
    obtain ⟨_, hx, hn, nodes', rfl, hchain⟩ := hconf.chain
    obtain rfl : nodes = nodes' := by
      simpa [hnodes] using present?_eq_some_iff.mpr ⟨hx, hn⟩
    have hne : s.chain ≠ [] := by
      intro h
      rw [h, List.forall₂_nil_right_iff] at hread
      exact hchain.nonempty hread
    constructor
    · exact fun ht => names_lineage s ▸ ht.distinct
    · intro hd
      refine (isSound_ofNodes_iff hne).mp (hboth.mp ⟨?_, hd⟩).1
      have hnil : (validate (.obj doc)).errors = [] := memberIssues_eq_nil_iff.mpr hconf
      rw [hnil]
      exact noneOfLinkage_nil

/-! ## Two spellings of one identifier -/

/-- A sanad of two nodes by their names, the second of which has a parent of the given name. -/
def twoNodes (first second parent : String) : Members :=
  let node (id : String) (rest : Members) : Json :=
    .obj ([("actor_id", .str "extractor"), ("actor_type", .str "AGENT"), ("node_id", .str id),
      ("node_type", .str "EXTRACT")] ++ rest ++ [("timestamp", .str "2026-01-01T00:00:00Z")])
  [("claim_id", .str first), ("corroboration_status", .str "NONE"),
    ("extraction_confidence", .num (.int 1)), ("primary_evidence_id", .str first),
    ("sanad_grade", .str "B"), ("sanad_id", .str first),
    ("transmission_chain", .arr [node first [], node second [("prev_node_id", .str parent)]])]

def lowerName : String := "0a3779b1-0001-4001-a007-0100000001b3"

/-- Another spelling of `lowerName`. -/
def upperName : String := "0A3779B1-0001-4001-A007-0100000001B3"

def otherName : String := "00000000-0000-4000-8000-000000000002"

theorem nodesPass_of_all (h : ((present? doc "transmission_chain").all fun
    | .arr nodes => (itemIssues nodeIssues nodes).isEmpty
    | _ => true) = true) : NodesPass doc := by
  intro nodes hnodes
  rw [hnodes] at h
  exact List.isEmpty_iff.mp h

theorem isTree_of_lowerName :
    ∃ s, parse (.obj (twoNodes lowerName otherName lowerName)) = .ok s ∧ s.lineage.IsTree := by
  obtain ⟨s, hs, hd⟩ := exists_of_any_toOption
    (x := parse (.obj (twoNodes lowerName otherName lowerName)))
    (p := fun s : Sanad => decide (s.chain.map TransmissionNode.id).Nodup) (by decide +kernel)
  have h := unlinked_iff_isSound_iff _ s (parse_eq_ok_iff.mp hs).2
    (nodesPass_of_all (by decide +kernel))
  exact ⟨s, hs, (h.2 hs).mpr (of_decide_eq_true hd)⟩

/-- A parent in upper case is an orphan reference by text and no issue by identifier; a node that
repeats an identifier in upper case passes all checks. -/
theorem not_unlinked_iff_isSound :
    ¬ (∀ doc s, Json.decode decode (.obj doc) = .ok s → NodesPass doc →
      (NoneOfLinkage (validate (.obj doc)).errors ↔
        (Linkage.ofLinks (ChainLink.ofNodes s.chain)).isSound = true)) ∧
    ¬ (∀ x s, parse x = .ok s → (s.chain.map (·.id)).Nodup) := by
  constructor
  · intro h
    obtain ⟨s, hs, ht⟩ := exists_of_any_toOption
      (x := Json.decode decode (.obj (twoNodes lowerName otherName upperName)))
      (p := fun s => (Linkage.ofLinks (ChainLink.ofNodes s.chain)).isSound) (by decide +kernel)
    have hu := (h _ s hs (nodesPass_of_all (by decide +kernel))).mpr ht
    have hall : (validate (.obj (twoNodes lowerName otherName upperName))).errors.all
        (fun i => !i.code.isLinkage) = false := by decide +kernel
    rw [List.all_eq_false] at hall
    obtain ⟨i, hi, hlink⟩ := hall
    exact hlink (by rw [hu i hi]; rfl)
  · intro h
    obtain ⟨s, hs, hd⟩ := exists_of_any_toOption
      (x := parse (.obj (twoNodes lowerName upperName lowerName)))
      (p := fun s : Sanad => !decide (s.chain.map TransmissionNode.id).Nodup) (by decide +kernel)
    simp [h _ s hs] at hd

end Isnad.Sanad
