import Isnad.Proofs.Debate.Record
import Mathlib.Data.List.Nodup

/-!
# Reasons to stop, read off the log

The search for a reason to stop looks up outputs and positions by round and role. In a log in which
no role speaks twice in a round it finds what the log says (`State.endsFor_of_stopAfter?`).
-/

namespace Isnad.Debate.State

variable {s s' : State} {round maxRounds : Nat} {role : Role} {position : String}

/-- A role declared a position in a round. -/
def Declares (s : State) (round : Nat) (role : Role) (position : String) : Prop :=
  ∃ l ∈ s.log, l.round = round ∧ l.output.role = role ∧ l.output.position = some position

/-- The arbiter leaves no challenge open, and all positions declared are one. -/
structure Agrees (s : State) (round : Nat) : Prop where
  settled : ∃ l ∈ s.log, l.round = round ∧ l.output.role = .arbiter ∧
    l.output.content.unresolved = []
  declared : ∃ role position, s.Declares round role position
  same : ∀ role role' position position', s.Declares round role position →
    s.Declares round role' position' → position = position'

/-- Each role declares what it declared in the round before. -/
structure Repeats (s : State) (round : Nat) : Prop where
  two_le : 2 ≤ round
  same : ∀ role position, s.Declares round role position ↔ s.Declares (round - 1) role position

/-- A debate may end with a round. -/
def MayEnd (s : State) (maxRounds round : Nat) : Prop :=
  s.Agrees round ∨ s.Repeats round ∨ maxRounds ≤ round

/-- The first reason that applies counts. -/
inductive EndsFor (s : State) (maxRounds round : Nat) : StopReason → Prop
  | consensus : s.Agrees round → EndsFor s maxRounds round .consensus
  | stableDissent : ¬ s.Agrees round → s.Repeats round → EndsFor s maxRounds round .stableDissent
  | maxRounds : ¬ s.Agrees round → ¬ s.Repeats round → maxRounds ≤ round →
    EndsFor s maxRounds round .maxRounds

/-- No role speaks twice in a round. -/
def OnePerTurn (s : State) : Prop := (s.log.map LoggedOutput.turn).Nodup

/-! ## What the searches find -/

theorem mem_inRound {l : LoggedOutput} : l ∈ s.inRound round ↔ l ∈ s.log ∧ l.round = round := by
  rw [inRound, List.mem_filter, decide_eq_true_iff]

theorem OnePerTurn.eq (hs : s.OnePerTurn) {l l' : LoggedOutput} (hl : l ∈ s.log) (hl' : l' ∈ s.log)
    (hround : l.round = l'.round) (hrole : l.output.role = l'.output.role) : l = l' :=
  List.inj_on_of_nodup_map hs hl hl' (Prod.ext hround hrole)

theorem outputOf?_eq_some_iff (hs : s.OnePerTurn) {o : Output} :
    s.outputOf? round role = some o ↔
      ∃ l ∈ s.log, l.round = round ∧ l.output.role = role ∧ l.output = o := by
  rw [outputOf?, Option.map_eq_some_iff]
  constructor
  · rintro ⟨l, hfind, rfl⟩
    obtain ⟨hl, hround⟩ := mem_inRound.mp (List.mem_of_find?_eq_some hfind)
    exact ⟨l, hl, hround, by simpa using List.find?_some hfind, rfl⟩
  · rintro ⟨l, hl, rfl, rfl, rfl⟩
    refine ⟨l, ?_, rfl⟩
    obtain ⟨l', hfind⟩ := Option.isSome_iff_exists.mp
      (List.find?_isSome (p := (·.output.role = l.output.role)).mpr
        ⟨l, mem_inRound.mpr ⟨hl, rfl⟩, decide_eq_true rfl⟩)
    obtain ⟨hl', hround⟩ := mem_inRound.mp (List.mem_of_find?_eq_some hfind)
    rw [hfind, hs.eq hl' hl hround (by simpa using List.find?_some hfind)]

theorem mem_declared {round : Nat} {role : Role} :
    (position ∈ (s.inRound round).filterMap fun l =>
      if l.output.role = role then l.output.position else none) ↔
      s.Declares round role position := by
  simp only [List.mem_filterMap, mem_inRound, Option.ite_none_right_eq_some]
  constructor
  · rintro ⟨l, ⟨hl, hround⟩, hrole, hposition⟩
    exact ⟨l, hl, hround, hrole, hposition⟩
  · rintro ⟨l, hl, hround, hrole, hposition⟩
    exact ⟨l, ⟨hl, hround⟩, hrole, hposition⟩

theorem positionOf?_eq_some_iff (hs : s.OnePerTurn) :
    s.positionOf? round role = some position ↔ s.Declares round role position := by
  rw [positionOf?]
  constructor
  · exact fun h => mem_declared.mp (List.mem_of_getLast? h)
  · intro h
    obtain ⟨p, hp⟩ := Option.isSome_iff_exists.mp
      (List.getLast?_isSome.mpr (List.ne_nil_of_mem (mem_declared.mpr h)))
    obtain ⟨l, hl, hround, hrole, hposition⟩ := h
    obtain ⟨l', hl', hround', hrole', hp'⟩ := mem_declared.mp (List.mem_of_getLast? hp)
    rw [hs.eq hl' hl (hround'.trans hround.symm) (hrole'.trans hrole.symm), hposition] at hp'
    rw [hp, hp']

theorem mem_positions (hs : s.OnePerTurn) :
    (role, position) ∈ s.positions round ↔ s.Declares round role position := by
  rw [positions, List.mem_filterMap, ← positionOf?_eq_some_iff hs]
  constructor
  · rintro ⟨r, -, hr⟩
    obtain ⟨p, hp, heq⟩ := Option.map_eq_some_iff.mp hr
    cases heq
    exact hp
  · intro h
    exact ⟨role, role.mem_order, by rw [h]; rfl⟩

/-! ## Reasons -/

theorem mem_positions_snd (hs : s.OnePerTurn) :
    position ∈ (s.positions round).map Prod.snd ↔ ∃ role, s.Declares round role position := by
  rw [List.mem_map]
  constructor
  · rintro ⟨⟨r, p⟩, hr, rfl⟩
    exact ⟨r, (mem_positions hs).mp hr⟩
  · rintro ⟨r, hr⟩
    exact ⟨(r, position), (mem_positions hs).mpr hr, rfl⟩

theorem isSettled_iff (hs : s.OnePerTurn) :
    (s.outputOf? round .arbiter).any (·.content.unresolved.isEmpty) = true ↔
      ∃ l ∈ s.log, l.round = round ∧ l.output.role = .arbiter ∧
        l.output.content.unresolved = [] := by
  simp only [Option.any_eq_true, outputOf?_eq_some_iff hs, List.isEmpty_iff]
  constructor
  · rintro ⟨o, ⟨l, hl, hround, hrole, rfl⟩, hnil⟩
    exact ⟨l, hl, hround, hrole, hnil⟩
  · rintro ⟨l, hl, hround, hrole, hnil⟩
    exact ⟨l.output, ⟨l, hl, hround, hrole, rfl⟩, hnil⟩

/-- Comparing all with the first is comparing all with each other. -/
theorem isUnanimous_iff {ps : List String} :
    (match ps with
      | [] => false
      | p :: ps => ps.all (· = p)) = true ↔
      (∃ p, p ∈ ps) ∧ ∀ p ∈ ps, ∀ q ∈ ps, p = q := by
  cases ps with
  | nil => simp
  | cons p ps =>
    simp only [List.all_eq_true, decide_eq_true_iff]
    constructor
    · intro h
      have hfirst : ∀ q ∈ p :: ps, q = p := by
        intro q hq
        rcases List.mem_cons.mp hq with rfl | hq
        · rfl
        · exact h q hq
      exact ⟨⟨p, List.mem_cons_self⟩, fun q hq q' hq' => (hfirst q hq).trans (hfirst q' hq').symm⟩
    · rintro ⟨-, h⟩ q hq
      exact h q (List.mem_cons_of_mem _ hq) p List.mem_cons_self

theorem isConsensus_iff (hs : s.OnePerTurn) : s.isConsensus round = true ↔ s.Agrees round := by
  rw [isConsensus, Bool.and_eq_true]
  refine (and_congr (isSettled_iff hs) isUnanimous_iff).trans ?_
  simp only [mem_positions_snd hs]
  constructor
  · rintro ⟨hsettled, ⟨p, r, hr⟩, hsame⟩
    exact ⟨hsettled, ⟨r, p, hr⟩, fun r r' p p' h h' => hsame p ⟨r, h⟩ p' ⟨r', h'⟩⟩
  · rintro ⟨hsettled, ⟨r, p, hr⟩, hsame⟩
    exact ⟨hsettled, ⟨p, r, hr⟩, fun p ⟨r, h⟩ p' ⟨r', h'⟩ => hsame r r' p p' h h'⟩

theorem positions_eq_iff (hs : s.OnePerTurn) {r r' : Nat} :
    s.positions r = s.positions r' ↔
      ∀ role position, s.Declares r role position ↔ s.Declares r' role position := by
  constructor
  · intro h role position
    rw [← mem_positions hs, ← mem_positions hs, h]
  · intro h
    refine List.filterMap_congr fun role _ => ?_
    have hposition : s.positionOf? r role = s.positionOf? r' role := by
      refine Option.ext fun p => ?_
      rw [positionOf?_eq_some_iff hs, positionOf?_eq_some_iff hs]
      exact h role p
    rw [hposition]

theorem isStableDissent_iff (hs : s.OnePerTurn) :
    s.isStableDissent round = true ↔ s.Repeats round := by
  rw [isStableDissent, Bool.and_eq_true, decide_eq_true_iff, decide_eq_true_iff,
    positions_eq_iff hs]
  exact ⟨fun ⟨h, h'⟩ => ⟨h, h'⟩, fun ⟨h, h'⟩ => ⟨h, h'⟩⟩

theorem endsFor_of_stopAfter? (hs : s.OnePerTurn) {reason : StopReason}
    (h : s.stopAfter? round maxRounds = some reason) : s.EndsFor maxRounds round reason := by
  unfold stopAfter? at h
  split at h
  · rename_i hconsensus
    cases h
    exact .consensus ((isConsensus_iff hs).mp hconsensus)
  · rename_i hconsensus
    have hagrees : ¬ s.Agrees round := mt (isConsensus_iff hs).mpr hconsensus
    split at h
    · rename_i hdissent
      cases h
      exact .stableDissent hagrees ((isStableDissent_iff hs).mp hdissent)
    · rename_i hdissent
      split at h
      · rename_i hlimit
        cases h
        exact .maxRounds hagrees (mt (isStableDissent_iff hs).mpr hdissent) hlimit
      · cases h

theorem not_mayEnd_of_stopAfter? (hs : s.OnePerTurn) (h : s.stopAfter? round maxRounds = none) :
    ¬ s.MayEnd maxRounds round := by
  unfold stopAfter? at h
  split at h
  · cases h
  · rename_i hconsensus
    split at h
    · cases h
    · rename_i hdissent
      split at h
      · cases h
      · rename_i hlimit
        rintro (hagrees | hrepeats | hle)
        · exact hconsensus ((isConsensus_iff hs).mpr hagrees)
        · exact hdissent ((isStableDissent_iff hs).mpr hrepeats)
        · exact hlimit hle

theorem EndsFor.mayEnd {reason : StopReason} (h : s.EndsFor maxRounds round reason) :
    s.MayEnd maxRounds round := by
  cases h with
  | consensus hagrees => exact .inl hagrees
  | stableDissent _ hrepeats => exact .inr (.inl hrepeats)
  | maxRounds _ _ hlimit => exact .inr (.inr hlimit)

/-! ## Growing logs -/

theorem positionOf?_congr (h : s.inRound round = s'.inRound round) :
    s.positionOf? round role = s'.positionOf? round role := by
  rw [positionOf?, positionOf?, h]

/-- The reason to stop depends on the outputs of the last two rounds. -/
theorem stopAfter?_congr (h : ∀ r ≤ round, s.inRound r = s'.inRound r) :
    s.stopAfter? round maxRounds = s'.stopAfter? round maxRounds := by
  have hpositions (r : Nat) (hr : r ≤ round) : s.positions r = s'.positions r :=
    List.filterMap_congr fun role _ => by rw [positionOf?_congr (h r hr)]
  have hconsensus : s.isConsensus round = s'.isConsensus round := by
    rw [isConsensus, isConsensus, outputOf?, outputOf?, h round (Nat.le_refl _),
      hpositions round (Nat.le_refl _)]
  have hdissent : s.isStableDissent round = s'.isStableDissent round := by
    rw [isStableDissent, isStableDissent, hpositions round (Nat.le_refl _),
      hpositions (round - 1) (Nat.sub_le _ _)]
  rw [stopAfter?, stopAfter?, hconsensus, hdissent]

end Isnad.Debate.State
