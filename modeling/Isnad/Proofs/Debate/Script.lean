import Isnad.Debate.Script
import Isnad.Proofs.Debate.Run

/-!
# Debates by script

A script says what each role contributes to each round, whatever has been said before. So a debate
by script can be compared with the script itself: its log has the turns of the schedule, each with
the output that the part of its role has for the round (`Script.Plays`). The debate fails in its
first round if a role has no part, and otherwise not at all. It is over at the latest one round
after the longest part, since by then every role has repeated itself (`Script.run_plays`).
-/

namespace Isnad.Debate

namespace Script

variable {script script' : Script} {context : Context} {config : Config}
  {clock : Nat → Timestamp} {role : Role} {round : Nat} {o : Output}

/-- The setting in which a script is played. -/
def setting (script : Script) (context : Context) (config : Config) (clock : Nat → Timestamp) :
    Setting Unit := ⟨script.runner, context, config, clock⟩

/-- The first role in speaking order that has no part. -/
def firstSilent? (script : Script) : Option Role :=
  Role.order.find? fun r => (script.part r).isEmpty

/-- The number of outputs in the longest part. -/
def longest (script : Script) : Nat :=
  (Role.order.map fun r => (script.part r).length).max?.getD 0

/-- The log has one entry a turn. In each round a role gives the output of its part for that round,
and the last one when its part is over. -/
structure Plays (script : Script) (s : State) : Prop where
  turns : s.log.map LoggedOutput.turn = schedule s.roundNumber
  output : ∀ l ∈ s.log, (script.part l.output.role)[min l.round
    (script.part l.output.role).length - 1]? = some l.output

/-! ## Parts -/

theorem firstSilent?_eq_none_iff : script.firstSilent? = none ↔ ∀ role, script.part role ≠ [] := by
  simp only [firstSilent?, List.find?_eq_none, List.isEmpty_iff]
  exact ⟨fun h role => h role role.mem_order, fun h role _ => h role⟩

theorem length_part_le_longest (script : Script) (role : Role) :
    (script.part role).length ≤ script.longest :=
  List.le_max?_getD_of_mem (List.mem_map.mpr ⟨role, role.mem_order, rfl⟩)

theorem output?_eq (script : Script) (role : Role) (round : Nat) :
    script.output? role round =
      (script.part role)[min round (script.part role).length - 1]? := by
  rw [output?, Nat.sub_min_sub_right]

theorem output?_eq_none_iff : script.output? role round = none ↔ script.part role = [] := by
  rw [output?_eq, List.getElem?_eq_none_iff, ← List.length_eq_zero_iff]
  omega

theorem role_of_output? (h : script.output? role round = some o) : o.role = role := by
  rw [output?_eq] at h
  exact of_decide_eq_true (List.mem_filter.mp (List.mem_of_getElem? h)).2

/-- When the part of a role is over, its contribution stays the same. -/
theorem output?_succ (h : (script.part role).length ≤ round) :
    script.output? role (round + 1) = script.output? role round := by
  rw [output?_eq, output?_eq, Nat.min_eq_right h, Nat.min_eq_right (Nat.le_succ_of_le h)]

/-- Only the parts matter, not how they are interleaved. -/
theorem runner_congr (h : ∀ role, script'.part role = script.part role) :
    script'.runner = script.runner := by
  have houtput : ∀ role round, script'.output? role round = script.output? role round := by
    intro role round
    rw [output?_eq, output?_eq, h]
  simp only [runner, houtput]

/-! ## One round -/

/-- What the given roles contribute to a round. -/
def contributions (script : Script) (round : Nat) (roles : List Role) : List Output :=
  roles.filterMap fun r => script.output? r round

variable (script context config clock) in
theorem produce_eq {s : State} (hround : s.roundNumber + 1 = round) (role : Role) :
    (script.setting context config clock).runner.produce role
        (script.setting context config clock).context s () =
      match script.output? role round with
      | some o => (.ok o, ())
      | none => (.error ⟨role, round, "no scripted output"⟩, ()) := by
  subst hround
  rfl

/-- Roles speak up to the first one that has no part. -/
theorem speak_eq (roles : List Role) {s : State} (hround : s.roundNumber + 1 = round) :
    (script.setting context config clock).speak round roles s () =
      match roles.find? fun r => (script.part r).isEmpty with
      | some role => (.error (.runner ⟨role, round, "no scripted output"⟩), ())
      | none =>
        (.ok (s.recordAll config.policy round (script.contributions round roles)), ()) := by
  induction roles generalizing s with
  | nil => rfl
  | cons role roles ih =>
    have hproduce := produce_eq script context config clock hround role
    rw [Setting.speak, List.find?_cons, contributions, List.filterMap_cons]
    cases ho : script.output? role round with
    | none =>
      rw [ho] at hproduce
      rw [hproduce, List.isEmpty_iff.mpr (output?_eq_none_iff.mp ho)]
    | some o =>
      rw [ho] at hproduce
      have hpart : (script.part role).isEmpty = false := by
        rw [List.isEmpty_eq_false_iff]
        intro hnil
        rw [output?_eq_none_iff.mpr hnil] at ho
        cases ho
      rw [hproduce, hpart]
      dsimp only
      rw [if_pos (role_of_output? ho)]
      exact ih hround

theorem speak_order_eq {s : State} (hround : s.roundNumber + 1 = round) :
    (script.setting context config clock).speak round Role.order s () =
      match script.firstSilent? with
      | some role => (.error (.runner ⟨role, round, "no scripted output"⟩), ())
      | none =>
        (.ok (s.recordAll config.policy round (script.contributions round Role.order)), ()) :=
  speak_eq Role.order hround

/-! ## Several rounds -/

section Rounds

variable {s : State} {t : Unit} {n : Nat} {id : String} {now : Timestamp}

theorem plays_of_rounds
    (h : (script.setting context config clock).Rounds (.fresh id now) () n s t) :
    script.Plays s where
  turns := by rw [h.turns_eq, h.roundNumber_eq]
  output := by
    induction h with
    | zero => exact fun _ hl => absurd hl List.not_mem_nil
    | succ _ hstep ih =>
      obtain ⟨-, spoken, hspeak, rfl⟩ := Setting.step_eq_ok hstep
      rw [speak_order_eq rfl] at hspeak
      cases hsilent : script.firstSilent? with
      | some role =>
        rw [hsilent] at hspeak
        cases hspeak
      | none =>
        rw [hsilent] at hspeak
        cases hspeak
        intro l hl
        rw [State.closeRound, State.log_recordAll] at hl
        rcases List.mem_append.mp hl with hl | hl
        · exact ih l hl
        · obtain ⟨o, ho, rfl⟩ := List.mem_map.mp hl
          obtain ⟨r, -, hr⟩ := List.mem_filterMap.mp ho
          obtain rfl := role_of_output? hr
          exact (output?_eq ..).symm.trans hr

/-- What a role declares in a round is read off its part. -/
theorem Plays.declares_iff (h : script.Plays s) {position : String} (hpos : 1 ≤ round)
    (hle : round ≤ s.roundNumber) :
    s.Declares round role position ↔
      ∃ o, script.output? role round = some o ∧ o.position = some position := by
  constructor
  · rintro ⟨l, hl, rfl, rfl, hposition⟩
    exact ⟨l.output, (output?_eq ..).trans (h.output l hl), hposition⟩
  · rintro ⟨o, ho, hposition⟩
    have hturn : (round, role) ∈ s.log.map LoggedOutput.turn := by
      rw [h.turns]
      exact mem_schedule.mpr ⟨hpos, hle⟩
    obtain ⟨l, hl, heq⟩ := List.mem_map.mp hturn
    cases heq
    have hsame := (output?_eq ..).trans (h.output l hl)
    obtain rfl := Option.some.inj (hsame.symm.trans ho)
    exact ⟨l, hl, rfl, rfl, hposition⟩

/-- After the longest part every role repeats what it declared. -/
theorem Plays.repeats (h : script.Plays s) (hpos : 1 ≤ script.longest)
    (hlt : script.longest < s.roundNumber) : s.Repeats (script.longest + 1) where
  two_le := Nat.succ_le_succ hpos
  same role position := by
    rw [h.declares_iff (by omega) hlt, Nat.add_sub_cancel, h.declares_iff hpos (by omega),
      output?_succ (script.length_part_le_longest role)]

end Rounds

/-! ## The debate -/

variable (context config clock) in
/-- Rounds fail only for lack of a part. -/
theorem exists_step_eq_ok (h : script.firstSilent? = none) {s : State}
    (hnone : s.stopReason = none) :
    ∃ s', (script.setting context config clock).step s () = (.ok s', ()) := by
  rw [Setting.step, hnone]
  dsimp only
  rw [speak_order_eq rfl, h]
  exact ⟨_, rfl⟩

theorem run_of_firstSilent? (h : script.firstSilent? = some role) (id : String)
    (now : Timestamp) :
    (script.setting context config clock).run (.fresh id now) () =
      (.error (.runner ⟨role, 1, "no scripted output"⟩), ()) := by
  rw [Setting.run_eq_finish rfl, Setting.finish, speak_order_eq rfl, h]
  rfl

variable (context config clock) in
theorem exists_rounds (h : script.firstSilent? = none) (id : String) (now : Timestamp) :
    ∃ n s, (script.setting context config clock).Rounds (.fresh id now) () n s () ∧
      s.isStopped = true := by
  obtain ⟨n, s, t, hrounds, hstopped | ⟨hnone, e, t', hstep⟩⟩ :=
    Setting.exists_rounds_of_run (d := script.setting context config clock) (.fresh id now) ()
  · exact ⟨n, s, hrounds, hstopped⟩
  · obtain ⟨s', hs'⟩ := exists_step_eq_ok context config clock h hnone
    cases hstep.symm.trans hs'

theorem longest_pos (h : script.firstSilent? = none) : 1 ≤ script.longest := by
  have hpart := firstSilent?_eq_none_iff.mp h .arbiter
  exact Nat.le_trans (List.length_pos_iff.mpr hpart) (script.length_part_le_longest .arbiter)

theorem roundNumber_le (h : script.firstSilent? = none) {s : State} (hplays : script.Plays s)
    (hends : s.EndsFirst config.maxRounds) :
    s.roundNumber ≤ min (max 1 config.maxRounds) (script.longest + 1) := by
  refine Nat.le_min.mpr ⟨hends.le_max, Nat.le_of_not_lt fun hlt => ?_⟩
  exact hends.first (script.longest + 1) (by omega) hlt
    (.inr (.inl (hplays.repeats (longest_pos h) (by omega))))

/-- A debate by script fails in its first round, at the first role without a part, or it plays the
script and stops at the limit or one round after the longest part, or before. Nothing but the parts
of the roles counts. -/
theorem run_plays (script : Script) (context : Context) (config : Config)
    (clock : Nat → Timestamp) (id : String) (now : Timestamp) :
    (∀ role, script.firstSilent? = some role →
      (script.setting context config clock).run (.fresh id now) () =
        (.error (.runner ⟨role, 1, "no scripted output"⟩), ())) ∧
    (script.firstSilent? = none →
      ∃ s, (script.setting context config clock).run (.fresh id now) () = (.ok s, ()) ∧
        s.isStopped = true ∧ script.Plays s ∧
        s.roundNumber ≤ min (max 1 config.maxRounds) (script.longest + 1)) ∧
    ∀ script' : Script, (∀ role, script'.part role = script.part role) →
      (script'.setting context config clock).run (.fresh id now) () =
        (script.setting context config clock).run (.fresh id now) () := by
  refine ⟨fun role h => run_of_firstSilent? h id now, fun h => ?_, fun script' h => ?_⟩
  · obtain ⟨n, s, hrounds, hstopped⟩ := exists_rounds context config clock h id now
    have hplays := plays_of_rounds hrounds
    exact ⟨s, Setting.run_eq_ok_iff.mpr ⟨hstopped, n, hrounds⟩, hstopped, hplays,
      roundNumber_le h hplays (hrounds.endsFirst hstopped)⟩
  · rw [setting, setting, runner_congr h]

/-- The advocate changes its mind once, and the arbiter's question stays open. -/
def changeOfMind : Script where
  outputs := [(.advocate, "PASS"), (.advocate, "INVEST"), (.sanadBreaker, "PASS"),
    (.contradictionFinder, "PASS"), (.riskOfficer, "PASS"), (.arbiter, "PASS")].map
      fun (role, position) => ⟨role, "argument", ⟨"", some position, ["ARR?"], .null⟩,
        .ofConfidence .one⟩

/-- The round after the advocate's second output is the last, though two more were allowed. It makes
no difference when the advocate's part comes last. -/
theorem run_changeOfMind :
    ∃ s, (changeOfMind.setting ⟨"d-1", "memo", [], .null⟩ .standard Setting.oneQuestion.clock).run
        (.fresh "d-1" (Setting.oneQuestion.clock 0)) () = (.ok s, ()) ∧
      changeOfMind.Plays s ∧ s.roundNumber = changeOfMind.longest + 1 ∧
      s.stopReason = some .stableDissent ∧
      (Script.setting ⟨changeOfMind.outputs.rotate 2⟩ ⟨"d-1", "memo", [], .null⟩ .standard
        Setting.oneQuestion.clock).run (.fresh "d-1" (Setting.oneQuestion.clock 0)) () =
          (.ok s, ()) := by
  obtain ⟨-, hplays, hsame⟩ := run_plays changeOfMind ⟨"d-1", "memo", [], .null⟩ .standard
    Setting.oneQuestion.clock "d-1" (Setting.oneQuestion.clock 0)
  obtain ⟨s, hrun, -, hs, -⟩ := hplays (by decide)
  have hrounds : (changeOfMind.setting ⟨"d-1", "memo", [], .null⟩ .standard
      Setting.oneQuestion.clock).Rounds (.fresh "d-1" (Setting.oneQuestion.clock 0)) () 3 _ () :=
    .succ (.succ (.succ .zero rfl) rfl) rfl
  cases hrun.symm.trans (Setting.run_eq_ok_iff.mpr ⟨by decide, 3, hrounds⟩)
  exact ⟨_, hrun, hs, by decide, by decide, (hsame _ fun role => by cases role <;> rfl).trans hrun⟩

end Script
end Isnad.Debate
