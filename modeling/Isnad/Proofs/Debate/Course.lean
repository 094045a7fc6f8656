import Isnad.Proofs.Debate.Account
import Isnad.Proofs.Debate.Script

/-!
# The course of a debate

What is on record of a debate, but for the accounts, the failures that come of them and the times,
is its course. Reasons to stop are read off the course (`State.stopAfter?_congr_course`). So two
debates whose runners say the same whenever the courses are the same go the same way
(`Setting.Parallel.run`), and whether accounts keep the rules has no part in it: debates by scripts
that differ in accounts only, under policies of any kind, have the same course
(`Script.run_same_course`).
-/

namespace Isnad.Debate

/-- What an output says, leaving its account aside. -/
structure Statement where
  role : Role
  kind : String
  content : Content
deriving DecidableEq, Repr

def Output.statement (o : Output) : Statement := ⟨o.role, o.kind, o.content⟩

/-- What was said in which round, between which phases the debate went, and where it stands. -/
structure Course where
  roundNumber : Nat
  stopReason : Option StopReason
  statements : List (Nat × Statement)
  phases : List (Phase × Phase)
deriving DecidableEq, Repr

namespace State

variable {s s' : State} {round maxRounds : Nat} {role : Role} {o o' : Output} {p p' : Policy}

def course (s : State) : Course where
  roundNumber := s.roundNumber
  stopReason := s.stopReason
  statements := s.log.map fun l => (l.round, l.output.statement)
  phases := s.transitions.map fun c => (c.source, c.target)

/-! ## What depends on the course -/

theorem roundNumber_eq_of_course (h : s.course = s'.course) : s.roundNumber = s'.roundNumber :=
  congrArg Course.roundNumber h

theorem stopReason_eq_of_course (h : s.course = s'.course) : s.stopReason = s'.stopReason :=
  congrArg Course.stopReason h

theorem phase_eq_of_course (h : s.course = s'.course) : s.phase = s'.phase := by
  rw [phase_eq, phase_eq, roundNumber_eq_of_course h, stopReason_eq_of_course h]

/-- What was said in a round. -/
def saidIn (s : State) (round : Nat) : List Statement :=
  (s.inRound round).map (·.output.statement)

theorem saidIn_eq_of_course (h : s.course = s'.course) (round : Nat) :
    s.saidIn round = s'.saidIn round := by
  have hread (s : State) :
      s.saidIn round = (s.course.statements.filter (·.1 = round)).map Prod.snd := by
    rw [course, List.filter_map, List.map_map]
    rfl
  rw [hread, hread, h]

theorem statement_outputOf? (s : State) (round : Nat) (role : Role) :
    (s.outputOf? round role).map Output.statement = (s.saidIn round).find? (·.role = role) := by
  rw [outputOf?, saidIn, List.find?_map, Option.map_map]
  rfl

theorem positionOf?_eq (s : State) (round : Nat) (role : Role) :
    s.positionOf? round role = ((s.saidIn round).filterMap fun x =>
      if x.role = role then x.content.position else none).getLast? := by
  rw [positionOf?, saidIn, List.filterMap_map]
  rfl

theorem positions_eq_of_course (h : s.course = s'.course) (round : Nat) :
    s.positions round = s'.positions round := by
  simp only [positions, positionOf?_eq, saidIn_eq_of_course h]

theorem isConsensus_eq_of_course (h : s.course = s'.course) (round : Nat) :
    s.isConsensus round = s'.isConsensus round := by
  have hsettled (s : State) : (s.outputOf? round .arbiter).any (·.content.unresolved.isEmpty) =
      ((s.saidIn round).find? (·.role = .arbiter)).any (·.content.unresolved.isEmpty) := by
    rw [← statement_outputOf?, Option.any_map]
    rfl
  rw [isConsensus, isConsensus, hsettled, hsettled, saidIn_eq_of_course h,
    positions_eq_of_course h]

theorem isStableDissent_eq_of_course (h : s.course = s'.course) (round : Nat) :
    s.isStableDissent round = s'.isStableDissent round := by
  rw [isStableDissent, isStableDissent, positions_eq_of_course h, positions_eq_of_course h]

theorem stopAfter?_congr_course (h : s.course = s'.course) (round maxRounds : Nat) :
    s.stopAfter? round maxRounds = s'.stopAfter? round maxRounds := by
  rw [stopAfter?, stopAfter?, isConsensus_eq_of_course h, isStableDissent_eq_of_course h]

/-! ## Courses that stay the same -/

theorem course_record (s : State) (p : Policy) (round : Nat) (o : Output) :
    (s.record p round o).course =
      { s.course with statements := s.course.statements ++ [(round, o.statement)] } := by
  simp [course, record]

theorem course_record_congr (h : s.course = s'.course) (ho : o.statement = o'.statement) :
    (s.record p round o).course = (s'.record p' round o').course := by
  rw [course_record, course_record, h, ho]

theorem course_closeRound (s : State) (stop : Option StopReason) (now : Timestamp) :
    (s.closeRound stop now).course =
      { s.course with
        roundNumber := s.roundNumber + 1
        stopReason := stop
        phases := s.course.phases ++ [(s.phase, .after (s.roundNumber + 1) stop)] } := by
  simp [course, closeRound, phase_eq]

theorem course_closeRound_congr (h : s.course = s'.course) (stop : Option StopReason)
    (now now' : Timestamp) :
    (s.closeRound stop now).course = (s'.closeRound stop now').course := by
  rw [course_closeRound, course_closeRound, h, roundNumber_eq_of_course h, phase_eq_of_course h]

end State

/-! ## Two debates side by side -/

/-- The same error, or values with the same view, with the same state of the runner. -/
inductive SameView {ε α β σ : Type} (view : α → β) : Except ε α × σ → Except ε α × σ → Prop
  | error (e : ε) (t : σ) : SameView view (.error e, t) (.error e, t)
  | ok {a a' : α} (t : σ) : view a = view a' → SameView view (.ok a, t) (.ok a', t)

namespace Setting

variable {σ : Type} {d d' : Setting σ} {s s' : State}

/-- The runners of two debates say the same, or fail alike, when the debates had the same course. -/
structure Parallel (d d' : Setting σ) : Prop where
  maxRounds : d.config.maxRounds = d'.config.maxRounds
  produce : ∀ (role : Role) (s s' : State) (t : σ), s.course = s'.course → SameView Output.statement
    (d.runner.produce role d.context s t) (d'.runner.produce role d'.context s' t)

namespace Parallel

theorem speak (h : d.Parallel d') (round : Nat) (roles : List Role) (hs : s.course = s'.course)
    (t : σ) : SameView State.course (d.speak round roles s t) (d'.speak round roles s' t) := by
  induction roles generalizing s s' t with
  | nil => exact .ok t hs
  | cons role roles ih =>
    have hproduce := h.produce role s s' t hs
    rw [Setting.speak, Setting.speak]
    generalize d.runner.produce role d.context s t = answer at hproduce ⊢
    generalize d'.runner.produce role d'.context s' t = answer' at hproduce ⊢
    cases hproduce with
    | error e t => exact .error _ t
    | @ok o o' t ho =>
      have hrole : o.role = o'.role := congrArg Statement.role ho
      dsimp only
      by_cases hanswer : o.role = role
      · rw [if_pos hanswer, if_pos (hrole ▸ hanswer)]
        exact ih (State.course_record_congr hs ho) t
      · rw [if_neg hanswer, if_neg (hrole ▸ hanswer), hrole]
        exact .error _ t

theorem step (h : d.Parallel d') (hs : s.course = s'.course) (t : σ) :
    SameView State.course (d.step s t) (d'.step s' t) := by
  have hnumber := State.roundNumber_eq_of_course hs
  have hspeak := h.speak (s.roundNumber + 1) Role.order hs t
  rw [Setting.step, Setting.step, ← State.stopReason_eq_of_course hs, ← hnumber]
  cases s.stopReason with
  | some r => exact .error _ t
  | none =>
    dsimp only
    generalize d.speak (s.roundNumber + 1) Role.order s t = spoken at hspeak ⊢
    generalize d'.speak (s.roundNumber + 1) Role.order s' t = spoken' at hspeak ⊢
    cases hspeak with
    | error e t => exact .error _ t
    | ok t hs =>
      refine .ok t ?_
      rw [← h.maxRounds, ← State.stopAfter?_congr_course hs]
      exact State.course_closeRound_congr hs _ _ _

/-- Whole debates go the same way. -/
theorem run (h : d.Parallel d') (hs : s.course = s'.course) (t : σ) :
    SameView State.course (d.run s t) (d'.run s' t) := by
  induction s, t using run.induct d generalizing s' with
  | case1 s t hstopped =>
    have hstopped' : s'.isStopped = true := by
      rwa [State.isStopped, ← State.stopReason_eq_of_course hs]
    rw [run_of_isStopped hstopped, run_of_isStopped hstopped']
    exact .ok t hs
  | case2 s t hgoing e t₁ hstep =>
    have hnone := Option.not_isSome_iff_eq_none.mp hgoing
    have hnone' := (State.stopReason_eq_of_course hs).symm.trans hnone
    have hsame := h.step hs t
    rw [hstep] at hsame
    generalize hstep' : d'.step s' t = next at hsame
    cases hsame with
    | error =>
      rw [run_of_step_error hnone hstep, run_of_step_error hnone' hstep']
      exact .error e t₁
  | case3 s t _ s₁ t₁ hstep ih =>
    have hsame := h.step hs t
    rw [hstep] at hsame
    generalize hstep' : d'.step s' t = next at hsame
    cases hsame with
    | ok t hs =>
      rw [run_of_step_ok hstep, run_of_step_ok hstep']
      exact ih hs

end Parallel
end Setting

/-! ## Accounts that fail -/

namespace Policy

variable {p p' : Policy} {a : Account}

/-- A higher ceiling lets more accounts pass. -/
theorem passes_mono (h : p.ceiling ≤ p'.ceiling) (ha : p.passes a = true) :
    p'.passes a = true := by
  rw [passes_iff] at ha ⊢
  refine ⟨ha.confidence_mem, ha.supported, ha.humble.imp_left fun hle => ?_⟩
  exact hle.trans (Decimal.le_iff_toRat.mp h)

end Policy

namespace State

variable {s s' : State} {p p' : Policy}

/-- The entries whose accounts failed. -/
def failed (s : State) : List LoggedOutput := s.log.filter fun l => !l.hasPassed

/-- The outputs on record, with their rounds. -/
def outputs (s : State) : List (Nat × Output) := s.log.map fun l => (l.round, l.output)

theorem IsFaithful.failed_eq (h : s.IsFaithful p) :
    s.failed =
      (s.outputs.filter fun x => !p.passes x.2.account).map fun x => ⟨x.1, x.2, false⟩ := by
  have hfilter : s.log.filter ((fun x => !p.passes x.2.account) ∘ fun l => (l.round, l.output)) =
      s.failed := List.filter_congr fun l hl => by rw [h.hasPassed l hl]; rfl
  rw [outputs, List.filter_map, List.map_map, hfilter]
  refine (List.map_id _).symm.trans (List.map_congr_left fun l hl => ?_)
  have hfailed : l.hasPassed = false := by simpa using (List.mem_filter.mp hl).2
  simp [← hfailed]

/-- Of the same outputs fewer fail under a higher ceiling. -/
theorem IsFaithful.failed_sublist (h : s.IsFaithful p) (h' : s'.IsFaithful p')
    (hout : s.outputs = s'.outputs) (hle : p.ceiling ≤ p'.ceiling) :
    s'.failed.Sublist s.failed := by
  rw [h.failed_eq, h'.failed_eq, hout]
  refine (List.monotone_filter_right _ fun x hx => ?_).map _
  rw [Bool.not_eq_true', Bool.eq_false_iff] at hx ⊢
  exact mt (Policy.passes_mono hle) hx

end State

namespace Script

variable {script script' : Script} {context : Context} {config config' : Config}
  {clock clock' : Nat → Timestamp} {s s' : State}

/-- The outputs on record are those that the script has for the turns. -/
theorem Plays.outputs_eq (h : script.Plays s) :
    s.outputs.map some =
      (schedule s.roundNumber).map fun x => (script.output? x.2 x.1).map (x.1, ·) := by
  rw [← h.turns, List.map_map, State.outputs, List.map_map]
  refine List.map_congr_left fun l hl => ?_
  simp only [Function.comp_apply, LoggedOutput.turn, (output?_eq ..).trans (h.output l hl),
    Option.map_some]

theorem statement_output? (h : script.outputs.map Output.statement =
    script'.outputs.map Output.statement) (role : Role) (round : Nat) :
    (script.output? role round).map Output.statement =
      (script'.output? role round).map Output.statement := by
  have hpart : (script.part role).map Output.statement =
      (script'.part role).map Output.statement := by
    have hread (script : Script) : (script.part role).map Output.statement =
        (script.outputs.map Output.statement).filter (·.role = role) := by
      rw [part, List.filter_map]
      rfl
    rw [hread, hread, h]
  have hlength : (script.part role).length = (script'.part role).length := by
    simpa using congrArg List.length hpart
  rw [output?_eq, output?_eq, ← List.getElem?_map, ← List.getElem?_map, hpart, hlength]

/-- Scripts that differ in accounts only are played alike. -/
theorem parallel (context : Context) (clock clock' : Nat → Timestamp)
    (h : script.outputs.map Output.statement = script'.outputs.map Output.statement)
    (hmax : config.maxRounds = config'.maxRounds) :
    (script.setting context config clock).Parallel (script'.setting context config' clock') where
  maxRounds := hmax
  produce role s s' t hs := by
    have hout := statement_output? h role (s.roundNumber + 1)
    rw [produce_eq script context config clock rfl,
      produce_eq script' context config' clock'
        (congrArg (· + 1) (State.roundNumber_eq_of_course hs).symm)]
    cases ho : script.output? role (s.roundNumber + 1) with
    | none =>
      rw [ho, Option.map_none, eq_comm, Option.map_eq_none_iff] at hout
      rw [hout]
      exact .error _ _
    | some o =>
      rw [ho, Option.map_some, eq_comm, Option.map_eq_some_iff] at hout
      obtain ⟨o', ho', heq⟩ := hout
      rw [ho']
      exact .ok _ heq.symm

/-- Two debates by scripts that differ in accounts only, with the same limit, fail alike or stop
with the same course, whatever their policies. If even the accounts are the same, a higher ceiling
makes no other account fail. -/
theorem run_same_course (script script' : Script) (context : Context) (config config' : Config)
    (clock clock' : Nat → Timestamp) (id : String) (now now' : Timestamp)
    (h : script.outputs.map Output.statement = script'.outputs.map Output.statement)
    (hmax : config.maxRounds = config'.maxRounds) :
    let run := (script.setting context config clock).run (.fresh id now) ()
    let run' := (script'.setting context config' clock').run (.fresh id now') ()
    (∃ e, run = (.error e, ()) ∧ run' = (.error e, ())) ∨
      ∃ s s', run = (.ok s, ()) ∧ run' = (.ok s', ()) ∧ s.isStopped = true ∧
        s.course = s'.course ∧
        (script = script' → config.policy.ceiling ≤ config'.policy.ceiling →
          s'.failed.Sublist s.failed) := by
  have hstart : (State.fresh id now).course = (State.fresh id now').course := rfl
  have hrun := (parallel context clock clock' h hmax).run hstart ()
  dsimp only
  cases hfirst : (script.setting context config clock).run (.fresh id now) () with
  | mk result t =>
    cases hsecond : (script'.setting context config' clock').run (.fresh id now') () with
    | mk result' t' =>
      rw [hfirst, hsecond] at hrun
      cases hrun with
      | error e => exact .inl ⟨e, rfl, rfl⟩
      | @ok s s' _ hs =>
        obtain ⟨hstopped, n, hrounds⟩ := Setting.run_eq_ok_iff.mp hfirst
        obtain ⟨-, n', hrounds'⟩ := Setting.run_eq_ok_iff.mp hsecond
        refine .inr ⟨s, s', rfl, rfl, hstopped, hs, ?_⟩
        rintro rfl hle
        have hout : s.outputs.map some = s'.outputs.map some := by
          rw [(plays_of_rounds hrounds).outputs_eq, (plays_of_rounds hrounds').outputs_eq,
            State.roundNumber_eq_of_course hs]
        exact hrounds.isFaithful.failed_sublist hrounds'.isFaithful
          (List.map_injective_iff.mpr (Option.some_injective _) hout) hle

/-- `changeOfMind` with the same account for all outputs. -/
def changeOfMindWith (a : Account) : Script where
  outputs := changeOfMind.outputs.map fun o => { o with account := a }

/-- The debate of `changeOfMindWith` under a ceiling. -/
def runWith (a : Account) (ceiling : Decimal) : Except Error State × Unit :=
  ((changeOfMindWith a).setting ⟨"d-1", "memo", [], .null⟩ ⟨5, ⟨ceiling⟩⟩
    Setting.oneQuestion.clock).run (.fresh "d-1" (Setting.oneQuestion.clock 0)) ()

theorem exists_of_failed_runWith (a : Account) (ceiling : Decimal) (n : Nat)
    (h : (runWith a ceiling).1.toOption.map (·.failed.length) = some n) :
    ∃ s, runWith a ceiling = (.ok s, ()) ∧ s.failed.length = n := by
  cases hrun : runWith a ceiling with
  | mk result t =>
    rw [hrun] at h
    cases result with
    | error e => cases h
    | ok s => exact ⟨s, rfl, Option.some.inj h⟩

/-- Certainty fails the standard policy in all three rounds. It passes with an uncertainty, and
under the highest ceiling. The course is the same each time. -/
theorem run_same_course_changeOfMind :
    let certain := (Account.ofConfidence .one).supporting "c-1"
    ∃ s candid lenient, runWith certain Policy.standard.ceiling = (.ok s, ()) ∧
      runWith (certain.uncertainAbout "churn") Policy.standard.ceiling = (.ok candid, ()) ∧
      runWith certain .one = (.ok lenient, ()) ∧
      s.failed.length = 15 ∧ candid.failed.length = 0 ∧ lenient.failed.length = 0 ∧
      s.course = candid.course ∧ s.course = lenient.course ∧ lenient.failed.Sublist s.failed := by
  intro certain
  obtain ⟨s, hs, hcount⟩ :=
    exists_of_failed_runWith certain Policy.standard.ceiling 15 (by decide +kernel)
  obtain ⟨candid, hcandid, hnone⟩ :=
    exists_of_failed_runWith (certain.uncertainAbout "churn") Policy.standard.ceiling 0
      (by decide +kernel)
  obtain ⟨lenient, hlenient, hnone'⟩ :=
    exists_of_failed_runWith certain .one 0 (by decide +kernel)
  refine ⟨s, candid, lenient, hs, hcandid, hlenient, hcount, hnone, hnone', ?_⟩
  have hsame := run_same_course (changeOfMindWith certain)
    (changeOfMindWith (certain.uncertainAbout "churn")) ⟨"d-1", "memo", [], .null⟩
    ⟨5, .standard⟩ ⟨5, .standard⟩ Setting.oneQuestion.clock Setting.oneQuestion.clock "d-1"
    (Setting.oneQuestion.clock 0) (Setting.oneQuestion.clock 0) rfl rfl
  have hraised := run_same_course (changeOfMindWith certain) (changeOfMindWith certain)
    ⟨"d-1", "memo", [], .null⟩ ⟨5, .standard⟩ ⟨5, ⟨.one⟩⟩ Setting.oneQuestion.clock
    Setting.oneQuestion.clock "d-1" (Setting.oneQuestion.clock 0) (Setting.oneQuestion.clock 0)
    rfl rfl
  obtain ⟨e, he, -⟩ | ⟨_, _, hs₁, hs₂, -, hcourse, -⟩ := hsame
  · cases hs.symm.trans he
  obtain ⟨e, he, -⟩ | ⟨_, _, hs₃, hs₄, -, hcourse', hsub⟩ := hraised
  · cases hs.symm.trans he
  cases hs.symm.trans hs₁
  cases hs.symm.trans hs₃
  cases hcandid.symm.trans hs₂
  cases hlenient.symm.trans hs₄
  exact ⟨hcourse, hcourse', hsub rfl (by decide)⟩

end Script
end Isnad.Debate
