import Isnad.Proofs.Debate.Run

/-!
# The calls that a debate makes

A runner that keeps a list of its calls answers as it does without the list (`Setting.run_logged`).
From that list one reads how a debate deals with its runner: roles are asked in their order, round
after round, each with everything said before on record, and nothing is asked after a call that
fails or after the round that ends the debate (`Setting.run_inProtocol`). One invariant of the
points between two calls carries all of this (`Setting.InProtocol`).
-/

namespace Isnad.Debate

/-- What is in a list with one more item was in it, or is that item. -/
theorem of_getElem?_concat {α : Type} {l : List α} {a b : α} {k : Nat}
    (h : (l ++ [a])[k]? = some b) : k < l.length ∧ l[k]? = some b ∨ k = l.length ∧ b = a := by
  rw [List.getElem?_append] at h
  split at h
  · rename_i hk
    exact .inl ⟨hk, h⟩
  · obtain ⟨hlast, rfl⟩ := List.getElem?_eq_some_iff.mp h
    rw [List.length_singleton] at hlast
    exact .inr ⟨by omega, List.getElem_singleton _⟩

/-- A call of a runner, with its answer. -/
structure Call where
  role : Role
  context : Context
  state : State
  answer : Except RunnerError Output

/-- The error that a call ends a debate with, if it gives no output of the role asked for. -/
def Call.error? (c : Call) : Option Error :=
  match c.answer with
  | .error e => some (.runner e)
  | .ok o =>
    if o.role = c.role then none
    else some (.roleMismatch c.role o.role (c.state.roundNumber + 1))

/-- The runner that also lists its calls. -/
def Runner.logged {σ : Type} (r : Runner σ) : Runner (σ × List Call) where
  produce role context state t :=
    let answer := r.produce role context state t.1
    (answer.1, answer.2, t.2 ++ [⟨role, context, state, answer.1⟩])

/-- What the calls said is on record: their outputs in order, five to a round, and the failures
among them. -/
structure State.Shows (p : Policy) (calls : List Call) (s : State) : Prop where
  answers : calls.map Call.answer = s.log.map fun l => .ok l.output
  turn : ∀ (k : Nat) (l : LoggedOutput), s.log[k]? = some l →
    l.round = k / 5 + 1 ∧ Role.order[k % 5]? = some l.output.role
  isFaithful : s.IsFaithful p

namespace State.Shows

variable {p : Policy} {calls : List Call} {s : State} {c : Call} {o : Output}

theorem length_log (h : s.Shows p calls) : s.log.length = calls.length := by
  rw [← List.length_map (f := Call.answer), h.answers, List.length_map]

theorem record (h : s.Shows p calls) (hc : c.answer = .ok o)
    (hrole : Role.order[calls.length % 5]? = some o.role) :
    (s.record p (calls.length / 5 + 1) o).Shows p (calls ++ [c]) where
  answers := by
    rw [List.map_append, h.answers, List.map_singleton, hc, State.record, List.map_append]
    rfl
  turn := by
    intro k l hl
    rcases of_getElem?_concat hl with ⟨-, hl⟩ | ⟨rfl, rfl⟩
    · exact h.turn k l hl
    · rw [h.length_log]
      exact ⟨rfl, hrole⟩
  isFaithful := h.isFaithful.record _ o

end State.Shows

namespace Setting

variable {σ : Type} {d : Setting σ} {s : State} {t₀ : σ} {t : σ × List Call} {calls : List Call}
  {roles : List Role} {role : Role} {id : String} {now : Timestamp}

/-- The debate with a runner that lists its calls. -/
def logged (d : Setting σ) : Setting (σ × List Call) :=
  ⟨d.runner.logged, d.context, d.config, d.clock⟩

/-- A call that comes after others: it is for the role whose turn it is, in a debate that goes on,
and shows the state that the earlier calls led to. -/
structure IsInTurn (d : Setting σ) (earlier : List Call) (c : Call) : Prop where
  context : c.context = d.context
  role : Role.order[earlier.length % 5]? = some c.role
  roundNumber : c.state.roundNumber = earlier.length / 5
  stopReason : c.state.stopReason = none
  shows : c.state.Shows d.config.policy earlier

/-! ## The list does no harm -/

/-- A result without the list of calls. -/
def withoutCalls {α : Type} (x : α × σ × List Call) : α × σ := (x.1, x.2.1)

theorem speak_logged (round : Nat) (roles : List Role) (s : State) (t : σ × List Call) :
    withoutCalls (d.logged.speak round roles s t) = d.speak round roles s t.1 := by
  induction roles generalizing s t with
  | nil => rfl
  | cons role roles ih =>
    rw [speak, speak, logged, Runner.logged]
    dsimp only
    generalize d.runner.produce role d.context s t.1 = answer
    obtain ⟨e | o, t'⟩ := answer
    · rfl
    · dsimp only
      split
      · exact ih _ _
      · rfl

theorem step_logged (s : State) (t : σ × List Call) :
    withoutCalls (d.logged.step s t) = d.step s t.1 := by
  rw [step, step]
  cases s.stopReason with
  | some r => rfl
  | none =>
    dsimp only
    rw [← speak_logged]
    generalize d.logged.speak (s.roundNumber + 1) Role.order s t = spoken
    obtain ⟨e | s', t'⟩ := spoken <;> rfl

theorem run_logged (s : State) (t : σ × List Call) :
    withoutCalls (d.logged.run s t) = d.run s t.1 := by
  induction s, t using run.induct d.logged with
  | case1 s t hstopped =>
    rw [run_of_isStopped hstopped, run_of_isStopped hstopped]
    rfl
  | case2 s t hgoing e t₁ hstep =>
    have hnone := Option.not_isSome_iff_eq_none.mp hgoing
    have hplain : d.step s t.1 = (.error e, t₁.1) := by
      rw [← step_logged, hstep]
      rfl
    rw [run_of_step_error hnone hstep, run_of_step_error hnone hplain]
    rfl
  | case3 s t _ s₁ t₁ hstep ih =>
    have hplain : d.step s t.1 = (.ok s₁, t₁.1) := by
      rw [← step_logged, hstep]
      rfl
    rw [run_of_step_ok hstep, run_of_step_ok hplain, ih]

/-! ## Between two calls -/

/-- Outputs of some roles are still to come in a round, and all calls so far were in turn and gave
an output of the role they were for. -/
structure InProtocol (d : Setting σ) (roles : List Role) (s : State) (calls : List Call) :
    Prop where
  isInTurn : ∀ (k : Nat) (c : Call), calls[k]? = some c → d.IsInTurn (calls.take k) c
  answered : ∀ c ∈ calls, c.error? = none
  shows : s.Shows d.config.policy calls
  stopReason : s.stopReason = none
  isSuffix : roles <:+ Role.order
  length_eq : calls.length + roles.length = 5 * (s.roundNumber + 1)

theorem inProtocol_fresh (d : Setting σ) (id : String) (now : Timestamp) :
    d.InProtocol Role.order (.fresh id now) [] where
  isInTurn k c hc := absurd hc (by simp)
  answered c hc := absurd hc List.not_mem_nil
  shows := ⟨rfl, fun k l hl => absurd hl (by simp [State.fresh]), State.isFaithful_fresh _ id now⟩
  stopReason := rfl
  isSuffix := List.suffix_refl _
  length_eq := rfl

namespace InProtocol

/-- The place in its round of a role that is to speak next. -/
theorem turn_eq (h : d.InProtocol (role :: roles) s calls) :
    calls.length / 5 = s.roundNumber ∧ Role.order[calls.length % 5]? = some role := by
  obtain ⟨spoken, horder⟩ := h.isSuffix
  have hlength : spoken.length + (roles.length + 1) = 5 := by
    rw [← List.length_cons (a := role), ← List.length_append, horder]
    rfl
  have hcalls := h.length_eq
  rw [List.length_cons] at hcalls
  have hdiv : calls.length / 5 = s.roundNumber := by omega
  have hmod : calls.length % 5 = spoken.length := by omega
  refine ⟨hdiv, ?_⟩
  rw [hmod, ← horder, List.getElem?_append_right (Nat.le_refl _), Nat.sub_self]
  rfl

/-- Whatever is answered, the next call is in its turn. -/
theorem isInTurn_next (h : d.InProtocol (role :: roles) s calls)
    (answer : Except RunnerError Output) : d.IsInTurn calls ⟨role, d.context, s, answer⟩ where
  context := rfl
  role := h.turn_eq.2
  roundNumber := h.turn_eq.1.symm
  stopReason := h.stopReason
  shows := h.shows

/-- So all calls are in turn, with one more. -/
theorem isInTurn_concat (h : d.InProtocol (role :: roles) s calls)
    (answer : Except RunnerError Output) {k : Nat} {c : Call}
    (hc : (calls ++ [Call.mk role d.context s answer])[k]? = some c) :
    d.IsInTurn ((calls ++ [Call.mk role d.context s answer]).take k) c := by
  rcases of_getElem?_concat hc with ⟨hk, hc⟩ | ⟨rfl, rfl⟩
  · rw [List.take_append_of_le_length (Nat.le_of_lt hk)]
    exact h.isInTurn k c hc
  · rw [List.take_left]
    exact h.isInTurn_next answer

theorem answer {o : Output} (h : d.InProtocol (role :: roles) s calls) (hrole : o.role = role) :
    d.InProtocol roles (s.record d.config.policy (s.roundNumber + 1) o)
      (calls ++ [⟨role, d.context, s, .ok o⟩]) where
  isInTurn k c hc := h.isInTurn_concat _ hc
  answered := by
    intro c hc
    rcases List.mem_append.mp hc with hc | hc
    · exact h.answered c hc
    · rw [List.mem_singleton.mp hc, Call.error?]
      exact if_pos hrole
  shows := by
    obtain ⟨hdiv, horder⟩ := h.turn_eq
    rw [← hdiv]
    exact h.shows.record rfl (hrole ▸ horder)
  stopReason := h.stopReason
  isSuffix := (List.suffix_cons role roles).trans h.isSuffix
  length_eq := by
    have hlength : calls.length + (roles.length + 1) = 5 * (s.roundNumber + 1) := h.length_eq
    rw [List.length_append, List.length_singleton, Nat.add_assoc, Nat.add_comm 1]
    exact hlength

theorem nextRound (h : d.InProtocol [] s calls) (now : Timestamp) :
    d.InProtocol Role.order (s.closeRound none now) calls where
  isInTurn := h.isInTurn
  answered := h.answered
  shows := ⟨h.shows.answers, h.shows.turn, h.shows.isFaithful.closeRound none now⟩
  stopReason := rfl
  isSuffix := List.suffix_refl _
  length_eq := by
    have hlength : calls.length + 0 = 5 * (s.roundNumber + 1) := h.length_eq
    rw [State.closeRound]
    change calls.length + 5 = 5 * (s.roundNumber + 1 + 1)
    omega

end InProtocol

/-- Every point of a debate is in protocol. -/
theorem Awaits.inProtocol (h : d.logged.Awaits (.fresh id now) (t₀, []) roles s t) :
    d.InProtocol roles s t.2 := by
  induction h with
  | start _ => exact inProtocol_fresh d id now
  | @answer role roles s t t' o _ hproduce hrole ih =>
    obtain ⟨hanswer, rfl⟩ := Prod.mk.inj hproduce
    have hnext := ih.answer hrole
    rw [← hanswer] at hnext
    exact hnext
  | nextRound _ _ ih => exact ih.nextRound _

/-! ## Whole debates -/

/-- A debate that fails does so with its last call. -/
theorem calls_of_run_eq_error {e : Error}
    (h : d.logged.run (.fresh id now) (t₀, []) = (.error e, t)) :
    ∃ earlier c, t.2 = earlier ++ [c] ∧ (∀ b ∈ earlier, b.error? = none) ∧ c.error? = some e ∧
      ∀ (k : Nat) (b : Call), t.2[k]? = some b → d.IsInTurn (t.2.take k) b := by
  obtain ⟨role, roles, s, t', hawaits, hfails⟩ := run_eq_error_iff.mp h
  have hprotocol := hawaits.inProtocol
  obtain ⟨answer, hcalls, herror⟩ : ∃ answer, t.2 = t'.2 ++ [⟨role, d.context, s, answer⟩] ∧
      Call.error? ⟨role, d.context, s, answer⟩ = some e := by
    cases hfails with
    | @runner e' t hproduce =>
      obtain ⟨hanswer, rfl⟩ := Prod.mk.inj hproduce
      exact ⟨.error e', by rw [← hanswer]; rfl, rfl⟩
    | @roleMismatch o t hproduce hrole =>
      obtain ⟨hanswer, rfl⟩ := Prod.mk.inj hproduce
      exact ⟨.ok o, by rw [← hanswer]; rfl, if_neg hrole⟩
  refine ⟨t'.2, _, hcalls, hprotocol.answered, herror, fun k b hb => ?_⟩
  rw [hcalls] at hb ⊢
  exact hprotocol.isInTurn_concat answer hb

/-- A debate that ends does so with a round. -/
theorem calls_of_run_eq_ok (h : d.logged.run (.fresh id now) (t₀, []) = (.ok s, t)) :
    s.isStopped = true ∧ t.2.length = 5 * s.roundNumber ∧ s.Shows d.config.policy t.2 ∧
      (∀ c ∈ t.2, c.error? = none) ∧
      ∀ (k : Nat) (c : Call), t.2[k]? = some c → d.IsInTurn (t.2.take k) c := by
  obtain ⟨hstopped, n, hrounds⟩ := run_eq_ok_iff.mp h
  -- a fresh state is not stopped, so there is a last round, and after it no role is left to speak
  cases hrounds with
  | zero => cases hstopped
  | succ hrounds hstep =>
    obtain ⟨hnone, spoken, hspeak, rfl⟩ := step_eq_ok hstep
    obtain ⟨hawaits, -⟩ := awaits_of_speak (hrounds.awaits hnone) hspeak
    have hprotocol := hawaits.inProtocol
    exact ⟨hstopped, hprotocol.length_eq, ⟨hprotocol.shows.answers, hprotocol.shows.turn,
      hprotocol.shows.isFaithful.closeRound _ _⟩, hprotocol.answered, hprotocol.isInTurn⟩

/-- Whoever plays the roles and whatever they remember, a debate calls for one role after the other
in their order, round after round, and shows each the state with all that was said before, and the
failures among it, on record. A call that fails, or that gives an output of another role, is the
last one, and its error is that of the debate. There is no other error. A debate that ends does so
with a whole round, the last in which it calls. -/
theorem run_inProtocol (d : Setting σ) (id : String) (now : Timestamp) (t₀ : σ) :
    ∃ result t calls, d.logged.run (.fresh id now) (t₀, []) = (result, t, calls) ∧
      d.run (.fresh id now) t₀ = (result, t) ∧
      (∀ (k : Nat) (c : Call), calls[k]? = some c → d.IsInTurn (calls.take k) c) ∧
      (∀ (k : Nat) (c : Call) (e : Error), calls[k]? = some c → c.error? = some e →
        result = .error e ∧ calls.length = k + 1) ∧
      (∀ e, result = .error e → ∃ c, calls.getLast? = some c ∧ c.error? = some e) ∧
      ∀ s, result = .ok s → s.isStopped = true ∧ calls.length = 5 * s.roundNumber ∧
        s.Shows d.config.policy calls := by
  obtain ⟨result, t, calls, hrun⟩ : ∃ result t calls,
      d.logged.run (.fresh id now) (t₀, []) = (result, t, calls) := ⟨_, _, _, rfl⟩
  have hplain : d.run (.fresh id now) t₀ = (result, t) := by
    rw [← run_logged (t := (t₀, [])), hrun]
    rfl
  refine ⟨result, t, calls, hrun, hplain, ?_⟩
  cases result with
  | error e =>
    obtain ⟨earlier, c, hcalls, hearlier, herror, hturn⟩ := calls_of_run_eq_error hrun
    obtain rfl : calls = earlier ++ [c] := hcalls
    refine ⟨hturn, fun k b e' hb hbe => ?_, fun e' he' => ?_, fun s hs => ?_⟩
    · rcases of_getElem?_concat hb with ⟨-, hb⟩ | ⟨rfl, rfl⟩
      · rw [hearlier b (List.mem_of_getElem? hb)] at hbe
        cases hbe
      · rw [Option.some.inj (herror.symm.trans hbe)]
        exact ⟨rfl, List.length_append⟩
    · rw [← Except.error.inj he']
      exact ⟨c, List.getLast?_concat, herror⟩
    · cases hs
  | ok s =>
    obtain ⟨hstopped, hlength, hshows, hanswered, hturn⟩ := calls_of_run_eq_ok hrun
    refine ⟨hturn, fun k c e hc he => ?_, fun e he => ?_, fun s' hs' => ?_⟩
    · rw [hanswered c (List.mem_of_getElem? hc)] at he
      cases he
    · cases he
    · rw [← Except.ok.inj hs']
      exact ⟨hstopped, hlength, hshows⟩

/-- `oneQuestion` with a runner that answers as the arbiter whenever it is asked the eighth time. -/
def wrongSpeaker : Setting Nat :=
  { oneQuestion with
    runner.produce role context s calls :=
      oneQuestion.runner.produce (if calls = 7 then .arbiter else role) context s calls }

/-- The second round is not finished. -/
example :
    (wrongSpeaker.logged.run (.fresh "d-1" (oneQuestion.clock 0)) (0, [])).2.2.map Call.error? =
      List.replicate 7 none ++ [some (.roleMismatch .contradictionFinder .arbiter 2)] := by
  decide +kernel

end Setting
end Isnad.Debate
