import Isnad.Settings
import Isnad.Proofs.Decimal.Value
import Isnad.Proofs.First

/-!
# Settings in layers

The variables of the environment are looked at one after the other (`override_eq`). Those that are
set replace their settings, up to the first that cannot be read, which is the error
(`override_eq_error_iff`). Then each setting is checked, and the first that is out of its range is
the error (`validate_eq_error_iff`). So a file gives the settings of the layered file and
environment, or an error of the first stage that fails: the file is read before the environment, and
the environment before the settings are checked (`load_layered`).
-/

namespace Isnad.Settings

variable {env : Environment} {p s : Settings} {e : Error} {text raw : String}

/-! ## Variables -/

/-- A variable that is looked at. -/
inductive Variable where
  | confidence | dhabt | rounds
deriving DecidableEq, Repr

namespace Variable

variable {v : Variable}

/-- The variables in the order in which they are looked at. -/
def all : List Variable := [.confidence, .dhabt, .rounds]

def name : Variable → String
  | .confidence => confidenceVariable
  | .dhabt => dhabtVariable
  | .rounds => roundsVariable

/-- What a variable sets. -/
def Value : Variable → Type
  | .confidence | .dhabt => Decimal
  | .rounds => Nat

def read : (v : Variable) → List Char → Option v.Value
  | .confidence | .dhabt => Decimal.ofChars?
  | .rounds => rounds?

def set : (v : Variable) → Settings → v.Value → Settings
  | .confidence => setMinConfidence
  | .dhabt => setMinDhabt
  | .rounds => setMaxRounds

/-- The value that the environment gives, if the variable is set and can be read between blanks. -/
def given (env : Environment) (v : Variable) : Option v.Value :=
  (env v.name).bind fun raw => v.read (Text.trim raw.toList)

/-- The variable is set to a text that it cannot be read from. -/
def IsBad (env : Environment) (v : Variable) (raw : String) : Prop :=
  env v.name = some raw ∧ v.read (Text.trim raw.toList) = none

/-- Each variable that is set can be read. -/
def AllReadable (env : Environment) : Prop := ∀ (v : Variable) (raw : String), ¬ v.IsBad env raw

/-- The first variable that cannot be read is set to the text. -/
def IsFirstBad (env : Environment) (v : Variable) (raw : String) : Prop :=
  IsFirstOf (fun v => ∃ raw, v.IsBad env raw) all v ∧ v.IsBad env raw

/-- The settings with what the environment gives for the variable, if it does. -/
def apply (env : Environment) (s : Settings) (v : Variable) : Settings :=
  (v.given env).elim s (v.set s)

theorem setFrom_eq_ok (h : ¬ ∃ raw, v.IsBad env raw) :
    setFrom env v.name v.read v.set s = .ok (v.apply env s) := by
  rw [setFrom, readVariable, apply, given]
  cases hraw : env v.name with
  | none => rfl
  | some raw =>
    cases hread : v.read (Text.trim raw.toList) with
    | none => exact absurd ⟨raw, hraw, hread⟩ h
    | some a =>
      rw [Option.bind_some, hread]
      dsimp only
      rw [hread]
      rfl

theorem setFrom_eq_error (h : v.IsBad env raw) :
    setFrom env v.name v.read v.set s = .error (.badVariable v.name raw) := by
  rw [setFrom, readVariable, h.1]
  dsimp only
  rw [h.2]
  rfl

end Variable

/-! ## The environment -/

/-- The settings under some variables of the environment. -/
def under (env : Environment) (vs : List Variable) (s : Settings) : Settings :=
  vs.foldl (Variable.apply env) s

/-- The settings under variables that are looked at one after the other, up to one that cannot be
read. -/
def overrideBy (env : Environment) : List Variable → Settings → Settings × Except Error Unit
  | [], s => (s, .ok ())
  | v :: vs, s =>
    match setFrom env v.name v.read v.set s with
    | .error e => (s, .error e)
    | .ok s => overrideBy env vs s

theorem override_eq : override env s = overrideBy env Variable.all s := rfl

/-- The variables that are looked at before this one. -/
def Variable.earlier (v : Variable) : List Variable := Variable.all.takeWhile (· ≠ v)

theorem overrideBy_of_readable {vs : List Variable} (h : ∀ v ∈ vs, ¬ ∃ raw, v.IsBad env raw) :
    overrideBy env vs s = (s.under env vs, .ok ()) := by
  induction vs generalizing s with
  | nil => rfl
  | cons v vs ih =>
    obtain ⟨hv, hvs⟩ := List.forall_mem_cons.mp h
    rw [overrideBy, Variable.setFrom_eq_ok hv]
    exact ih hvs

theorem overrideBy_of_bad {vs : List Variable} {v : Variable} (hbad : v.IsBad env raw)
    (hfirst : IsFirstOf (fun v => ∃ raw, v.IsBad env raw) vs v) :
    overrideBy env vs s =
      (s.under env (vs.takeWhile (· ≠ v)), .error (.badVariable v.name raw)) := by
  induction hfirst generalizing s with
  | head _ =>
    rw [overrideBy, Variable.setFrom_eq_error hbad, List.takeWhile_cons]
    simp [under]
  | @tail x y vs hreadable _ ih =>
    have hne : y ≠ x := fun h => hreadable (h ▸ ⟨raw, hbad⟩)
    rw [overrideBy, Variable.setFrom_eq_ok hreadable, List.takeWhile_cons]
    simp only [hne, ne_eq, not_false_eq_true, decide_true, if_true]
    exact ih hbad

/-- The environment replaces what it gives a value for, and leaves the rest. -/
structure IsLayered (env : Environment) (p s : Settings) : Prop where
  minConfidence : s.gate.minConfidence =
    (Variable.given env .confidence).getD p.gate.minConfidence
  minDhabt : s.gate.minDhabt = (Variable.given env .dhabt).getD p.gate.minDhabt
  maxRounds : s.debate.maxRounds = (Variable.given env .rounds).getD p.debate.maxRounds
  policy : s.debate.policy = p.debate.policy

theorem isLayered_iff : IsLayered env p s ↔ s = p.under env Variable.all := by
  have hall : p.under env Variable.all =
      ⟨⟨(Variable.given env .confidence).getD p.gate.minConfidence,
          (Variable.given env .dhabt).getD p.gate.minDhabt⟩,
        ⟨(Variable.given env .rounds).getD p.debate.maxRounds, p.debate.policy⟩⟩ := by
    simp only [under, Variable.all, List.foldl_cons, List.foldl_nil, Variable.apply]
    cases Variable.given env .confidence <;> cases Variable.given env .dhabt <;>
      cases Variable.given env .rounds <;> rfl
  rw [hall]
  constructor
  · rintro ⟨hc, hd, hr, hp⟩
    obtain ⟨⟨c, d⟩, ⟨r, p'⟩⟩ := s
    subst hc hd hr hp
    rfl
  · rintro rfl
    exact ⟨rfl, rfl, rfl, rfl⟩

/-- There is a first variable that cannot be read unless all can. -/
theorem exists_isFirstBad_iff :
    (∃ v raw, Variable.IsFirstBad env v raw) ↔ ¬ Variable.AllReadable env := by
  constructor
  · rintro ⟨v, raw, h⟩ hall
    exact hall v raw h.2
  · intro h
    simp only [Variable.AllReadable, not_forall, not_not] at h
    obtain ⟨v, hv⟩ := h
    have hmem : v ∈ Variable.all := by cases v <;> decide
    obtain ⟨first, hfirst⟩ := exists_isFirstOf_iff (P := fun v => ∃ raw, Variable.IsBad env v raw)
      |>.mpr ⟨v, hmem, hv⟩
    obtain ⟨raw, hraw⟩ := hfirst.prop
    exact ⟨first, raw, hfirst, hraw⟩

theorem override_of_readable (h : Variable.AllReadable env) :
    override env p = (p.under env Variable.all, .ok ()) := by
  rw [override_eq]
  exact overrideBy_of_readable fun v _ ⟨raw, hraw⟩ => h v raw hraw

theorem override_of_isFirstBad {v : Variable} (h : v.IsFirstBad env raw) :
    override env p = (p.under env v.earlier, .error (.badVariable v.name raw)) :=
  overrideBy_of_bad h.2 h.1

/-- The environment is taken over exactly if all variables that are set can be read. -/
theorem override_eq_ok_iff :
    override env p = (s, .ok ()) ↔ Variable.AllReadable env ∧ IsLayered env p s := by
  rw [isLayered_iff]
  by_cases h : Variable.AllReadable env
  · rw [override_of_readable h, Prod.mk.injEq]
    exact ⟨fun hs => ⟨h, hs.1.symm⟩, fun hs => ⟨hs.2.symm, rfl⟩⟩
  · obtain ⟨v, raw, hfirst⟩ := exists_isFirstBad_iff.mpr h
    rw [override_of_isFirstBad hfirst]
    exact iff_of_false nofun fun hs => h hs.1

/-- Otherwise the first that cannot be read is the error, and those before it have been taken
over. -/
theorem override_eq_error_iff :
    override env p = (s, .error e) ↔
      ∃ v raw, Variable.IsFirstBad env v raw ∧ e = .badVariable v.name raw ∧
        s = p.under env v.earlier := by
  constructor
  · intro hs
    by_cases h : Variable.AllReadable env
    · rw [override_of_readable h] at hs
      cases hs
    · obtain ⟨v, raw, hfirst⟩ := exists_isFirstBad_iff.mpr h
      rw [override_of_isFirstBad hfirst] at hs
      cases hs
      exact ⟨v, raw, hfirst, rfl, rfl⟩
  · rintro ⟨v, raw, h, rfl, rfl⟩
    exact override_of_isFirstBad h

/-! ## Validity -/

/-- A setting that is checked. -/
inductive Setting where
  | minConfidence | minDhabt | ceiling | maxRounds
deriving DecidableEq, Repr

namespace Setting

/-- The settings in the order in which they are checked. -/
def all : List Setting := [.minConfidence, .minDhabt, .ceiling, .maxRounds]

def name : Setting → String
  | .minConfidence => "gate.min_confidence"
  | .minDhabt => "gate.min_dhabt"
  | .ceiling => "debate.muhasabah.confidence_ceiling"
  | .maxRounds => "debate.max_rounds"

/-- The setting is out of its range. -/
def Offends (s : Settings) : Setting → Prop
  | .minConfidence => ¬ (0 ≤ s.gate.minConfidence.toRat ∧ s.gate.minConfidence.toRat ≤ 1)
  | .minDhabt => ¬ (0 ≤ s.gate.minDhabt.toRat ∧ s.gate.minDhabt.toRat ≤ 1)
  | .ceiling => ¬ (0 ≤ s.debate.policy.ceiling.toRat ∧ s.debate.policy.ceiling.toRat ≤ 1)
  | .maxRounds => ¬ 1 ≤ s.debate.maxRounds

/-- The error for a setting that is out of its range. -/
def error (s : Settings) : Setting → Error
  | .minConfidence => .outOfRange "gate.min_confidence" s.gate.minConfidence
  | .minDhabt => .outOfRange "gate.min_dhabt" s.gate.minDhabt
  | .ceiling => .outOfRange "debate.muhasabah.confidence_ceiling" s.debate.policy.ceiling
  | .maxRounds => .noRounds

def check (s : Settings) : Setting → Except Error Unit
  | .minConfidence => checkUnit "gate.min_confidence" s.gate.minConfidence
  | .minDhabt => checkUnit "gate.min_dhabt" s.gate.minDhabt
  | .ceiling => checkUnit "debate.muhasabah.confidence_ceiling" s.debate.policy.ceiling
  | .maxRounds => if s.debate.maxRounds = 0 then .error .noRounds else .ok ()

/-- The message says that the settings are invalid and begins with the name of the setting. -/
theorem message?_error (s : Settings) (x : Setting) :
    ∃ why, (x.error s).message? = some ("invalid config: " ++ x.name ++ why) := by
  cases x with
  | maxRounds => exact ⟨" must be at least 1", rfl⟩
  | _ => exact ⟨_, congrArg some String.append_assoc⟩

end Setting

theorem checkUnit_eq_error_iff {name : String} {x : Decimal} :
    checkUnit name x = .error e ↔ ¬ (0 ≤ x.toRat ∧ x.toRat ≤ 1) ∧ e = .outOfRange name x := by
  rw [checkUnit, ← Decimal.inUnitInterval_iff_toRat]
  cases x.inUnitInterval with
  | true => exact iff_of_false nofun fun h => h.1 rfl
  | false =>
    exact ⟨fun h => ⟨nofun, (Except.error.inj h).symm⟩, fun h => congrArg Except.error h.2.symm⟩

theorem check_eq_error_iff {x : Setting} :
    x.check s = .error e ↔ x.Offends s ∧ e = x.error s := by
  cases x with
  | maxRounds =>
    simp only [Setting.check, Setting.Offends, Setting.error]
    split <;> simp_all [eq_comm]
  | _ => exact checkUnit_eq_error_iff

theorem validate_eq_error_iff_mapM :
    s.validate = .error e ↔ Setting.all.mapM (Setting.check s) = .error e := by
  have hdone : ∀ (us : List Unit), (pure us : Except Error (List Unit)) ≠ .error e := fun _ => nofun
  simp only [validate, Setting.all, List.mapM_cons, List.mapM_nil, Json.bind_eq_error_iff,
    Setting.check, hdone, and_false, exists_false, or_false]

/-- The first setting that is out of its range is the error. -/
theorem validate_eq_error_iff :
    s.validate = .error e ↔
      ∃ x : Setting, IsFirstOf (Setting.Offends s) Setting.all x ∧ e = x.error s := by
  have hfails : Fails (Setting.check s) = Setting.Offends s := by
    funext x
    simp only [Fails, check_eq_error_iff, exists_and_left, exists_eq, and_true]
  rw [validate_eq_error_iff_mapM, mapM_eq_error_iff, hfails]
  refine exists_congr fun x => and_congr_right fun hfirst => ?_
  rw [check_eq_error_iff, and_iff_right hfirst.prop]

/-- Thresholds and the ceiling lie between zero and one, and there is at least one round. -/
structure IsValid (s : Settings) : Prop where
  minConfidence : 0 ≤ s.gate.minConfidence.toRat ∧ s.gate.minConfidence.toRat ≤ 1
  minDhabt : 0 ≤ s.gate.minDhabt.toRat ∧ s.gate.minDhabt.toRat ≤ 1
  ceiling : 0 ≤ s.debate.policy.ceiling.toRat ∧ s.debate.policy.ceiling.toRat ≤ 1
  maxRounds : 1 ≤ s.debate.maxRounds

theorem isValid_iff : s.IsValid ↔ ∀ x : Setting, ¬ x.Offends s := by
  constructor
  · intro h x
    cases x with
    | minConfidence => exact not_not.mpr h.minConfidence
    | minDhabt => exact not_not.mpr h.minDhabt
    | ceiling => exact not_not.mpr h.ceiling
    | maxRounds => exact not_not.mpr h.maxRounds
  · intro h
    exact ⟨not_not.mp (h .minConfidence), not_not.mp (h .minDhabt), not_not.mp (h .ceiling),
      not_not.mp (h .maxRounds)⟩

theorem validate_eq_ok_iff : s.validate = .ok () ↔ s.IsValid := by
  have hoffence : (∃ e, s.validate = .error e) ↔ ∃ x : Setting, x.Offends s := by
    simp only [validate_eq_error_iff]
    constructor
    · rintro ⟨e, x, hfirst, -⟩
      exact ⟨x, hfirst.prop⟩
    · rintro ⟨x, hx⟩
      have hmem : x ∈ Setting.all := by cases x <;> decide
      obtain ⟨first, hfirst⟩ := exists_isFirstOf_iff.mpr ⟨x, hmem, hx⟩
      exact ⟨_, first, hfirst, rfl⟩
  rw [isValid_iff, ← not_exists, ← hoffence]
  cases s.validate <;> simp

/-! ## Files -/

theorem finish_of_isFirstBad {v : Variable} (h : v.IsFirstBad env raw) :
    finish env p = .error (.badVariable v.name raw) := by
  rw [finish, override_of_isFirstBad h]
  rfl

theorem finish_of_isLayered (h : Variable.AllReadable env) (hs : IsLayered env p s) :
    finish env p = s.validate.map fun _ => s := by
  rw [finish, override_eq_ok_iff.mpr ⟨h, hs⟩]
  rfl

theorem isLayered_under : IsLayered env p (p.under env Variable.all) := isLayered_iff.mpr rfl

theorem finish_eq_ok_iff :
    finish env p = .ok s ↔ Variable.AllReadable env ∧ IsLayered env p s ∧ s.IsValid := by
  by_cases h : Variable.AllReadable env
  · rw [finish_of_isLayered h isLayered_under, isLayered_iff, ← validate_eq_ok_iff]
    cases hv : (p.under env Variable.all).validate with
    | error e =>
      refine iff_of_false nofun ?_
      rintro ⟨-, rfl, hs⟩
      rw [hv] at hs
      cases hs
    | ok u =>
      constructor
      · rintro ⟨⟩
        exact ⟨h, rfl, hv⟩
      · rintro ⟨-, rfl, -⟩
        rfl
  · obtain ⟨v, raw, hfirst⟩ := exists_isFirstBad_iff.mpr h
    rw [finish_of_isFirstBad hfirst]
    exact iff_of_false nofun fun hs => h hs.1

/-- The error is that of the first variable that cannot be read, and if all can, that of the first
setting that is out of its range then. -/
theorem finish_eq_error_iff :
    finish env p = .error e ↔
      (∃ v raw, Variable.IsFirstBad env v raw ∧ e = .badVariable v.name raw) ∨
        Variable.AllReadable env ∧ ∃ c x, IsLayered env p c ∧
          IsFirstOf (Setting.Offends c) Setting.all x ∧ e = x.error c := by
  constructor
  · intro he
    by_cases h : Variable.AllReadable env
    · rw [finish_of_isLayered h isLayered_under] at he
      cases hv : (p.under env Variable.all).validate with
      | ok u =>
        rw [hv] at he
        cases he
      | error e' =>
        rw [hv] at he
        cases he
        obtain ⟨x, hfirst, hx⟩ := validate_eq_error_iff.mp hv
        exact .inr ⟨h, _, x, isLayered_under, hfirst, hx⟩
    · obtain ⟨v, raw, hfirst⟩ := exists_isFirstBad_iff.mpr h
      rw [finish_of_isFirstBad hfirst] at he
      exact .inl ⟨v, raw, hfirst, (Except.error.inj he).symm⟩
  · rintro (⟨v, raw, hfirst, rfl⟩ | ⟨h, c, x, hlayered, hfirst, rfl⟩)
    · exact finish_of_isFirstBad hfirst
    · rw [finish_of_isLayered h hlayered, validate_eq_error_iff.mpr ⟨x, hfirst, rfl⟩]
      rfl

theorem finish_ne_unparsable : finish env p ≠ .error .unparsable := by
  intro h
  rcases finish_eq_error_iff.mp h with ⟨v, raw, -, he⟩ | ⟨-, c, x, -, -, he⟩
  · cases he
  · cases x <;> cases he

theorem load_of_parsed (h : ofToml text = .ok p) : load (some text) env = finish env p := by
  rw [load, h]
  rfl

theorem unparsable_of_ofToml (h : ofToml text = .error e) : e = .unparsable := by
  unfold ofToml at h
  split at h
  · split at h
    · cases h
    · exact (Except.error.inj h).symm
  · exact (Except.error.inj h).symm

theorem load_eq_unparsable_iff :
    load (some text) env = .error .unparsable ↔ ∀ p, ofToml text ≠ .ok p := by
  cases hp : ofToml text with
  | error e =>
    refine iff_of_true ?_ fun p => nofun
    rw [load, hp, unparsable_of_ofToml hp]
    rfl
  | ok p =>
    rw [load_of_parsed hp]
    exact iff_of_false finish_ne_unparsable fun h => h p rfl

theorem ofToml_empty : ofToml "" = .ok standard := rfl

/-- The environment is taken over if each variable that is set can be read between blanks: it
replaces the settings it gives values for, and nothing else. Otherwise the first variable that
cannot be read is the error, with its text, and only those before it have been taken over. A file
that was read is unparsable, or else gives the error of the environment, or else the settings of
both layers, if these are valid, or else the error of the first of them that is out of its range,
which is named. Without a file the settings are those of an empty one. -/
theorem load_layered :
    (∀ (env : Environment) (p : Settings),
      ((∃ s, override env p = (s, .ok ())) ↔ Variable.AllReadable env) ∧
      (∀ s, override env p = (s, .ok ()) → IsLayered env p s) ∧
      (∀ s e, override env p = (s, .error e) ↔
        ∃ v raw, Variable.IsFirstBad env v raw ∧ e = .badVariable v.name raw ∧
          s = p.under env v.earlier) ∧
      ((∃ v raw, Variable.IsFirstBad env v raw) ↔ ¬ Variable.AllReadable env)) ∧
    (∀ (text : String) (env : Environment),
      (load (some text) env = .error .unparsable ↔ ∀ p, ofToml text ≠ .ok p) ∧
      ∀ p, ofToml text = .ok p →
        (∀ s, load (some text) env = .ok s ↔
          Variable.AllReadable env ∧ IsLayered env p s ∧ s.IsValid) ∧
        ∀ e, load (some text) env = .error e ↔
          (∃ v raw, Variable.IsFirstBad env v raw ∧ e = .badVariable v.name raw) ∨
            Variable.AllReadable env ∧ ∃ c x, IsLayered env p c ∧
              IsFirstOf (Setting.Offends c) Setting.all x ∧ e = x.error c) ∧
    (∀ (s : Settings) (x : Setting),
      ∃ why, (x.error s).message? = some ("invalid config: " ++ x.name ++ why)) ∧
    ∀ env, ofEnvironment env = load (some "") env := by
  refine ⟨fun env p => ⟨⟨?_, fun h => ⟨_, override_of_readable h⟩⟩, ?_,
      fun s e => override_eq_error_iff, exists_isFirstBad_iff⟩,
    fun text env => ⟨load_eq_unparsable_iff, fun p hp => ?_⟩, Setting.message?_error,
    fun env => (load_of_parsed ofToml_empty).symm⟩
  · rintro ⟨s, hs⟩
    exact (override_eq_ok_iff.mp hs).1
  · exact fun s hs => (override_eq_ok_iff.mp hs).2
  · rw [load_of_parsed hp]
    exact ⟨fun s => finish_eq_ok_iff, fun e => finish_eq_error_iff⟩


/-- A file with a threshold that is out of its range: an environment that gives the threshold
repairs it, a variable that cannot be read comes first, and otherwise the file's threshold is named
before one of the environment. -/
theorem load_layered_repaired :
    let file : Settings := setMinConfidence standard ⟨false, 15, 1, by decide, by decide⟩
    let text := "[gate]\nmin_confidence = \"1.5\"\n"
    ofToml text = .ok file ∧
      load (some text) ([(confidenceVariable, " 0.97 ")].lookup ·) =
        .ok (setMinConfidence standard (.percent 97 (by decide))) ∧
      load (some text) ([(roundsVariable, "many")].lookup ·) =
        .error (.badVariable roundsVariable "many") ∧
      load (some text) ([(dhabtVariable, "2")].lookup ·) =
        .error (.outOfRange "gate.min_confidence" ⟨false, 15, 1, by decide, by decide⟩) := by
  intro file text
  have hfile : ofToml text = .ok file := by decide +kernel
  have hload := fun env => (load_layered.2.1 text env).2 file hfile
  refine ⟨hfile, ((hload _).1 _).mpr ⟨?_, ⟨rfl, rfl, rfl, rfl⟩, ?_⟩,
    ((hload _).2 _).mpr (.inl ⟨.rounds, "many", ⟨?_, rfl, rfl⟩, rfl⟩),
    ((hload _).2 _).mpr (.inr ⟨?_, setMinDhabt file ⟨false, 2, 0, by decide, by decide⟩,
      .minConfidence, ⟨rfl, rfl, rfl, rfl⟩, .head ?_, rfl⟩)⟩
  · rintro v raw ⟨hraw, hread⟩
    cases v with
    | confidence =>
      obtain rfl : " 0.97 " = raw := Option.some.inj hraw
      cases hread
    | dhabt | rounds => cases hraw
  · exact validate_eq_ok_iff.mp rfl
  · exact .tail (fun ⟨_, hraw, _⟩ => nomatch hraw)
      (.tail (fun ⟨_, hraw, _⟩ => nomatch hraw) (.head ⟨"many", rfl, rfl⟩))
  · rintro v raw ⟨hraw, hread⟩
    cases v with
    | dhabt =>
      obtain rfl : "2" = raw := Option.some.inj hraw
      cases hread
    | confidence | rounds => cases hraw
  · have hone : ¬ file.gate.minConfidence.inUnitInterval = true := by decide
    exact fun h => hone (Decimal.inUnitInterval_iff_toRat.mpr h)

end Isnad.Settings
