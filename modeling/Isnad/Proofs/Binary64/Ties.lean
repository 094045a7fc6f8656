import Isnad.Proofs.Binary64.Shortest
import Mathlib.Tactic.LinearCombination

/-!
# Numbers halfway between two shortest decimals

The two rules for a half give different shortest decimals exactly for the numbers that lie halfway
between two decimals that round to them, none shorter (`isTied_iff`). Such a number has few binary
places and so few decimal ones, and the two rules show its two neighbours (`exists_of_isTied`).
-/

namespace Isnad.Binary64

variable {x : Binary64} {b : Bounds} {q n : Nat} {p power : Int} {tie : Tie}

/-- The value lies halfway between two points of the interval, the lower one of them even. -/
structure Bounds.Halves (b : Bounds) (q : Nat) (p : Int) : Prop where
  lower : b.Contains (q * 10 ^ p)
  upper : b.Contains ((q + 1 : Nat) * 10 ^ p)
  even : q % 2 = 0
  half : (b.value / b.den : ℚ) = (q + 1 / 2) * 10 ^ p

/-- No point of a grid is in the interval. -/
def Bounds.Misses (b : Bounds) (p : Int) : Prop := ∀ n : Nat, ¬ b.Contains (n * 10 ^ p)

/-- The number lies halfway between two decimals that round to it, the lower one of them even, and
no decimal with fewer digits rounds to it. -/
def IsTied (x : Binary64) : Prop := ∃ q p, x.bounds.Halves q p ∧ x.bounds.Misses (p + 1)

/-- What the shortest digits of a number show. -/
def shown (x : Binary64) (tie : Tie) : ℚ := (x.shortest tie).1 * 10 ^ (x.shortest tie).2

/-! ## A half on a grid -/

/-- A grid has the points of the coarser ones. -/
theorem Bounds.Misses.mono {p' : Int} (h : b.Misses p) (hle : p ≤ p') : b.Misses p' := by
  intro n hn
  refine h (n * 10 ^ (p' - p).toNat) ?_
  have hpow : (10 : ℚ) ^ p' = 10 ^ (p' - p).toNat * 10 ^ p := by
    rw [← zpow_natCast, ← zpow_add₀ (by norm_num)]
    congr 1
    omega
  rw [hpow, ← mul_assoc] at hn
  exact_mod_cast hn

/-- The value in steps of a grid. -/
theorem value_eq (hd : 0 < b.den) (p : Int) :
    (b.value / b.den : ℚ) =
      (b.value * pow10 (-p).toNat : Nat) / (b.den * pow10 p.toNat : Nat) * 10 ^ p := by
  have hd' : (0 : ℚ) < b.den := by exact_mod_cast hd
  have hneg := pow10_cast_pos (-p).toNat
  have hpos := pow10_cast_pos p.toNat
  rw [cast_zpow10]
  push_cast
  field_simp

theorem half_of_mod {num den : Nat} (hd : 0 < den) (h : 2 * (num % den) = den) :
    (num / den : ℚ) = (num / den : Nat) + 1 / 2 := by
  have hd' : (0 : ℚ) < den := by exact_mod_cast hd
  have hsplit : (2 * num : ℚ) = 2 * (den * (num / den : Nat)) + den := by
    have hmod := Nat.div_add_mod num den
    have hnat : 2 * num = 2 * (den * (num / den)) + den := by omega
    exact_mod_cast hnat
  rw [div_eq_iff hd'.ne']
  linarith

/-- The two rules agree but for a half. -/
theorem onGrid?_cases (hd : 0 < b.den) (p : Int) :
    b.onGrid? .even p = b.onGrid? .up p ∨ ∃ q, b.Halves q p := by
  have hdp : 0 < b.den * pow10 p.toNat := Nat.mul_pos hd (pow10_pos _)
  have hvalue := value_eq hd p
  unfold Bounds.onGrid?
  dsimp only
  generalize b.value * pow10 (-p).toNat = num at *
  generalize b.den * pow10 p.toNat = den at *
  split
  · rename_i hq hq'
    by_cases hhalf : 2 * (num % den) = den ∧ num / den % 2 = 0
    · obtain ⟨hr, heven⟩ := hhalf
      refine .inr ⟨num / den, (has_iff hd).mp hq, (has_iff hd).mp hq', heven, ?_⟩
      rw [hvalue, half_of_mod hdp hr]
    · refine .inl ?_
      have hupper : (decide (den < 2 * (num % den)) ||
          decide (2 * (num % den) = den) && decide (num / den % 2 = 1)) =
          decide (den ≤ 2 * (num % den)) := by
        rw [Bool.eq_iff_iff]
        simp only [Bool.or_eq_true, Bool.and_eq_true, decide_eq_true_eq]
        omega
      rw [hupper]
  · exact .inl rfl
  · exact .inl rfl
  · exact .inl rfl

/-- At a half the two rules differ. -/
theorem Bounds.Halves.onGrid? (hd : 0 < b.den) (h : b.Halves q p) :
    b.onGrid? .even p = some q ∧ b.onGrid? .up p = some (q + 1) := by
  have hdp : 0 < b.den * pow10 p.toNat := Nat.mul_pos hd (pow10_pos _)
  have hhalf := h.half
  rw [value_eq hd p] at hhalf
  have hratio := mul_right_cancel₀ (by positivity) hhalf
  have hq := (has_iff hd).mpr h.lower
  have hq' := (has_iff hd).mpr h.upper
  unfold Bounds.onGrid?
  dsimp only
  generalize b.value * pow10 (-p).toNat = num at *
  generalize b.den * pow10 p.toNat = den at *
  have hnum : 2 * num = 2 * (den * q) + den := by
    have hdp' : (den : ℚ) ≠ 0 := by exact_mod_cast hdp.ne'
    rw [div_eq_iff hdp'] at hratio
    have hrat : (2 * num : ℚ) = 2 * (den * q) + den := by
      rw [hratio]
      ring
    exact_mod_cast hrat
  have hdiv : num / den = q := Nat.div_eq_of_lt_le (by nlinarith) (by nlinarith)
  have hr : 2 * (num % den) = den := by
    have hmod := Nat.div_add_mod num den
    rw [hdiv] at hmod
    omega
  rw [hdiv, hq, hq']
  simp [hr, h.even]

theorem onGrid?_eq_none (hd : 0 < b.den) (h : b.Misses p) : b.onGrid? tie p = none := by
  cases hgrid : b.onGrid? tie p with
  | none => rfl
  | some n => exact absurd ((has_iff hd).mp (has_of_onGrid? hgrid)) (h n)

/-- The search ends on the first half that it comes to. -/
theorem Bounds.Halves.search (hd : 0 < b.den) (h : b.Halves q p) (hmiss : b.Misses (p + 1))
    (steps : Nat) (hle : p ≤ power) (hlt : power < p + steps) :
    b.search .even steps power = (q, p) ∧ b.search .up steps power = (q + 1, p) := by
  induction steps generalizing power with
  | zero => omega
  | succ steps ih =>
    rw [Bounds.search, Bounds.search]
    rcases hle.eq_or_lt with rfl | hlow
    · obtain ⟨heven, hup⟩ := h.onGrid? hd
      rw [heven, hup]
      exact ⟨rfl, rfl⟩
    · have hpower := hmiss.mono hlow
      rw [onGrid?_eq_none hd hpower, onGrid?_eq_none hd hpower]
      exact ih (by omega) (by omega)

/-- The two rules give one search unless it ends at a half. -/
theorem search_cases (hd : 0 < b.den) (hvalue : b.Contains (b.value / b.den)) (steps : Nat)
    (power : Int) :
    b.search .even steps power = b.search .up steps power ∨
      ∃ q p, b.Halves q p ∧ (p = power ∨ b.Misses (p + 1)) := by
  induction steps generalizing power with
  | zero => exact .inl rfl
  | succ steps ih =>
    rw [Bounds.search, Bounds.search]
    rcases onGrid?_cases hd power with heq | ⟨q, hhalf⟩
    · rw [heq]
      cases hgrid : b.onGrid? .up power with
      | some n => exact .inl rfl
      | none =>
        rcases ih (power - 1) with hsame | ⟨q, p, hhalf, rfl | hmiss⟩
        · exact .inl hsame
        · refine .inr ⟨q, _, hhalf, .inr fun n hn => ?_⟩
          rw [sub_add_cancel] at hn
          obtain ⟨m, hm⟩ := onGrid?_isSome .up hd hvalue hn
          rw [hgrid] at hm
          cases hm
        · exact .inr ⟨q, p, hhalf, .inr hmiss⟩
    · exact .inr ⟨q, power, hhalf, .inl rfl⟩

/-! ## The number of digits -/

theorem onGrid?_le (h : b.onGrid? tie p = some n) :
    n ≤ b.value * pow10 (-p).toNat / (b.den * pow10 p.toNat) + 1 := by
  unfold Bounds.onGrid? at h
  dsimp only at h
  generalize b.value * pow10 (-p).toNat / (b.den * pow10 p.toNat) = q at *
  split at h
  · have hboth : ∀ c : Bool, (if c then q + 1 else q) ≤ q + 1 := by
      intro c
      cases c with
      | true => exact le_refl _
      | false => exact Nat.le_succ q
    obtain rfl := Option.some.inj h
    exact hboth _
  · cases h
    omega
  · cases h
    omega
  · cases h

/-- What a search finds is at most a step above the number, on one of the grids it goes through. -/
theorem search_le (hd : 0 < b.den) (tie : Tie) (steps : Nat) (power : Int) :
    power - steps ≤ (b.search tie steps power).2 ∧
      ((b.search tie steps power).1 * 10 ^ (b.search tie steps power).2 : ℚ) ≤
        b.value / b.den + 10 ^ (b.search tie steps power).2 := by
  have hfloor : ∀ {n : Nat} {p : Int},
      n ≤ b.value * pow10 (-p).toNat / (b.den * pow10 p.toNat) + 1 →
      (n * 10 ^ p : ℚ) ≤ b.value / b.den + 10 ^ p := by
    intro n p hn
    have hpow : (0 : ℚ) < 10 ^ p := by positivity
    have hlow := (floor_bounds hd p).1
    generalize b.value * pow10 (-p).toNat / (b.den * pow10 p.toNat) = q at *
    have hn' : (n : ℚ) ≤ q + 1 := by exact_mod_cast hn
    nlinarith
  induction steps generalizing power with
  | zero => exact ⟨by simp [Bounds.search], hfloor (Nat.le_succ _)⟩
  | succ steps ih =>
    rw [Bounds.search]
    cases hgrid : b.onGrid? tie power with
    | some n => exact ⟨by dsimp only; omega, hfloor (onGrid?_le hgrid)⟩
    | none =>
      obtain ⟨hpower, hle⟩ := ih (power - 1)
      exact ⟨by dsimp only; omega, hle⟩

theorem trimZeros_fst_le (steps n : Nat) (p : Int) : (trimZeros steps n p).1 ≤ n := by
  induction steps generalizing n p with
  | zero => exact le_refl n
  | succ steps ih =>
    rw [trimZeros]
    split
    · exact (ih (n / 10) (p + 1)).trans (Nat.div_le_self n 10)
    · exact le_refl n

theorem search_fst_le (hx : 0 < x.significand) (tie : Tie) :
    (x.bounds.search tie 17 (leadingPower x.bounds)).1 ≤ 10 ^ 18 := by
  obtain ⟨hpower, hle⟩ := search_le x.bounds_den_pos tie 17 (leadingPower x.bounds)
  have hlead := (leadingPower_spec hx).2
  rw [bounds_value] at hle
  generalize x.bounds.search tie 17 (leadingPower x.bounds) = r at *
  have hpow : (0 : ℚ) < 10 ^ r.2 := by positivity
  have hsize : x.size < 10 ^ 18 * 10 ^ r.2 := by
    calc x.size < 10 ^ (leadingPower x.bounds + 1) := hlead
      _ ≤ 10 ^ ((18 : Nat) + r.2) := zpow_le_zpow_right₀ (by norm_num) (by push_cast; omega)
      _ = 10 ^ 18 * 10 ^ r.2 := by rw [zpow_add₀ (by norm_num), zpow_natCast]
  have hlt : (r.1 : ℚ) < 10 ^ 18 + 1 := by
    by_contra hge
    nlinarith [not_lt.mp hge]
  have hlt' : r.1 < 10 ^ 18 + 1 := by exact_mod_cast hlt
  omega

theorem shortest_of_pos (hx : 0 < x.significand) (tie : Tie) :
    x.shortest tie =
      trimZeros 17 (x.bounds.search tie 17 (leadingPower x.bounds)).1
        (x.bounds.search tie 17 (leadingPower x.bounds)).2 := by
  have hzero : x.isZero = false := by
    rw [isZero, decide_eq_false_iff_not]
    omega
  rw [shortest, hzero]
  rfl

/-- Eighteen digits are never exceeded. -/
theorem shortest_fst_le (x : Binary64) (tie : Tie) : (x.shortest tie).1 ≤ 10 ^ 18 := by
  rcases Nat.eq_zero_or_pos x.significand with hzero | hpos
  · rw [shortest, isZero, if_pos (decide_eq_true hzero)]
    exact Nat.zero_le _
  · rw [shortest_of_pos hpos]
    exact (trimZeros_fst_le _ _ _).trans (search_fst_le hpos tie)

/-! ## Ties -/

namespace Bounds.Halves

variable (h : x.bounds.Halves q p)
include h

/-- The digits of the half have a factor five for each place. -/
theorem five_pow_dvd {k : Nat} (hk : p = -k) : 5 ^ k ∣ 2 * q + 1 := by
  have hten : (0 : ℚ) < 10 ^ k := by positivity
  have htwo : (0 : ℚ) < 2 ^ (-(x.exponent + 1)).toNat := by positivity
  have hhalf := h.half
  have hpow := zpow_toNat_div (a := 2) (x.exponent + 1)
  have hsplit : (10 : ℚ) ^ k = 5 ^ k * 2 ^ k := by
    rw [← mul_pow]
    norm_num
  rw [bounds_value, size, hk, zpow_neg, zpow_natCast, ← div_eq_mul_inv, eq_div_iff hten.ne',
    hsplit] at hhalf
  rw [zpow_add_one₀ (by norm_num), div_eq_iff htwo.ne'] at hpow
  have hdigits : (2 * q + 1) * 2 ^ (-(x.exponent + 1)).toNat =
      5 ^ k * (x.significand * 2 ^ (x.exponent + 1).toNat * 2 ^ k) := by
    have hrat : ((2 * q + 1) * 2 ^ (-(x.exponent + 1)).toNat : ℚ) =
        5 ^ k * (x.significand * 2 ^ (x.exponent + 1).toNat * 2 ^ k) := by
      rw [hpow]
      linear_combination (-2 * 2 ^ (-(x.exponent + 1)).toNat : ℚ) * hhalf
    exact_mod_cast hrat
  have hcoprime : Nat.Coprime (5 ^ k) (2 ^ (-(x.exponent + 1)).toNat) :=
    Nat.Coprime.pow _ _ (by decide)
  exact hcoprime.dvd_of_dvd_mul_right ⟨_, hdigits⟩

theorem neg_le (hq : q < 10 ^ 18) : -28 ≤ p := by
  by_contra hlt
  obtain ⟨k, hk⟩ := Int.eq_ofNat_of_zero_le (show 0 ≤ -p by omega)
  have hdvd := Nat.le_of_dvd (Nat.succ_pos _) (h.five_pow_dvd (k := k) (by omega))
  have hpow : 5 ^ 29 ≤ 5 ^ k := Nat.pow_le_pow_right (by norm_num) (by omega)
  omega

theorem significand_pos : 0 < x.significand := by
  by_contra hzero
  have hpow : (0 : ℚ) < 10 ^ p := by positivity
  have hhalf := h.half
  rw [bounds_value, size, Nat.eq_zero_of_not_pos hzero, Nat.cast_zero, zero_mul] at hhalf
  have hsize : (0 : ℚ) < (q + 1 / 2) * 10 ^ p := by positivity
  exact hsize.ne hhalf

/-- Zero is in no interval. -/
theorem pos : 0 < q := by
  have hx := h.significand_pos
  by_contra hzero
  have hlow := h.lower.le.1
  rw [Nat.eq_zero_of_not_pos hzero, Nat.cast_zero, zero_mul, bounds_low hx] at hlow
  have hm : (1 : ℚ) ≤ x.significand := by exact_mod_cast hx
  have hgap := x.gap_le
  have hpow : (0 : ℚ) < 2 ^ x.exponent := by positivity
  nlinarith

theorem le_size : (q * 10 ^ p : ℚ) ≤ x.size := by
  have hhalf := h.half
  have hpow : (0 : ℚ) < 10 ^ p := by positivity
  rw [bounds_value] at hhalf
  nlinarith

/-- Halves of numbers up to one have places. -/
theorem exists_places (hle : (q * 10 ^ p : ℚ) ≤ 1) : ∃ k : Nat, 0 < k ∧ p = -k ∧ q < 10 ^ k := by
  have hpos := h.pos
  have heven := h.even
  have hq : (2 : ℚ) ≤ q := by
    have hq : 2 ≤ q := by omega
    exact_mod_cast hq
  have hneg : p < 0 := by
    by_contra hge
    have hone : (1 : ℚ) ≤ 10 ^ p := one_le_zpow₀ (by norm_num) (not_lt.mp hge)
    nlinarith
  obtain ⟨k, hk⟩ := Int.eq_ofNat_of_zero_le (show 0 ≤ -p by omega)
  have hk' : p = -k := by omega
  refine ⟨k, by omega, hk', ?_⟩
  have hle' : q ≤ 10 ^ k := by
    rw [hk', zpow_neg, zpow_natCast, ← div_eq_mul_inv, div_le_one (by positivity)] at hle
    exact_mod_cast hle
  refine lt_of_le_of_ne hle' fun heq => ?_
  -- one itself is no half with places
  have hdvd := h.five_pow_dvd hk'
  have hone : 5 ^ k ∣ 1 := by
    have hten : 5 ^ k ∣ 2 * q := heq ▸ (pow_dvd_pow_of_dvd (by norm_num) k).mul_left 2
    exact (Nat.dvd_add_right hten).mp hdvd
  have hfive : 5 ≤ 5 ^ k := Nat.le_self_pow (by omega) 5
  have hle'' := Nat.le_of_dvd Nat.one_pos hone
  omega

/-- No number lies halfway between two decimals of one digit. -/
theorem ten_le : 10 ≤ q := by
  by_contra hlt
  rcases Nat.lt_or_ge x.significand (pow2 52) with hsub | hnormal
  · have hsize := h.le_size
    have hq : (1 : ℚ) ≤ q := by exact_mod_cast h.pos
    have hm : (x.significand : ℚ) < 2 ^ 52 := by
      rw [← cast_pow2]
      exact_mod_cast hsub
    have hpow : (10 : ℚ) ^ (-28 : Int) ≤ 10 ^ p :=
      zpow_le_zpow_right₀ (by norm_num) (h.neg_le (by omega))
    have htiny : (2 : ℚ) ^ 52 * 2 ^ (-1074 : Int) < 10 ^ (-28 : Int) := by
      calc (2 : ℚ) ^ 52 * 2 ^ (-1074 : Int) ≤ 2 ^ 52 * 2 ^ (-200 : Int) :=
            mul_le_mul_of_nonneg_left (zpow_le_zpow_right₀ (by norm_num) (by decide)) (by norm_num)
        _ < 10 ^ (-28 : Int) := by norm_num
    have hstep : (0 : ℚ) < 2 ^ (-1074 : Int) := by positivity
    rw [size, x.normal.resolve_left (not_le.mpr hsub)] at hsize
    nlinarith
  · have heq := eq_of_contains hnormal (by omega) h.lower h.upper
    omega

theorem le_leadingPower : p ≤ leadingPower x.bounds := by
  have hlead := (leadingPower_spec h.significand_pos).2
  have hpow : (0 : ℚ) < 10 ^ p := by positivity
  have hq : (1 : ℚ) ≤ q := by exact_mod_cast h.pos
  have hlt : (10 : ℚ) ^ p < 10 ^ (leadingPower x.bounds + 1) := by
    nlinarith [h.le_size]
  rw [zpow10_lt_iff] at hlt
  omega

theorem ne_leadingPower : p ≠ leadingPower x.bounds := by
  rintro rfl
  have hlead := (leadingPower_spec h.significand_pos).2
  have hpow : (0 : ℚ) < 10 ^ leadingPower x.bounds := by positivity
  have hq : (10 : ℚ) ≤ q := by exact_mod_cast h.ten_le
  rw [zpow_add_one₀ (by norm_num)] at hlead
  nlinarith [h.le_size]

/-- Seventeen digits are reached by the search. -/
theorem leadingPower_lt (hmiss : x.bounds.Misses (p + 1)) : leadingPower x.bounds < p + 17 := by
  by_contra hge
  obtain ⟨n, hn⟩ := exists_contains h.significand_pos
  exact hmiss.mono (by omega) n hn

end Bounds.Halves

/-- The two rules show the two neighbours of a half, neither of them with more places than a decimal
has. -/
theorem exists_of_isTied (h : x.IsTied) :
    ∃ q p, x.bounds.Halves q p ∧ -28 ≤ p ∧
      x.shown .even = q * 10 ^ p ∧ x.shown .up = (q + 1 : Nat) * 10 ^ p := by
  obtain ⟨q, p, hhalf, hmiss⟩ := h
  have hx := hhalf.significand_pos
  obtain ⟨heven, hup⟩ := hhalf.search x.bounds_den_pos hmiss 17 hhalf.le_leadingPower
    (hhalf.leadingPower_lt hmiss)
  have hle := search_fst_le hx .up
  rw [hup] at hle
  rw [shown, shown, shortest_of_pos hx, shortest_of_pos hx, heven, hup]
  exact ⟨q, p, hhalf, hhalf.neg_le hle, (trimZeros_spec 17 q p).1, (trimZeros_spec 17 (q + 1) p).1⟩

theorem shown_ne_of_isTied (h : x.IsTied) : x.shown .even ≠ x.shown .up := by
  obtain ⟨q, p, -, -, heven, hup⟩ := exists_of_isTied h
  have hpow : (10 : ℚ) ^ p ≠ 0 := by positivity
  intro heq
  rw [heven, hup] at heq
  have hcancel : q = q + 1 := by exact_mod_cast mul_right_cancel₀ hpow heq
  omega

/-- The shortest decimal depends on which way a half goes exactly if the number is one. -/
theorem isTied_iff : x.IsTied ↔ x.shortest .even ≠ x.shortest .up := by
  constructor
  · intro h heq
    exact shown_ne_of_isTied h (by rw [shown, heq, shown])
  · intro hne
    rcases Nat.eq_zero_or_pos x.significand with hzero | hx
    · have hzero' : x.isZero = true := decide_eq_true hzero
      rw [shortest, shortest, if_pos hzero', if_pos hzero'] at hne
      exact absurd rfl hne
    · have hvalue : x.bounds.Contains (x.bounds.value / x.bounds.den) := by
        rw [bounds_value]
        exact contains_size hx
      rw [shortest_of_pos hx, shortest_of_pos hx] at hne
      rcases search_cases x.bounds_den_pos hvalue 17 (leadingPower x.bounds) with
        heq | ⟨q, p, hhalf, hlead | hmiss⟩
      · rw [heq] at hne
        exact absurd rfl hne
      · exact absurd hlead hhalf.ne_leadingPower
      · exact ⟨q, p, hhalf, hmiss⟩

/-- Halfway between two decimals of sixteen digits. -/
example : (ofDecimal? 56294995342131225 (-2)).map (fun x => (x.shortest .even, x.shortest .up)) =
    some ((5629499534213122, -1), (5629499534213123, -1)) := by decide +kernel

instance : DecidablePred IsTied := fun _ => decidable_of_iff' _ isTied_iff

end Isnad.Binary64
