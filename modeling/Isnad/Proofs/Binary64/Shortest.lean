import Isnad.Proofs.Binary64.Rounding
import Mathlib.Tactic.FieldSimp

/-!
# The shortest decimal of a rounded short decimal

The search goes through decimal grids from the coarsest on, and its first hit is a point in the
rounding interval of the number (`search_spec`). A number to which a decimal of at most fifteen
digits was rounded has that decimal in its interval, and the interval is too narrow for a second
point of the same grid. So the search gives the decimal back (`shortest_of_contains`).
-/

namespace Isnad.Binary64

variable {x : Binary64} {b : Bounds} {tie : Tie} {v : ℚ} {n digits D j : Nat} {p power : Int}

/-! ## Points of a grid -/

theorem cast_zpow10 (p : Int) : (10 : ℚ) ^ p = pow10 p.toNat / pow10 (-p).toNat := by
  rw [cast_pow10, cast_pow10, zpow_toNat_div]

theorem pow10_cast_pos (k : Nat) : (0 : ℚ) < pow10 k := by exact_mod_cast pow10_pos k

theorem ratio_le_point {a d : Nat} (hd : 0 < d) :
    (a / d : ℚ) ≤ digits * 10 ^ p ↔ a * pow10 (-p).toNat ≤ digits * pow10 p.toNat * d := by
  have hd' : (0 : ℚ) < d := by exact_mod_cast hd
  rw [cast_zpow10, ← mul_div_assoc, div_le_div_iff₀ hd' (pow10_cast_pos _)]
  norm_cast

theorem ratio_lt_point {a d : Nat} (hd : 0 < d) :
    (a / d : ℚ) < digits * 10 ^ p ↔ a * pow10 (-p).toNat < digits * pow10 p.toNat * d := by
  have hd' : (0 : ℚ) < d := by exact_mod_cast hd
  rw [cast_zpow10, ← mul_div_assoc, div_lt_div_iff₀ hd' (pow10_cast_pos _)]
  norm_cast

theorem point_le_ratio {a d : Nat} (hd : 0 < d) :
    (digits * 10 ^ p : ℚ) ≤ a / d ↔ digits * pow10 p.toNat * d ≤ a * pow10 (-p).toNat := by
  rw [← not_lt, ratio_lt_point hd, not_lt]

theorem point_lt_ratio {a d : Nat} (hd : 0 < d) :
    (digits * 10 ^ p : ℚ) < a / d ↔ digits * pow10 p.toNat * d < a * pow10 (-p).toNat := by
  rw [← not_le, ratio_le_point hd, not_le]

theorem has_iff (hd : 0 < b.den) :
    b.has digits p = true ↔ b.Contains (digits * 10 ^ p) := by
  rw [Bounds.has, Bounds.Contains]
  cases b.closed with
  | true =>
    rw [if_pos rfl, if_pos rfl, Bool.and_eq_true, decide_eq_true_eq, decide_eq_true_eq,
      ratio_le_point hd, point_le_ratio hd]
  | false =>
    rw [if_neg (by decide), if_neg (by decide), Bool.and_eq_true, decide_eq_true_eq,
      decide_eq_true_eq, ratio_lt_point hd, point_lt_ratio hd]

/-- The point of the grid before the value. -/
theorem floor_bounds (hd : 0 < b.den) (p : Int) :
    let q := b.value * pow10 (-p).toNat / (b.den * pow10 p.toNat)
    (q * 10 ^ p : ℚ) ≤ b.value / b.den ∧ (b.value / b.den : ℚ) < (q + 1 : Nat) * 10 ^ p := by
  intro q
  have hpos : 0 < b.den * pow10 p.toNat := Nat.mul_pos hd (pow10_pos _)
  constructor
  · rw [point_le_ratio hd]
    calc q * pow10 p.toNat * b.den = q * (b.den * pow10 p.toNat) := by ring
      _ ≤ b.value * pow10 (-p).toNat := Nat.div_mul_le_self _ _
  · rw [ratio_lt_point hd]
    calc b.value * pow10 (-p).toNat < (q + 1) * (b.den * pow10 p.toNat) :=
          Nat.lt_mul_of_div_lt (Nat.lt_succ_self q) hpos
      _ = (q + 1) * pow10 p.toNat * b.den := by ring

/-! ## Search -/

theorem has_of_onGrid? (h : b.onGrid? tie p = some digits) : b.has digits p = true := by
  unfold Bounds.onGrid? at h
  dsimp only at h
  split at h
  · rename_i hq hq'
    have hboth : ∀ c : Bool,
        b.has (if c then b.value * pow10 (-p).toNat / (b.den * pow10 p.toNat) + 1
          else b.value * pow10 (-p).toNat / (b.den * pow10 p.toNat)) p = true := by
      intro c
      cases c with
      | true => exact hq'
      | false => exact hq
    obtain rfl := Option.some.inj h
    exact hboth _
  · rename_i hq _
    cases h
    exact hq
  · rename_i _ hq'
    cases h
    exact hq'
  · cases h

/-- A grid that has a point in the interval has one next to the value there. -/
theorem onGrid?_isSome (tie : Tie) (hd : 0 < b.den) (hvalue : b.Contains (b.value / b.den))
    (hg : b.Contains (digits * 10 ^ p)) : ∃ n, b.onGrid? tie p = some n := by
  obtain ⟨hlow, hhigh⟩ := floor_bounds hd p
  have hpow : (0 : ℚ) < 10 ^ p := by positivity
  unfold Bounds.onGrid?
  dsimp only at hlow hhigh ⊢
  generalize b.value * pow10 (-p).toNat / (b.den * pow10 p.toNat) = q at *
  have hone : b.has q p = true ∨ b.has (q + 1) p = true := by
    rw [has_iff hd, has_iff hd]
    rcases Nat.lt_or_ge q digits with hlt | hge
    · refine .inr (hvalue.of_between hg hhigh.le ?_)
      gcongr
      exact hlt
    · refine .inl (hg.of_between hvalue ?_ hlow)
      gcongr
  split
  · exact ⟨_, rfl⟩
  · exact ⟨_, rfl⟩
  · exact ⟨_, rfl⟩
  · rename_i hq hq'
    simp [hq, hq'] at hone

/-- The search ends at a point in the interval, on a grid no finer than any that has one. -/
theorem search_spec (tie : Tie) (hd : 0 < b.den) (hvalue : b.Contains (b.value / b.den))
    (steps k : Nat) (hk : k < steps) (hg : b.Contains (digits * 10 ^ (power - k))) :
    ∃ i ≤ k, ∃ n, b.search tie steps power = (n, power - i) ∧
      b.Contains (n * 10 ^ (power - i)) := by
  induction steps generalizing power k with
  | zero => omega
  | succ steps ih =>
    rw [Bounds.search]
    cases hgrid : b.onGrid? tie power with
    | some n =>
      refine ⟨0, Nat.zero_le k, n, by simp, ?_⟩
      rw [Nat.cast_zero, sub_zero]
      exact (has_iff hd).mp (has_of_onGrid? hgrid)
    | none =>
      cases k with
      | zero =>
        rw [Nat.cast_zero, sub_zero] at hg
        obtain ⟨n, hn⟩ := onGrid?_isSome tie hd hvalue hg
        rw [hgrid] at hn
        cases hn
      | succ k =>
        have hstep : ∀ i : Nat, power - 1 - i = power - (i + 1 : Nat) := fun i => by
          push_cast
          ring
        rw [← hstep] at hg
        obtain ⟨i, hi, n, hsearch, hn⟩ := ih k (Nat.lt_of_succ_lt_succ hk) hg
        rw [hstep] at hsearch hn
        exact ⟨i + 1, Nat.succ_le_succ hi, n, hsearch, hn⟩

theorem trimZeros_spec (steps n : Nat) (p : Int) :
    ((trimZeros steps n p).1 * 10 ^ (trimZeros steps n p).2 : ℚ) = n * 10 ^ p ∧
      p ≤ (trimZeros steps n p).2 := by
  induction steps generalizing n p with
  | zero => exact ⟨rfl, le_refl p⟩
  | succ steps ih =>
    rw [trimZeros]
    split
    · rename_i h
      obtain ⟨hvalue, hle⟩ := ih (n / 10) (p + 1)
      have hn : (n : ℚ) = (n / 10 : Nat) * 10 := by
        exact_mod_cast (Nat.div_mul_cancel (Nat.dvd_of_mod_eq_zero h.1)).symm
      refine ⟨?_, by omega⟩
      rw [hvalue]
      calc ((n / 10 : Nat) * 10 ^ (p + 1) : ℚ) = (n / 10 : Nat) * 10 * 10 ^ p := by
            rw [zpow_add_one₀ (by norm_num)]
            ring
        _ = n * 10 ^ p := by rw [← hn]
    · exact ⟨rfl, le_refl p⟩

/-! ## The leading digit -/

/-- The guess at a leading power, from the binary logarithm of the number. -/
def guessedPower (l : Int) : Int := l * 30103 / 100000

/-- The guess is off by at most one. -/
def IsNear (l : Int) : Prop :=
  pow10 (guessedPower l - 1).toNat * pow2 (1 - l).toNat ≤
      pow2 (l - 1).toNat * pow10 (1 - guessedPower l).toNat ∧
    pow2 (l + 1).toNat * pow10 (-guessedPower l - 2).toNat ≤
      pow10 (guessedPower l + 2).toNat * pow2 (-l - 1).toNat

instance (l : Int) : Decidable (IsNear l) := inferInstanceAs (Decidable (_ ∧ _))

/-- The guess is near for every logarithm that there is. -/
theorem isNear_of_between {l : Int} (h : -1074 ≤ l) (h' : l ≤ 1024) : IsNear l := by
  have hall : ∀ i < 2099, IsNear ((i : Nat) - 1074) := by decide +kernel
  have hl := hall (l + 1074).toNat (by omega)
  rwa [Int.toNat_of_nonneg (by omega), Int.add_sub_cancel] at hl

theorem zpow_le_zpow_iff_nat {a c : Nat} (ha : 0 < a) (hc : 0 < c) (k l : Int) :
    (a : ℚ) ^ k ≤ c ^ l ↔
      a ^ k.toNat * c ^ (-l).toNat ≤ c ^ l.toNat * a ^ (-k).toNat := by
  have ha' : (0 : ℚ) < a := by exact_mod_cast ha
  have hc' : (0 : ℚ) < c := by exact_mod_cast hc
  rw [← zpow_toNat_div k, ← zpow_toNat_div l, div_le_div_iff₀ (by positivity) (by positivity)]
  norm_cast

theorem IsNear.bounds {l : Int} (h : IsNear l) :
    (10 : ℚ) ^ (guessedPower l - 1) ≤ 2 ^ (l - 1) ∧
      (2 : ℚ) ^ (l + 1) ≤ 10 ^ (guessedPower l + 2) := by
  obtain ⟨hl, hh⟩ := h
  constructor
  · refine (zpow_le_zpow_iff_nat (a := 10) (c := 2) (by decide) (by decide) _ _).mpr ?_
    rw [neg_sub, neg_sub]
    exact hl
  · refine (zpow_le_zpow_iff_nat (a := 2) (c := 10) (by decide) (by decide) _ _).mpr ?_
    rw [neg_add', neg_add']
    exact hh

theorem size_ge (hx : 0 < x.significand) : (2 : ℚ) ^ (-1074 : Int) ≤ x.size := by
  have hm : (1 : ℚ) ≤ x.significand := by exact_mod_cast hx
  calc (2 : ℚ) ^ (-1074 : Int) ≤ 2 ^ x.exponent :=
        zpow_le_zpow_right₀ (by norm_num) x.exponent_ge
    _ ≤ x.size := le_mul_of_one_le_left (by positivity) hm

theorem size_lt (x : Binary64) : x.size < (2 : ℚ) ^ (1024 : Int) := by
  have hm : (x.significand : ℚ) < 2 ^ 53 := by
    rw [← cast_pow2]
    exact_mod_cast x.significand_lt
  calc x.size < 2 ^ 53 * 2 ^ x.exponent := mul_lt_mul_of_pos_right hm (by positivity)
    _ ≤ 2 ^ 53 * 2 ^ (971 : Int) :=
        mul_le_mul_of_nonneg_left (zpow_le_zpow_right₀ (by norm_num) x.exponent_le) (by positivity)
    _ = 2 ^ (1024 : Int) := by
        rw [← zpow_natCast, ← zpow_add₀ (by norm_num)]
        rfl

theorem bounds_value_pos (hx : 0 < x.significand) : 0 < x.bounds.value := by
  by_contra hzero
  have hsize := x.bounds_value
  rw [Nat.eq_zero_of_not_pos hzero, Nat.cast_zero, zero_div] at hsize
  have hge := size_ge hx
  rw [← hsize] at hge
  exact absurd hge (not_le.mpr (by positivity))

/-- The binary logarithm of a number, off by at most one. -/
theorem log_bounds (hx : 0 < x.significand) :
    -1074 ≤ (x.bounds.value.log2 : Int) - x.bounds.den.log2 ∧
      (x.bounds.value.log2 : Int) - x.bounds.den.log2 ≤ 1024 := by
  obtain ⟨hlogl, hlogh⟩ := ratio_bounds (bounds_value_pos hx) x.bounds_den_pos
  rw [bounds_value] at hlogl hlogh
  constructor
  · have hlt := (size_ge hx).trans_lt hlogh
    rw [zpow_lt_zpow_iff_right₀ (by norm_num)] at hlt
    omega
  · have hlt := hlogl.trans x.size_lt
    rw [zpow_lt_zpow_iff_right₀ (by norm_num)] at hlt
    omega

/-- The leading power of a number is that of its first digit. -/
theorem leadingPower_spec (hx : 0 < x.significand) :
    (10 : ℚ) ^ leadingPower x.bounds ≤ x.size ∧ x.size < 10 ^ (leadingPower x.bounds + 1) := by
  obtain ⟨hlow, hhigh⟩ := ratio_bounds (bounds_value_pos hx) x.bounds_den_pos
  obtain ⟨hloglow, hloghigh⟩ := log_bounds hx
  obtain ⟨hnear, hnear'⟩ := (isNear_of_between hloglow hloghigh).bounds
  have hreach : ∀ e : Int,
      pow10 e.toNat * x.bounds.den ≤ x.bounds.value * pow10 (-e).toNat ↔ (10 : ℚ) ^ e ≤ x.size := by
    intro e
    have h : ((1 : Nat) * 10 ^ e : ℚ) ≤ x.bounds.value / x.bounds.den ↔
        1 * pow10 e.toNat * x.bounds.den ≤ x.bounds.value * pow10 (-e).toNat :=
      point_le_ratio x.bounds_den_pos
    rw [Nat.cast_one, one_mul, one_mul, bounds_value] at h
    exact h.symm
  rw [bounds_value] at hlow hhigh
  rw [leadingPower]
  dsimp only
  rw [← guessedPower]
  generalize guessedPower ((x.bounds.value.log2 : Int) - x.bounds.den.log2) = g at *
  simp only [decide_eq_true_eq, hreach]
  split
  · rename_i h
    refine ⟨h, ?_⟩
    rw [add_assoc]
    exact hhigh.trans_le hnear'
  · rename_i h
    split
    · rename_i h'
      exact ⟨h', not_le.mp h⟩
    · rename_i h'
      rw [sub_add_cancel]
      exact ⟨hnear.trans hlow.le, not_le.mp h'⟩

/-! ## Seventeen digits -/

theorem contains_of_lt (hx : 0 < x.significand)
    (hlow : (x.significand - x.gap) * 2 ^ x.exponent < v)
    (hhigh : v < (x.significand + 1 / 2) * 2 ^ x.exponent) : x.bounds.Contains v := by
  rw [← bounds_low hx] at hlow
  rw [← bounds_high] at hhigh
  unfold Bounds.Contains
  split
  · exact ⟨hlow.le, hhigh.le⟩
  · exact ⟨hlow, hhigh⟩

/-- The grid of seventeen digits has a point in the interval. -/
theorem exists_contains (hx : 0 < x.significand) :
    ∃ n : Nat, x.bounds.Contains (n * 10 ^ (leadingPower x.bounds - 16)) := by
  obtain ⟨p, hp⟩ : ∃ p, p = leadingPower x.bounds - 16 := ⟨_, rfl⟩
  have h : (10 : ℚ) ^ (p + 16) ≤ x.size := by
    rw [hp, sub_add_cancel]
    exact (leadingPower_spec hx).1
  rw [← hp]
  have hstep : (0 : ℚ) < 2 ^ x.exponent := by positivity
  have hpow : (0 : ℚ) < 10 ^ p := by positivity
  have hgap := x.gap_pos
  obtain ⟨hlow, hhigh⟩ := floor_bounds x.bounds_den_pos p
  rw [bounds_value] at hlow hhigh
  rw [size] at hlow hhigh h
  generalize x.bounds.value * pow10 (-p).toNat / (x.bounds.den * pow10 p.toNat) = n at *
  by_contra hnone
  have hbelow : (n * 10 ^ p : ℚ) ≤ (x.significand - x.gap) * 2 ^ x.exponent := by
    by_contra hlt
    refine hnone ⟨n, contains_of_lt hx (not_le.mp hlt) (hlow.trans_lt ?_)⟩
    nlinarith
  have habove : (x.significand + 1 / 2) * 2 ^ x.exponent ≤ ((n + 1 : Nat) * 10 ^ p : ℚ) := by
    by_contra hlt
    refine hnone ⟨n + 1, contains_of_lt hx (lt_of_le_of_lt ?_ hhigh) (not_le.mp hlt)⟩
    nlinarith
  -- the grid is coarser than the interval is wide
  have hwide : (x.gap + 1 / 2) * 2 ^ x.exponent ≤ (10 : ℚ) ^ p := by
    push_cast at habove
    linarith
  have hlarge : 10 ^ 16 * (x.gap + 1 / 2) ≤ (x.significand : ℚ) := by
    refine le_of_mul_le_mul_right ?_ hstep
    calc 10 ^ 16 * (x.gap + 1 / 2) * 2 ^ x.exponent ≤ 10 ^ 16 * 10 ^ p := by linarith
      _ = 10 ^ (p + 16) := by rw [zpow_add₀ (by norm_num), mul_comm]; norm_num
      _ ≤ _ := h
  unfold gap at hlarge
  split at hlarge
  · rename_i hfirst
    rw [hfirst.1, cast_pow2] at hlarge
    norm_num at hlarge
  · have hm : (x.significand : ℚ) < 2 ^ 53 := by
      rw [← cast_pow2]
      exact_mod_cast x.significand_lt
    norm_num at hlarge hm
    linarith

/-! ## Short decimals -/

/-- Numbers of the interval are within a factor of two of the number. -/
theorem size_between (hx : pow2 52 ≤ x.significand) (hv : x.bounds.Contains v) :
    v / 2 ≤ x.size ∧ x.size ≤ 2 * v := by
  have hpos : 0 < x.significand := lt_of_lt_of_le (by decide) hx
  have hstep := hv.step_le hx
  obtain ⟨hl, hh⟩ := abs_le.mp (hv.abs_sub_le hpos (contains_size hpos))
  have hpow : (0 : ℚ) < 2 ^ x.exponent := by positivity
  norm_num at hstep
  constructor <;> linarith

/-- The interval has at most one point of a grid on which its numbers are short. -/
theorem eq_of_contains {A B : Nat} {t : Int} (hx : pow2 52 ≤ x.significand)
    (hA : A < 2 ^ 52 - 1) (hcA : x.bounds.Contains (A * 10 ^ t))
    (hcB : x.bounds.Contains (B * 10 ^ t)) : A = B := by
  have hpos : 0 < x.significand := lt_of_lt_of_le (by decide) hx
  have hpow : (0 : ℚ) < 10 ^ t := by positivity
  have hstep := hcA.step_le hx
  obtain ⟨hl, hh⟩ := abs_le.mp (hcA.abs_sub_le hpos hcB)
  have hA' : (A : ℚ) + 1 ≤ 2 ^ 52 - 1 := by
    have h : A + 1 ≤ 2 ^ 52 - 1 := hA
    rw [Nat.le_sub_one_iff_lt (by decide)] at h
    have h' : (A : ℚ) + 1 + 1 ≤ 2 ^ 52 := by exact_mod_cast h
    linarith
  -- a step of the number is less than a step of the grid
  have hsmall : (2 : ℚ) ^ x.exponent < 10 ^ t := by
    by_contra hge
    have hmul : (2 ^ 52 - 1) * (10 : ℚ) ^ t ≤ A * 10 ^ t := by
      refine le_trans ?_ hstep
      exact mul_le_mul_of_nonneg_left (not_lt.mp hge) (by norm_num)
    have hle := le_of_mul_le_mul_right hmul hpow
    linarith
  have hAB : (A : ℚ) < B + 1 := by
    by_contra hge
    nlinarith [not_lt.mp hge]
  have hBA : (B : ℚ) < A + 1 := by
    by_contra hge
    nlinarith [not_lt.mp hge]
  have h1 : A < B + 1 := by exact_mod_cast hAB
  have h2 : B < A + 1 := by exact_mod_cast hBA
  omega

theorem zpow10_lt_iff {k l : Int} : (10 : ℚ) ^ k < 10 ^ l ↔ k < l :=
  zpow_lt_zpow_iff_right₀ (by norm_num)

/-- What the leading power of a number says of a short decimal that was rounded to it. -/
theorem leadingPower_of_contains (hx : pow2 52 ≤ x.significand) (hD : 0 < D) (hD' : D < 10 ^ 15)
    (hc : x.bounds.Contains (D * 10 ^ (-j : Int))) :
    leadingPower x.bounds < 16 - j ∧
      (-j ≤ leadingPower x.bounds ∨ leadingPower x.bounds = -j - 1 ∧ D = 1) := by
  have hpos : 0 < x.significand := lt_of_lt_of_le (by decide) hx
  have hpow : (0 : ℚ) < 10 ^ (-j : Int) := by positivity
  have hD1 : (1 : ℚ) ≤ D := by exact_mod_cast hD
  have hD15 : (D : ℚ) < 10 ^ 15 := by exact_mod_cast hD'
  obtain ⟨hl, hh⟩ := size_between hx hc
  obtain ⟨hlead, hlead'⟩ := leadingPower_spec hpos
  generalize leadingPower x.bounds = lp at *
  generalize x.size = V at *
  have hten : (10 : ℚ) ≠ 0 := by norm_num
  refine ⟨?_, ?_⟩
  · rw [← zpow10_lt_iff]
    calc (10 : ℚ) ^ lp ≤ 2 * (D * 10 ^ (-j : Int)) := hlead.trans hh
      _ < 10 ^ 16 * 10 ^ (-j : Int) := by nlinarith
      _ = 10 ^ (16 - j : Int) := by
        rw [sub_eq_add_neg, zpow_add₀ hten]
        norm_num
  · rcases lt_or_ge lp (-j : Int) with hlt | hge
    · right
      have hV : V < 10 ^ (-j : Int) :=
        hlead'.trans_le (zpow_le_zpow_right₀ (by norm_num) (by omega))
      refine ⟨?_, ?_⟩
      · have hlt' : (-j - 1 : Int) < lp + 1 := by
          rw [← zpow10_lt_iff]
          calc (10 : ℚ) ^ (-j - 1 : Int) = 10 ^ (-j : Int) / 10 := by
                rw [zpow_sub_one₀ hten, div_eq_mul_inv]
            _ < D * 10 ^ (-j : Int) / 2 := by nlinarith
            _ < 10 ^ (lp + 1) := hl.trans_lt hlead'
        omega
      · by_contra hne
        have hD2 : (2 : ℚ) ≤ D := by
          have h2 : 2 ≤ D := by omega
          exact_mod_cast h2
        nlinarith
    · exact .inl hge

/-- A decimal of at most fifteen digits is the shortest one of the number it is rounded to. -/
theorem shortest_of_contains (hx : pow2 52 ≤ x.significand) (hD : 0 < D) (hD' : D < 10 ^ 15)
    (hc : x.bounds.Contains (D * 10 ^ (-j : Int))) (tie : Tie) :
    ((x.shortest tie).1 * 10 ^ (x.shortest tie).2 : ℚ) = D * 10 ^ (-j : Int) ∧
      -j - 1 ≤ (x.shortest tie).2 := by
  have hpos : 0 < x.significand := lt_of_lt_of_le (by decide) hx
  have hden := x.bounds_den_pos
  have hten : (10 : ℚ) ≠ 0 := by norm_num
  have hvalue : x.bounds.Contains (x.bounds.value / x.bounds.den) := by
    rw [bounds_value]
    exact contains_size hpos
  obtain ⟨hupper, hlower⟩ := leadingPower_of_contains hx hD hD' hc
  -- the decimal on the grid on which it is looked for first
  obtain ⟨A, t, k, hA, hAt, hk, htk, htj⟩ : ∃ (A : Nat) (t : Int) (k : Nat), A < 2 ^ 52 - 1 ∧
      (A * 10 ^ t : ℚ) = D * 10 ^ (-j : Int) ∧ k < 17 ∧ t = leadingPower x.bounds - k ∧
      -j - 1 ≤ t := by
    rcases hlower with hge | ⟨heq, rfl⟩
    · refine ⟨D, -j, (leadingPower x.bounds + j).toNat, by omega, rfl, by omega, by omega, by omega⟩
    · refine ⟨10, -j - 1, 0, by omega, ?_, by omega, by omega, by omega⟩
      rw [zpow_sub_one₀ hten]
      push_cast
      ring
  rw [← hAt] at hc ⊢
  have hg : x.bounds.Contains (A * 10 ^ (leadingPower x.bounds - k)) := htk ▸ hc
  obtain ⟨i, hi, n, hsearch, hn⟩ := search_spec tie hden hvalue 17 k hk hg
  -- what is found lies on that grid as well
  have hpoint : (n * 10 ^ (leadingPower x.bounds - i) : ℚ) =
      (n * 10 ^ (k - i) : Nat) * 10 ^ t := by
    have hsplit : leadingPower x.bounds - i = ((k - i : Nat) : Int) + t := by omega
    rw [hsplit, zpow_add₀ hten, zpow_natCast]
    push_cast
    ring
  rw [hpoint] at hn
  have hfound := eq_of_contains hx hA hc hn
  have hzero : x.isZero = false := by
    rw [isZero, decide_eq_false_iff_not]
    omega
  have hshortest : x.shortest tie = trimZeros 17 n (leadingPower x.bounds - i) := by
    rw [shortest, hzero]
    simp only [hsearch, Bool.false_eq_true, if_false]
  obtain ⟨hvalue', hle⟩ := trimZeros_spec 17 n (leadingPower x.bounds - i)
  rw [hshortest, hvalue', hpoint, ← hfound]
  exact ⟨rfl, by omega⟩

end Isnad.Binary64
