import Isnad.Binary64.Shortest
import Isnad.Proofs.Decimal.Value
import Mathlib.Algebra.Order.Field.Power
import Mathlib.Tactic.GCongr
import Mathlib.Tactic.Linarith
import Mathlib.Tactic.NormNum

/-!
# Rounding a ratio to a binary64 number

The interval that the printer searches for a number is the one of the ratios that are rounded to
it: a ratio lies in the interval of the number that `ofRatio?` gives for it
(`contains_of_ofRatio?`). The interval is narrow, so that a grid coarser than it has at most one
point there (`Contains.abs_sub_le`). Whole numbers of 53 bits are not rounded
(`size_of_ofNat?`).
-/

namespace Isnad.Binary64

theorem zpow_toNat_div {a : ℚ} (k : Int) : a ^ k.toNat / a ^ (-k).toNat = a ^ k := by
  obtain ⟨n, rfl | rfl⟩ := k.eq_nat_or_neg
  · simp
  · simp

theorem cast_pow2 (n : Nat) : (pow2 n : ℚ) = 2 ^ n := by rw [pow2_eq, Nat.cast_pow, Nat.cast_ofNat]

theorem cast_pow10 (n : Nat) : (pow10 n : ℚ) = 10 ^ n := by
  rw [pow10_eq, Nat.cast_pow, Nat.cast_ofNat]

variable {x : Binary64} {b : Bounds} {u v w : ℚ} {num den m n d : Nat} {e : Int}

/-- The number without its sign. -/
def size (x : Binary64) : ℚ := x.significand * 2 ^ x.exponent

theorem magnitude_eq (x : Binary64) : (x.magnitude.1 : ℚ) / x.magnitude.2 = x.size := by
  rw [magnitude, size, Nat.cast_mul, cast_pow2, cast_pow2, mul_div_assoc, zpow_toNat_div]

theorem mk?_eq_some {s : Bool} (h : mk? s m e = some x) :
    x.negative = s ∧ x.significand = m ∧ x.exponent = e := by
  unfold mk? at h
  split at h
  · cases h
    exact ⟨rfl, rfl, rfl⟩
  · cases h

/-! ## The rounding interval -/

/-- The ratio lies in the interval. -/
def Bounds.Contains (b : Bounds) (v : ℚ) : Prop :=
  if b.closed then (b.low / b.den : ℚ) ≤ v ∧ v ≤ b.high / b.den
  else (b.low / b.den : ℚ) < v ∧ v < b.high / b.den

theorem Bounds.Contains.le (h : b.Contains v) : (b.low / b.den : ℚ) ≤ v ∧ v ≤ b.high / b.den := by
  unfold Contains at h
  split at h
  · exact h
  · exact ⟨h.1.le, h.2.le⟩

theorem Bounds.Contains.of_between (hv : b.Contains v) (hw : b.Contains w) (hvu : v ≤ u)
    (huw : u ≤ w) : b.Contains u := by
  unfold Contains at *
  split at hv
  · rename_i hc
    rw [if_pos hc] at hw ⊢
    exact ⟨hv.1.trans hvu, huw.trans hw.2⟩
  · rename_i hc
    rw [if_neg hc] at hw ⊢
    exact ⟨hv.1.trans_le hvu, huw.trans_lt hw.2⟩

/-- The part of a step that the interval reaches below the number. -/
def gap (x : Binary64) : ℚ := if x.significand = pow2 52 ∧ x.exponent ≠ -1074 then 1 / 4 else 1 / 2

theorem gap_pos (x : Binary64) : 0 < x.gap := by
  unfold gap
  split <;> norm_num

theorem gap_le (x : Binary64) : x.gap ≤ 1 / 2 := by
  unfold gap
  split <;> norm_num

theorem bounds_den_pos (x : Binary64) : 0 < x.bounds.den := pow2_pos _

theorem bounds_unit (x : Binary64) :
    (pow2 (x.exponent - 2).toNat : ℚ) / pow2 (2 - x.exponent).toNat = 2 ^ x.exponent / 4 := by
  have h := zpow_toNat_div (a := 2) (x.exponent - 2)
  rw [neg_sub] at h
  rw [cast_pow2, cast_pow2, h, zpow_sub₀ (by norm_num)]
  norm_num

theorem bounds_low (hx : 0 < x.significand) :
    (x.bounds.low / x.bounds.den : ℚ) = (x.significand - x.gap) * 2 ^ x.exponent := by
  rw [bounds, gap]
  dsimp only
  rw [Nat.cast_mul, mul_div_assoc, bounds_unit]
  split
  · rw [Nat.cast_sub (by omega)]
    push_cast
    ring
  · rw [Nat.cast_sub (by omega)]
    push_cast
    ring

theorem bounds_high (x : Binary64) :
    (x.bounds.high / x.bounds.den : ℚ) = (x.significand + 1 / 2) * 2 ^ x.exponent := by
  rw [bounds]
  dsimp only
  rw [Nat.cast_mul, mul_div_assoc, bounds_unit]
  push_cast
  ring

theorem bounds_value (x : Binary64) : (x.bounds.value / x.bounds.den : ℚ) = x.size := by
  rw [bounds, size]
  dsimp only
  rw [Nat.cast_mul, mul_div_assoc, bounds_unit]
  push_cast
  ring

theorem contains_iff (hx : 0 < x.significand) :
    x.bounds.Contains (u * 2 ^ x.exponent) ↔
      if x.significand % 2 = 0 then x.significand - x.gap ≤ u ∧ u ≤ x.significand + 1 / 2
      else x.significand - x.gap < u ∧ u < x.significand + 1 / 2 := by
  have hpow : (0 : ℚ) < 2 ^ x.exponent := by positivity
  have hclosed : x.bounds.closed = decide (x.significand % 2 = 0) := rfl
  rw [Bounds.Contains, bounds_low hx, bounds_high, hclosed]
  simp only [decide_eq_true_eq, mul_le_mul_iff_left₀ hpow, mul_lt_mul_iff_left₀ hpow]

theorem contains_size (hx : 0 < x.significand) : x.bounds.Contains x.size := by
  have hgap := x.gap_pos
  rw [size, contains_iff hx]
  split
  · constructor <;> linarith
  · constructor <;> linarith

/-- The interval is at most a step wide. -/
theorem Bounds.Contains.abs_sub_le (hx : 0 < x.significand) (hv : x.bounds.Contains v)
    (hw : x.bounds.Contains w) : |v - w| ≤ 2 ^ x.exponent := by
  have hpow : (0 : ℚ) < 2 ^ x.exponent := by positivity
  have hgap := x.gap_le
  obtain ⟨hvl, hvh⟩ := hv.le
  obtain ⟨hwl, hwh⟩ := hw.le
  rw [bounds_low hx] at hvl hwl
  rw [bounds_high] at hvh hwh
  have hwidth : (x.significand + 1 / 2) * 2 ^ x.exponent -
      (x.significand - x.gap) * 2 ^ x.exponent ≤ (2 : ℚ) ^ x.exponent := by
    nlinarith
  rw [abs_le]
  constructor <;> linarith

/-- A step is small beside the number. -/
theorem Bounds.Contains.step_le (hx : pow2 52 ≤ x.significand) (hv : x.bounds.Contains v) :
    (2 ^ 52 - 1) * 2 ^ x.exponent ≤ v := by
  have hpos : 0 < x.significand := lt_of_lt_of_le (by decide) hx
  have hpow : (0 : ℚ) < 2 ^ x.exponent := by positivity
  have hgap := x.gap_le
  have hm : (2 ^ 52 : ℚ) ≤ x.significand := by
    rw [← cast_pow2]
    exact_mod_cast hx
  have hl := hv.le.1
  rw [bounds_low hpos] at hl
  refine le_trans ?_ hl
  gcongr
  linarith

/-! ## Rounding -/

/-- A half goes to the even neighbour. -/
theorem divNearest_spec (hd : 0 < d) :
    if divNearest n d % 2 = 0 then
      (divNearest n d - 1 / 2 : ℚ) ≤ n / d ∧ (n / d : ℚ) ≤ divNearest n d + 1 / 2
    else (divNearest n d - 1 / 2 : ℚ) < n / d ∧ (n / d : ℚ) < divNearest n d + 1 / 2 := by
  have hd' : (0 : ℚ) < d := by exact_mod_cast hd
  have hr : (n % d : Nat) < d := Nat.mod_lt _ hd
  have hsplit : (n : ℚ) = d * (n / d : Nat) + (n % d : Nat) := by
    exact_mod_cast (Nat.div_add_mod n d).symm
  have hn : (n / d : ℚ) = (n / d : Nat) + (n % d : Nat) / d := by
    rw [div_eq_iff hd'.ne', add_mul, div_mul_cancel₀ _ hd'.ne', mul_comm _ (d : ℚ)]
    exact hsplit
  have hhalf : ∀ k : Nat, (k : ℚ) / d < 1 / 2 ↔ 2 * k < d := by
    intro k
    rw [div_lt_div_iff₀ hd' (by norm_num)]
    norm_cast
    rw [one_mul, mul_comm]
  have hhalf' : ∀ k : Nat, 1 / 2 < (k : ℚ) / d ↔ d < 2 * k := by
    intro k
    rw [div_lt_div_iff₀ (by norm_num) hd']
    norm_cast
    rw [one_mul, mul_comm]
  have hnonneg : (0 : ℚ) ≤ (n % d : Nat) / d := by positivity
  have hone : ((n % d : Nat) : ℚ) / d < 1 := by
    rw [div_lt_one hd']
    exact_mod_cast hr
  rw [hn, divNearest]
  by_cases hlow : 2 * (n % d) < d
  · have h := (hhalf _).mpr hlow
    rw [if_pos hlow]
    split <;> constructor <;> linarith
  · rw [if_neg hlow]
    by_cases hhigh : d < 2 * (n % d)
    · have h := (hhalf' _).mpr hhigh
      rw [if_pos hhigh]
      push_cast
      split <;> constructor <;> linarith
    · have h : ((n % d : Nat) : ℚ) / d = 1 / 2 :=
        le_antisymm (not_lt.mp (mt (hhalf' _).mp hhigh)) (not_lt.mp (mt (hhalf _).mp hlow))
      rw [if_neg hhigh, h]
      rcases Nat.mod_two_eq_zero_or_one (n / d) with heven | hodd
      · rw [heven, add_zero, if_pos heven]
        constructor <;> linarith
      · rw [hodd, if_pos (by omega)]
        push_cast
        constructor <;> linarith

theorem scaled_eq (num den : Nat) (e : Int) :
    ((scaled num den e).1 : ℚ) / (scaled num den e).2 = num / den / 2 ^ e := by
  have h := zpow_toNat_div (a := 2) (-e)
  rw [neg_neg] at h
  rw [scaled]
  push_cast
  rw [cast_pow2, cast_pow2, mul_div_mul_comm, h, zpow_neg, div_eq_mul_inv _ ((2 : ℚ) ^ e)]

theorem scaled_den_pos (num : Nat) (hd : 0 < den) (e : Int) : 0 < (scaled num den e).2 :=
  Nat.mul_pos hd (pow2_pos _)

theorem log2_bounds (hn : 0 < n) : (2 : ℚ) ^ n.log2 ≤ n ∧ (n : ℚ) < 2 ^ (n.log2 + 1) := by
  constructor
  · exact_mod_cast Nat.log2_self_le hn.ne'
  · exact_mod_cast Nat.lt_log2_self

/-- The binary logarithms of a fraction's parts bound it. -/
theorem ratio_bounds (hn : 0 < num) (hd : 0 < den) :
    (2 : ℚ) ^ ((num.log2 : Int) - den.log2 - 1) < num / den ∧
      (num / den : ℚ) < 2 ^ ((num.log2 : Int) - den.log2 + 1) := by
  have htwo : (2 : ℚ) ≠ 0 := by norm_num
  have hd' : (0 : ℚ) < den := by exact_mod_cast hd
  obtain ⟨hnl, hnh⟩ := log2_bounds hn
  obtain ⟨hdl, hdh⟩ := log2_bounds hd
  constructor
  · rw [lt_div_iff₀ hd']
    calc (2 : ℚ) ^ ((num.log2 : Int) - den.log2 - 1) * den
        < 2 ^ ((num.log2 : Int) - den.log2 - 1) * 2 ^ (den.log2 + 1) := by gcongr
      _ = 2 ^ num.log2 := by
        rw [← zpow_natCast, ← zpow_natCast, ← zpow_add₀ htwo]
        congr 1
        push_cast
        ring
      _ ≤ num := hnl
  · rw [div_lt_iff₀ hd']
    calc (num : ℚ) < 2 ^ (num.log2 + 1) := hnh
      _ = 2 ^ ((num.log2 : Int) - den.log2 + 1) * 2 ^ den.log2 := by
        rw [← zpow_natCast, ← zpow_natCast, ← zpow_add₀ htwo]
        congr 1
        push_cast
        ring
      _ ≤ 2 ^ ((num.log2 : Int) - den.log2 + 1) * den := by gcongr

/-- Away from the least exponent the significand gets 53 bits. -/
theorem fittingExponent_spec (hn : 0 < num) (hd : 0 < den)
    (hlog : -1000 ≤ (num.log2 : Int) - den.log2) :
    -1074 < fittingExponent num den ∧
      (2 ^ 52 : ℚ) ≤ num / den / 2 ^ fittingExponent num den ∧
      (num / den / 2 ^ fittingExponent num den : ℚ) < 2 ^ 53 := by
  have htwo : (2 : ℚ) ≠ 0 := by norm_num
  obtain ⟨hl, hh⟩ := ratio_bounds hn hd
  generalize hL : (num.log2 : Int) - den.log2 = L at *
  have hmax : max (L - 53) (-1074) = L - 53 := max_eq_left (by omega)
  have hpow : ∀ k : Int, (0 : ℚ) < 2 ^ k := fun k => by positivity
  -- the first guess leaves a ratio between `2 ^ 52` and `2 ^ 54`
  have hshift : ∀ k : Nat, (2 : ℚ) ^ k * 2 ^ (L - 53) = 2 ^ (L - 53 + k) := fun k => by
    rw [add_comm, zpow_add₀ htwo, zpow_natCast]
  have hlow : (2 : ℚ) ^ 52 < num / den / 2 ^ (L - 53) := by
    rw [lt_div_iff₀ (hpow _), hshift, show L - 53 + (52 : Nat) = L - 1 by omega]
    exact hl
  have hhigh : (num / den / 2 ^ (L - 53) : ℚ) < 2 ^ 54 := by
    rw [div_lt_iff₀ (hpow _), hshift, show L - 53 + (54 : Nat) = L + 1 by omega]
    exact hh
  have hdpos := scaled_den_pos num hd (L - 53)
  have hdpos' : (0 : ℚ) < (scaled num den (L - 53)).2 := by exact_mod_cast hdpos
  have hfloor : (scaled num den (L - 53)).1 / (scaled num den (L - 53)).2 < pow2 53 ↔
      (num / den / 2 ^ (L - 53) : ℚ) < 2 ^ 53 := by
    rw [← scaled_eq, Nat.div_lt_iff_lt_mul hdpos, div_lt_iff₀ hdpos', ← cast_pow2]
    norm_cast
  unfold fittingExponent
  dsimp only
  rw [hL, hmax]
  split
  · rename_i h
    exact ⟨by omega, hlow.le, hfloor.mp h⟩
  · rename_i h
    have hge := not_lt.mp (mt hfloor.mpr h)
    rw [zpow_add_one₀ htwo, ← div_div]
    refine ⟨by omega, ?_, ?_⟩
    · rw [le_div_iff₀ (by norm_num)]
      norm_num at hge ⊢
      exact hge
    · rw [div_lt_iff₀ (by norm_num)]
      norm_num at hhigh ⊢
      exact hhigh

/-- The significand before and after a carry. -/
theorem ofRatio?_cases (hn : 0 < num) (h : ofRatio? num den = some x) :
    let m := divNearest (scaled num den (fittingExponent num den)).1
      (scaled num den (fittingExponent num den)).2
    (m = pow2 53 ∧ x.significand = pow2 52 ∧ x.exponent = fittingExponent num den + 1) ∨
      (m ≠ pow2 53 ∧ x.significand = m ∧ x.exponent = fittingExponent num den) := by
  rw [ofRatio?, if_neg hn.ne'] at h
  dsimp only at h ⊢
  split at h
  · rename_i hm
    obtain ⟨-, hs, he⟩ := mk?_eq_some h
    exact .inl ⟨hm, hs, he⟩
  · rename_i hm
    obtain ⟨-, hs, he⟩ := mk?_eq_some h
    exact .inr ⟨hm, hs, he⟩

/-- A ratio is rounded to a number whose interval has it. -/
theorem contains_of_ofRatio? (hn : 0 < num) (hd : 0 < den)
    (hlog : -1000 ≤ (num.log2 : Int) - den.log2) (h : ofRatio? num den = some x) :
    pow2 52 ≤ x.significand ∧ x.bounds.Contains (num / den) := by
  have htwo : (2 : ℚ) ≠ 0 := by norm_num
  obtain ⟨hexp, hlow, hhigh⟩ := fittingExponent_spec hn hd hlog
  have hnear := divNearest_spec (n := (scaled num den (fittingExponent num den)).1)
    (scaled_den_pos num hd (fittingExponent num den))
  have hcases := ofRatio?_cases hn h
  rw [scaled_eq] at hnear
  dsimp only at hcases
  generalize fittingExponent num den = e at *
  generalize divNearest (scaled num den e).1 (scaled num den e).2 = m at *
  generalize hu : (num / den / 2 ^ e : ℚ) = u at *
  have hpow : (2 : ℚ) ^ e ≠ 0 := zpow_ne_zero e htwo
  have hv : (num / den : ℚ) = u * 2 ^ e := by rw [← hu, div_mul_cancel₀ _ hpow]
  have hbounds : (m - 1 / 2 : ℚ) ≤ u ∧ u ≤ m + 1 / 2 := by
    split at hnear
    · exact hnear
    · exact ⟨hnear.1.le, hnear.2.le⟩
  rcases hcases with ⟨hm, hs, he⟩ | ⟨hm, hs, he⟩
  · -- the carry leaves the number just below the interval's middle
    have hcast : (m : ℚ) = 2 ^ 53 := by rw [hm, cast_pow2]
    have hgap : x.gap = 1 / 4 := if_pos ⟨hs, by omega⟩
    have hv' : (num / den : ℚ) = u / 2 * 2 ^ x.exponent := by
      rw [hv, he, zpow_add_one₀ htwo]
      ring
    refine ⟨hs.ge, ?_⟩
    rw [hv', contains_iff (hs ▸ pow2_pos 52), hgap, hs, if_pos (by decide), cast_pow2]
    norm_num at hcast hhigh ⊢
    constructor <;> linarith
  · have hge : pow2 52 ≤ m := by
      have hlt : (2 ^ 52 : ℚ) < m + 1 := by linarith
      rw [← cast_pow2] at hlt
      exact Nat.lt_succ_iff.mp (by exact_mod_cast hlt)
    refine ⟨hs ▸ hge, ?_⟩
    rw [hv, ← he, contains_iff (hs ▸ lt_of_lt_of_le (by decide) hge), gap, hs]
    by_cases hfirst : m = pow2 52 ∧ x.exponent ≠ -1074
    · have hcast : (m : ℚ) = 2 ^ 52 := by rw [hfirst.1, cast_pow2]
      rw [if_pos hfirst, if_pos (by rw [hfirst.1]; decide)]
      constructor <;> linarith
    · rw [if_neg hfirst]
      exact hnear

/-- The number is what `v` is rounded to, at the full number of digits unless `v` is zero. -/
def Rounds (x : Binary64) (v : ℚ) : Prop :=
  (x.significand = 0 ∧ v = 0) ∨ (pow2 52 ≤ x.significand ∧ 0 < v ∧ x.bounds.Contains v)

/-- Ratios far above the least number are rounded at the full number of digits. -/
theorem rounds_of_ofRatio? (hd : 0 < den) (hratio : (num / den : ℚ) = v)
    (hv : 0 < v → (2 : ℚ) ^ (-999 : Int) ≤ v) (h : ofRatio? num den = some x) : x.Rounds v := by
  subst hratio
  rcases Nat.eq_zero_or_pos num with rfl | hn
  · rw [ofRatio?, if_pos rfl] at h
    cases h
    exact .inl ⟨rfl, by simp⟩
  · have hpos : (0 : ℚ) < num / den := by positivity
    have hlog : -1000 ≤ (num.log2 : Int) - den.log2 := by
      have hlt := (hv hpos).trans_lt (ratio_bounds hn hd).2
      rw [zpow_lt_zpow_iff_right₀ (by norm_num)] at hlt
      omega
    obtain ⟨hx, hc⟩ := contains_of_ofRatio? hn hd hlog h
    exact .inr ⟨hx, hpos, hc⟩

theorem divNearest_one (n : Nat) : divNearest n 1 = n := by
  simp [divNearest, Nat.mod_one]

/-- A whole number of at most 53 bits is a binary64 number. -/
theorem size_of_ofNat? (hn : n < pow2 53) (h : ofNat? n = some x) : x.size = n := by
  have htwo : (2 : ℚ) ≠ 0 := by norm_num
  rw [ofNat?] at h
  rcases Nat.eq_zero_or_pos n with rfl | hpos
  · rw [ofRatio?, if_pos rfl] at h
    cases h
    simp [size, zero]
  · have hone : (1 : Nat).log2 = 0 := by decide
    have hlog : -1000 ≤ (n.log2 : Int) - (1 : Nat).log2 := by omega
    obtain ⟨-, hlow, hhigh⟩ := fittingExponent_spec hpos Nat.one_pos hlog
    have hcases := ofRatio?_cases hpos h
    dsimp only at hcases
    generalize fittingExponent n 1 = e at *
    have hpow : (0 : ℚ) < 2 ^ e := by positivity
    rw [Nat.cast_one, div_one] at hlow hhigh
    have hn' : (n : ℚ) < 2 ^ 53 := by
      rw [← cast_pow2]
      exact_mod_cast hn
    -- the exponent is not positive, so the significand is a multiple of the number
    have he : e ≤ 0 := by
      by_contra hpos'
      have h2 : (2 : ℚ) ^ (1 : Int) ≤ 2 ^ e := zpow_le_zpow_right₀ (by norm_num) (by omega)
      rw [le_div_iff₀ hpow] at hlow
      rw [zpow_one] at h2
      linarith
    have hscaled : scaled n 1 e = (n * pow2 (-e).toNat, 1) := by
      rw [scaled, Int.toNat_of_nonpos he, pow2_zero]
    have hm : ((n * pow2 (-e).toNat : Nat) : ℚ) = n / 2 ^ e := by
      have h' := zpow_toNat_div (a := 2) (-e)
      rw [neg_neg, Int.toNat_of_nonpos he, pow_zero, div_one] at h'
      rw [Nat.cast_mul, cast_pow2, h', zpow_neg, div_eq_mul_inv]
    rw [hscaled] at hcases
    dsimp only at hcases
    rw [divNearest_one] at hcases
    rcases hcases with ⟨heq, -, -⟩ | ⟨-, hs, hexp⟩
    · rw [← hm, heq, cast_pow2] at hhigh
      exact absurd hhigh (lt_irrefl _)
    · rw [size, hs, hexp, hm, div_mul_cancel₀ _ hpow.ne']

end Isnad.Binary64
