import Isnad.Binary64.Reader
import Isnad.Proofs.Binary64.Rounding
import Isnad.Text.Digits

/-!
# Short numerals are rounded once

The digits of a short numeral make a significand that is not rounded, and a small power of ten is
not rounded either. What is left is one product or quotient, so that the result is the number
nearest to what the numeral says (`rounds_of_ofNumeral?`).
-/

namespace Isnad.Binary64

open Text

variable {x y z : Binary64} {v : ℚ} {n k j : Nat} {ds : List Nat}

/-! ## Digits -/

theorem le_foldl_digits (n : Nat) (ds : List Nat) : n ≤ ds.foldl (fun n d => 10 * n + d) n := by
  induction ds generalizing n with
  | nil => exact le_refl n
  | cons d ds ih => exact le_trans (by omega) (ih (10 * n + d))

/-- Digits are taken to the last one while their number fits. -/
theorem absorb_eq (h : ds.foldl (fun n d => 10 * n + d) n < significandBound) :
    absorb n ds = (ds.foldl (fun n d => 10 * n + d) n, ds.length) := by
  induction ds generalizing n with
  | nil => rfl
  | cons d ds ih =>
    have hfit : 10 * n + d < significandBound := lt_of_le_of_lt (le_foldl_digits _ ds) h
    rw [absorb, if_pos hfit, ih h]
    rfl

/-! ## Powers of ten -/

/-- Small powers of ten are binary64 numbers. -/
theorem exists_powerOfTen? (h : k ≤ 22) :
    ∃ z ∈ powerOfTen? k, z.magnitude.1 = pow10 k * z.magnitude.2 := by
  have hall : ∀ k < 23, ∃ z ∈ powerOfTen? k, z.magnitude.1 = pow10 k * z.magnitude.2 := by
    decide +kernel
  exact hall k (Nat.lt_succ_of_le h)

theorem magnitude_den_pos (x : Binary64) : 0 < x.magnitude.2 := pow2_pos _

theorem size_of_powerOfTen? (hk : k ≤ 22) (h : powerOfTen? k = some z) : z.size = 10 ^ k := by
  obtain ⟨z', hz, hvalue⟩ := exists_powerOfTen? hk
  obtain rfl := Option.some.inj (h.symm.trans hz)
  have hpos : (0 : ℚ) < z.magnitude.2 := by exact_mod_cast z.magnitude_den_pos
  rw [← magnitude_eq, div_eq_iff hpos.ne', hvalue, Nat.cast_mul, cast_pow10]

/-! ## Products and quotients -/

theorem rounds_of_mul? (hvalue : x.size * z.size = v) (hv : 0 < v → (2 : ℚ) ^ (-999 : Int) ≤ v)
    (h : x.mul? z = some y) : y.Rounds v := by
  have hden := Nat.mul_pos x.magnitude_den_pos z.magnitude_den_pos
  refine rounds_of_ofRatio? hden ?_ hv h
  rw [← hvalue, ← magnitude_eq, ← magnitude_eq, Nat.cast_mul, Nat.cast_mul, mul_div_mul_comm]

theorem rounds_of_div? (hvalue : x.size / z.size = v) (hz : 0 < z.size)
    (hv : 0 < v → (2 : ℚ) ^ (-999 : Int) ≤ v) (h : x.div? z = some y) : y.Rounds v := by
  have hz' : 0 < z.magnitude.1 := by
    rw [← magnitude_eq] at hz
    by_contra hzero
    rw [Nat.eq_zero_of_not_pos hzero, Nat.cast_zero, zero_div] at hz
    exact lt_irrefl _ hz
  have hden := Nat.mul_pos x.magnitude_den_pos hz'
  refine rounds_of_ofRatio? hden ?_ hv h
  rw [← hvalue, ← magnitude_eq, ← magnitude_eq, Nat.cast_mul, Nat.cast_mul, mul_div_mul_comm,
    div_eq_mul_inv (_ / _) (_ / _ : ℚ), inv_div]

/-! ## Short numerals -/

/-- A decimal with few places is far above the least number. -/
theorem le_of_short (hj : j ≤ 22) (h : (0 : ℚ) < n * 10 ^ (-j : Int)) :
    (2 : ℚ) ^ (-999 : Int) ≤ n * 10 ^ (-j : Int) := by
  have hpow : (0 : ℚ) < 10 ^ (-j : Int) := by positivity
  have hn : (1 : ℚ) ≤ n := by
    have hpos : (0 : ℚ) < n := pos_of_mul_pos_left h hpow.le
    exact_mod_cast hpos
  calc (2 : ℚ) ^ (-999 : Int) ≤ 2 ^ (-80 : Int) := zpow_le_zpow_right₀ (by norm_num) (by norm_num)
    _ ≤ 10 ^ (-22 : Int) := by norm_num
    _ ≤ 10 ^ (-j : Int) := zpow_le_zpow_right₀ (by norm_num) (by omega)
    _ ≤ n * 10 ^ (-j : Int) := le_mul_of_one_le_left hpow.le hn

theorem rounds_of_scaleUp? (hx : x.size = n) (h : x.scaleUp? 0 = some y) : y.Rounds n := by
  unfold scaleUp? at h
  split at h
  · rename_i hzero
    obtain rfl := Option.some.inj h
    have hs : x.significand = 0 := of_decide_eq_true hzero
    refine .inl ⟨hs, ?_⟩
    rw [← hx, size, hs, Nat.cast_zero, zero_mul]
  · simp only [maxPower, Nat.not_lt_zero, if_false, Option.bind_eq_bind,
      Option.bind_eq_some_iff] at h
    obtain ⟨z, hz, h⟩ := h
    have hvalue : x.size * z.size = n * 10 ^ (-(0 : Nat) : Int) := by
      rw [hx, size_of_powerOfTen? (Nat.zero_le _) hz]
      simp
    have hround := rounds_of_mul? hvalue (le_of_short (Nat.zero_le _)) h
    simpa using hround

theorem rounds_of_scaleDown? (hx : x.size = n) (hj : 0 < j) (hj' : j ≤ 22)
    (h : x.scaleDown? j = some y) : y.Rounds (n * 10 ^ (-j : Int)) := by
  have hshrink : (j - 1) / maxPower = 0 := Nat.div_eq_of_lt (by rw [maxPower]; omega)
  have hpower : (j - 1) % maxPower + 1 = j := by
    rw [Nat.mod_eq_of_lt (by rw [maxPower]; omega)]
    omega
  rw [scaleDown?, if_neg hj.ne', hshrink, hpower] at h
  simp only [shrink?, Option.bind_eq_bind, Option.bind_some, Option.bind_eq_some_iff] at h
  obtain ⟨z, hz, h⟩ := h
  have hsize := size_of_powerOfTen? hj' hz
  have hvalue : x.size / z.size = n * 10 ^ (-j : Int) := by
    rw [hx, hsize, zpow_neg, zpow_natCast, div_eq_mul_inv]
  exact rounds_of_div? hvalue (by rw [hsize]; positivity) (le_of_short hj') h

/-- A numeral of at most fifteen digits with at most 22 places is rounded once. -/
theorem rounds_of_ofNumeral? {negative : Bool} {whole fraction : List Nat} {exponent : Int}
    (h : ofNumeral? negative whole fraction exponent = some y)
    (hn : ofDigits 10 (whole ++ fraction) < 10 ^ 15)
    (hj : (fraction.length : Int) - exponent = j) (hj' : j ≤ 22) :
    y.negative = negative ∧ y.Rounds (ofDigits 10 (whole ++ fraction) * 10 ^ (-j : Int)) := by
  have hbound : 10 ^ 15 < significandBound := by decide
  rw [ofDigits, List.foldl_append] at hn
  have hwhole := absorb_eq ((le_foldl_digits _ fraction).trans_lt (hn.trans hbound))
  have hfraction := absorb_eq (hn.trans hbound)
  rw [ofNumeral?, hwhole] at h
  dsimp only at h
  rw [hfraction] at h
  rw [ofDigits, List.foldl_append]
  generalize fraction.foldl _ _ = n at *
  have hshift : exponent + ((whole.length - whole.length : Nat) : Int) - fraction.length = -j := by
    omega
  rw [hshift] at h
  obtain ⟨x, hx, h⟩ := Option.bind_eq_some_iff.mp h
  have hsize : x.size = n := size_of_ofNat? (hn.trans (by decide)) hx
  rcases Nat.eq_zero_or_pos j with rfl | hpos
  · rw [if_pos (by decide)] at h
    obtain ⟨w, hw, h⟩ := Option.bind_eq_some_iff.mp h
    obtain rfl := Option.some.inj h
    rw [Nat.cast_zero, neg_zero, zpow_zero, mul_one]
    have hround : w.Rounds n := rounds_of_scaleUp? hsize hw
    exact ⟨rfl, hround⟩
  · rw [if_neg (by omega), neg_neg, Int.toNat_natCast] at h
    obtain ⟨w, hw, h⟩ := Option.bind_eq_some_iff.mp h
    obtain rfl := Option.some.inj h
    have hround : w.Rounds (n * 10 ^ (-j : Int)) := rounds_of_scaleDown? hsize hpos hj' hw
    exact ⟨rfl, hround⟩

end Isnad.Binary64
