import Isnad.Proofs.Decimal.Literal
import Mathlib.Data.Rat.Floor

/-!
# Places beyond the last

A decimal has 28 places. Where a numeral has more, both ways to lose them come to the same: digits
that are read past the last place and digits that an exponent moves past it are rounded to the
nearest decimal, a half up (`exists_scan_fraction`, `toRat_shiftDown?_eq`).
-/

namespace Isnad.Decimal

open Text

/-- The nearest number of 28 places, a half going up. -/
def nearest (v : ℚ) : ℚ := round (v * 10 ^ 28) / 10 ^ 28

theorem nearest_eq_self {v : ℚ} {n : Nat} (h : v * 10 ^ 28 = n) : nearest v = v := by
  rw [nearest, h, round_natCast, Int.cast_natCast, ← h, mul_div_assoc, div_self (by norm_num),
    mul_one]

/-- Points of a grid that is coarse enough stay. -/
theorem nearest_point (n : Nat) {p : Int} (hp : -28 ≤ p) : nearest (n * 10 ^ p) = n * 10 ^ p := by
  obtain ⟨k, hk⟩ := Int.eq_ofNat_of_zero_le (show 0 ≤ p + 28 by omega)
  refine nearest_eq_self (n := n * 10 ^ k) ?_
  have hshift : (10 : ℚ) ^ p * 10 ^ 28 = 10 ^ k := by
    rw [← zpow_natCast, ← zpow_natCast, ← hk, zpow_add₀ (by norm_num)]
    rfl
  rw [mul_assoc, hshift]
  push_cast
  rfl

theorem nearest_div_pow (n : Nat) {k : Nat} (hk : k ≤ 28) : nearest (n / 10 ^ k) = n / 10 ^ k := by
  have h := nearest_point n (p := -k) (by omega)
  rwa [zpow_neg, zpow_natCast, ← div_eq_mul_inv] at h

/-- Places beyond the last are rounded away. -/
theorem nearest_div (n j : Nat) :
    nearest (n / 10 ^ (28 + j)) = ((2 * n + 10 ^ j) / (2 * 10 ^ j) : Nat) / 10 ^ 28 := by
  have hvalue : (n / 10 ^ (28 + j) : ℚ) * 10 ^ 28 + 1 / 2 =
      (2 * n + 10 ^ j : Nat) / (2 * 10 ^ j : Nat) := by
    rw [pow_add]
    push_cast
    field_simp
  rw [nearest, round_eq, hvalue, Rat.floor_natCast_div_natCast, ← Int.natCast_ediv,
    Int.cast_natCast]

variable {x y d : Decimal} {n s k : Nat} {cs rest : List Char} {c : Char} {point started : Bool}

/-- Moving the point to the left loses the places beyond the last. -/
theorem toRat_shiftDown?_eq (h : x.shiftDown? k = some y) :
    y.toRat =
      (if x.negative then -1 else 1) * nearest (x.coefficient / 10 ^ (x.scale + k)) := by
  by_cases hfit : x.scale + k ≤ 28
  · rw [toRat_shiftDown? h hfit, toRat_eq, nearest_div_pow _ hfit, pow_add, mul_div_assoc, div_div]
  · have hk : ¬ maxScale < k := by
      intro hk
      rw [shiftDown?, if_pos hk] at h
      cases h
    have hk' : k ≤ 28 := Nat.le_of_not_lt hk
    obtain ⟨j, hj⟩ := Nat.exists_eq_add_of_le (Nat.le_of_not_le hfit)
    have hrounded : x.rounded (maxScale - k) =
        ((2 * x.coefficient + 10 ^ j) / (2 * 10 ^ j), 28 - k) := by
      have hunit : x.scale - (28 - k) = j := by omega
      rw [rounded, maxScale, if_neg (by omega)]
      dsimp only
      rw [hunit, pow10_eq]
    rw [shiftDown?, if_neg hk, hrounded] at h
    obtain ⟨hneg, hcoeff, hscale⟩ := mk?_eq_some_iff.mp h
    rw [toRat_eq, hneg, hcoeff, hscale, hj, nearest_div, Nat.sub_add_cancel (by omega)]

/-! ## Digits beyond the last place -/

theorem le_ofDigitChars (cs : List Char) (n : Nat) : n ≤ Nat.ofDigitChars 10 cs n := by
  rw [Nat.ofDigitChars_eq_ofDigitChars_zero]
  exact le_add_right (Nat.le_mul_of_pos_left n (by positivity))

theorem digit_lt (h : c.isDigit = true) : c.toNat - '0'.toNat < 10 := by
  rw [Char.isDigit, Bool.and_eq_true, decide_eq_true_eq, decide_eq_true_eq] at h
  have hhigh : c.toNat ≤ 57 := h.2
  have hzero : '0'.toNat = 48 := rfl
  omega

theorem ofDigitChars_lt (h : ∀ c ∈ cs, c.isDigit = true) :
    Nat.ofDigitChars 10 cs 0 < 10 ^ cs.length := by
  induction cs with
  | nil => exact Nat.one_pos
  | cons c cs ih =>
    obtain ⟨hc, hcs⟩ := List.forall_mem_cons.mp h
    have hlt := ih hcs
    have hd := digit_lt hc
    rw [Nat.ofDigitChars_cons, Nat.ofDigitChars_eq_ofDigitChars_zero, List.length_cons, pow_succ]
    nlinarith

/-- A run of digits is taken as far as it fits. -/
theorem scan_append (h : ∀ c ∈ cs, c.isDigit = true)
    (hfit : Nat.ofDigitChars 10 cs n < coefficientBound)
    (hlen : point = true → s + cs.length ≤ 28) (rest : List Char) :
    scan point started n s (cs ++ rest) =
      scan point (started || !cs.isEmpty) (Nat.ofDigitChars 10 cs n)
        (if point then s + cs.length else s) rest := by
  induction cs generalizing started n s with
  | nil => cases point <;> simp
  | cons c cs ih =>
    obtain ⟨hc, hcs⟩ := List.forall_mem_cons.mp h
    have hnotfull : (point && decide (s = maxScale)) = false := by
      rw [Bool.and_eq_false_imp]
      intro hp
      have hle := hlen hp
      rw [List.length_cons] at hle
      rw [decide_eq_false_iff_not, maxScale]
      omega
    have hpoint : c ≠ '.' := ne_of_isDigit hc rfl
    have hunderscore : c ≠ '_' := ne_of_isDigit hc rfl
    rw [Nat.ofDigitChars_cons] at hfit
    have hlt : 10 * n + (c.toNat - '0'.toNat) < coefficientBound :=
      lt_of_le_of_lt (le_ofDigitChars cs _) hfit
    rw [List.cons_append, scan, hnotfull, if_neg hpoint, if_neg hunderscore, digit?_of_isDigit hc]
    dsimp only
    rw [if_pos hlt, if_neg (by decide), ih hcs hfit, Nat.ofDigitChars_cons]
    · cases point with
      | true => simp [Nat.add_comm, Nat.add_left_comm]
      | false => simp
    · intro hp
      have hle := hlen hp
      rw [List.length_cons] at hle
      rw [if_pos hp]
      omega

/-- Digits without a point are all taken. -/
theorem lt_of_scan {r : Nat × Nat} (h : ∀ c ∈ cs, c.isDigit = true) (hn : n < coefficientBound)
    (hscan : scan false started n 0 cs = some r) :
    Nat.ofDigitChars 10 cs n < coefficientBound := by
  induction cs generalizing started n with
  | nil => exact hn
  | cons c cs ih =>
    obtain ⟨hc, hcs⟩ := List.forall_mem_cons.mp h
    have hpoint : c ≠ '.' := ne_of_isDigit hc rfl
    have hunderscore : c ≠ '_' := ne_of_isDigit hc rfl
    rw [scan, Bool.false_and, if_neg Bool.false_ne_true, if_neg hpoint, if_neg hunderscore,
      digit?_of_isDigit hc] at hscan
    dsimp only at hscan
    split at hscan
    · rename_i hlt
      rw [Nat.ofDigitChars_cons]
      exact ih hcs hlt hscan
    · rw [Bool.false_and, if_neg Bool.false_ne_true] at hscan
      cases hscan

/-- After the last place the next digit decides. -/
theorem scan_full (hc : c.isDigit = true) (h : ∀ c ∈ cs, c.isDigit = true) (n : Nat) :
    scan true true n 28 (c :: cs) = roundBy n 28 (c.toNat - '0'.toNat) := by
  have hfull : (true && decide (28 = maxScale)) = true := rfl
  have hall : (c :: cs).all isFiller = true := by
    rw [List.all_eq_true]
    intro c' hc'
    have hdigit : ∀ c' ∈ c :: cs, c'.isDigit = true := List.forall_mem_cons.mpr ⟨hc, h⟩
    rw [isFiller, Bool.or_eq_true]
    exact .inl (hdigit c' hc')
  have hunderscore : c ≠ '_' := ne_of_isDigit hc rfl
  have hnext : (if n / 10 < shortBound then (c :: cs).head?
      else (c :: cs).find? fun c => decide (c ≠ '_')) = some c := by
    split
    · rfl
    · exact List.find?_cons_of_pos (by simpa using hunderscore)
  rw [scan, if_pos hfull, roundByRest, if_pos hall]
  dsimp only
  rw [hnext, Option.bind_some, digit?_of_isDigit hc, Option.getD_some]

/-- Rounding makes a number larger by one at most. -/
theorem half_up_le (n j : Nat) : (2 * n + 10 ^ j) / (2 * 10 ^ j) ≤ n + 1 := by
  have hpos : 0 < 10 ^ j := by positivity
  refine Nat.div_le_of_le_mul ?_
  nlinarith

/-- The first digit that is lost decides where the nearest decimal is. -/
theorem roundBy_eq {a d r j : Nat} (ha : a + 1 < coefficientBound) (hd : d < 10) (hr : r < 10 ^ j) :
    roundBy a 28 d =
      some ((2 * (a * 10 ^ (j + 1) + d * 10 ^ j + r) + 10 ^ (j + 1)) / (2 * 10 ^ (j + 1)), 28) := by
  have hpow : 10 ^ (j + 1) = 10 * 10 ^ j := by ring
  rw [hpow]
  generalize 10 ^ j = u at *
  have hpos : 0 < 2 * (10 * u) := by omega
  unfold roundBy
  by_cases hlow : d < 5
  · have hq : (2 * (a * (10 * u) + d * u + r) + 10 * u) / (2 * (10 * u)) = a :=
      Nat.div_eq_of_lt_le (by nlinarith) (by nlinarith)
    rw [if_pos hlow, hq]
  · have hq : (2 * (a * (10 * u) + d * u + r) + 10 * u) / (2 * (10 * u)) = a + 1 :=
      Nat.div_eq_of_lt_le (by nlinarith) (by nlinarith)
    rw [if_neg hlow, if_pos ha, hq]

/-- Digits with a point among them are read to 28 places. -/
theorem exists_scan_fraction {whole fraction : List Char} (hwhole : ∀ c ∈ whole, c.isDigit = true)
    (hfraction : ∀ c ∈ fraction, c.isDigit = true) (hne : whole ≠ [])
    (hfit : Nat.ofDigitChars 10 (whole ++ fraction) 0 + 1 < coefficientBound) :
    ∃ m p, scan false false 0 0 (whole ++ '.' :: fraction) = some (m, p) ∧
      m < coefficientBound ∧ p ≤ 28 ∧
      (m / 10 ^ p : ℚ) =
        nearest (Nat.ofDigitChars 10 (whole ++ fraction) 0 / 10 ^ fraction.length) := by
  have hstart : scan false false 0 0 (whole ++ '.' :: fraction) =
      scan true true (Nat.ofDigitChars 10 whole 0) 0 fraction := by
    have hle := le_ofDigitChars fraction (Nat.ofDigitChars 10 whole 0)
    rw [← Nat.ofDigitChars_append] at hle
    rw [scan_append hwhole (by omega) (by simp), List.isEmpty_eq_false_iff.mpr hne, scan]
    rfl
  rw [hstart]
  rcases Nat.lt_or_ge 28 fraction.length with hlong | hshort
  · obtain ⟨kept, c, lost, hkept, rfl⟩ :
        ∃ kept c lost, kept.length = 28 ∧ fraction = kept ++ c :: lost := by
      refine ⟨fraction.take 28, fraction[28], fraction.drop 29, ?_, ?_⟩
      · rw [List.length_take]
        omega
      · rw [← List.drop_eq_getElem_cons hlong, List.take_append_drop]
    obtain ⟨hkeptDigits, hlostDigits⟩ := List.forall_mem_append.mp hfraction
    obtain ⟨hc, hlostDigits⟩ := List.forall_mem_cons.mp hlostDigits
    have hvalue : Nat.ofDigitChars 10 (whole ++ (kept ++ c :: lost)) 0 =
        Nat.ofDigitChars 10 kept (Nat.ofDigitChars 10 whole 0) * 10 ^ (lost.length + 1) +
          (c.toNat - '0'.toNat) * 10 ^ lost.length + Nat.ofDigitChars 10 lost 0 := by
      rw [Nat.ofDigitChars_append, Nat.ofDigitChars_append, Nat.ofDigitChars_cons,
        Nat.ofDigitChars_eq_ofDigitChars_zero]
      ring
    have hfit' : Nat.ofDigitChars 10 kept (Nat.ofDigitChars 10 whole 0) + 1 <
        coefficientBound := by
      have hpow : 0 < 10 ^ (lost.length + 1) := by positivity
      have hle := Nat.le_mul_of_pos_right
        (Nat.ofDigitChars 10 kept (Nat.ofDigitChars 10 whole 0)) hpow
      omega
    rw [scan_append hkeptDigits (by omega) (by omega), if_pos rfl, hkept, zero_add, Bool.true_or,
      scan_full hc hlostDigits, roundBy_eq hfit' (digit_lt hc) (ofDigitChars_lt hlostDigits),
      hvalue, List.length_append, List.length_cons, hkept]
    refine ⟨_, _, rfl, ?_, le_rfl, (nearest_div _ _).symm⟩
    rw [← hvalue]
    exact (half_up_le _ _).trans_lt hfit
  · have hscan : scan true true (Nat.ofDigitChars 10 whole 0) 0 fraction =
        some (Nat.ofDigitChars 10 (whole ++ fraction) 0, fraction.length) := by
      rw [Nat.ofDigitChars_append] at hfit ⊢
      rw [← List.append_nil fraction, scan_append hfraction (by omega) (by simpa using hshort)]
      simp [scan]
    exact ⟨_, _, hscan, Nat.lt_of_succ_lt hfit, hshort, (nearest_div_pow _ hshort).symm⟩

/-- The twenty-ninth place is rounded away. -/
example : scan false false 0 0 "0.94999999999999999999999999999".toList =
    some (95 * pow10 26, 28) := by decide +kernel

end Isnad.Decimal
