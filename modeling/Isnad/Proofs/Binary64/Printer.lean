import Isnad.Binary64.Printer
import Isnad.Proofs.Binary64.Shortest
import Isnad.Proofs.Decimal.Literal

/-!
# Plain digits read back

A number in plain digits is a numeral that denotes its shortest decimal (`literal?_plain`). So a
decimal of at most fifteen digits that was rounded to a number is read back from the number's text
(`toRat_of_plain`).
-/

namespace Isnad.Binary64

open Text Decimal

variable {x : Binary64} {n D j : Nat} {p : Int}

/-! ## Plain digits -/

/-- The digits before and after the point. -/
theorem exists_fraction (hp : p < 0) (n : Nat) :
    ∃ whole fraction, positionalChars false n p = whole ++ '.' :: fraction ∧
      (∀ c ∈ whole, c.isDigit = true) ∧ (∀ c ∈ fraction, c.isDigit = true) ∧ whole ≠ [] ∧
      Nat.ofDigitChars 10 (whole ++ fraction) 0 = n ∧ fraction.length = (-p).toNat := by
  have hlen := le_length_decimalPadded ((-p).toNat + 1) n
  have hvalue := ofDigitChars_decimalPadded ((-p).toNat + 1) n
  have hdigits : ∀ c ∈ decimalPadded ((-p).toNat + 1) n, c.isDigit = true :=
    fun c hc => isDigit_of_mem_decimalPadded hc
  rw [positionalChars, if_neg (by omega)]
  dsimp only
  generalize decimalPadded ((-p).toNat + 1) n = ds at *
  refine ⟨_, _, rfl, fun c hc => hdigits c (List.mem_of_mem_take hc),
    fun c hc => hdigits c (List.mem_of_mem_drop hc), ?_, ?_, ?_⟩
  · rw [← List.length_pos_iff, List.length_take]
    omega
  · rw [List.take_append_drop, hvalue]
  · rw [List.length_drop]
    omega

/-- What the digits of a number and zeros denote, with what follows. -/
theorem digits?_decimal (n k : Nat) (rest : List Char) :
    digits? false false 0 0 (decimal n ++ List.replicate k '0' ++ rest) =
      digits? false true (n * 10 ^ k) 0 rest := by
  have hdigits : ∀ c ∈ decimal n ++ List.replicate k '0', c.isDigit = true := by
    intro c hc
    rcases List.mem_append.mp hc with hc | hc
    · exact isDigit_of_mem_decimal hc
    · rw [List.eq_of_mem_replicate hc]
      rfl
  have hne : (decimal n ++ List.replicate k '0').isEmpty = false := by
    simp [decimal, Nat.toDigits_ne_nil]
  rw [digits?_append hdigits, hne, Nat.ofDigitChars_append, Nat.ofDigitChars_replicate_zero,
    decimal, Nat.ofDigitChars_ten_toDigits, mul_comm]
  rfl

/-- The digits and places of a number in plain digits. -/
theorem digits?_positionalChars (n : Nat) (p : Int) :
    digits? false false 0 0 (positionalChars false n p) =
      some (n * 10 ^ p.toNat, (-p).toNat) := by
  rcases lt_or_ge p 0 with hp | hp
  · have hpos : p.toNat = 0 := Int.toNat_of_nonpos hp.le
    obtain ⟨whole, fraction, htext, hwhole, hfraction, hne, hvalue, hlength⟩ := exists_fraction hp n
    rw [htext, digits?_fraction hwhole hfraction hne, hvalue, hlength, hpos, pow_zero, mul_one]
  · have hneg : (-p).toNat = 0 := Int.toNat_of_nonpos (by omega)
    rw [positionalChars, if_pos hp, digits?_decimal, hneg]
    rfl

/-- Digits do not start with a sign. -/
theorem splitSign_of_digits? {cs : List Char} {r : Nat × Nat}
    (h : digits? false false 0 0 cs = some r) : splitSign cs = (false, cs) := by
  unfold splitSign
  split
  · cases h
  · cases h
  · rfl

/-- A sign before digits is split off. -/
theorem splitSign_append {cs : List Char} {r : Nat × Nat}
    (h : digits? false false 0 0 cs = some r) (negative : Bool) :
    splitSign ((if negative then ['-'] else []) ++ cs) = (negative, cs) := by
  cases negative with
  | true => rfl
  | false => exact splitSign_of_digits? h

theorem toChars_plainLayout (x : Binary64) :
    x.toChars plainLayout = (if x.negative then ['-'] else []) ++
      positionalChars false (x.shortest .up).1 (x.shortest .up).2 := rfl

/-- What a number says in plain digits. -/
theorem literal?_plain (x : Binary64) :
    literal? (x.toChars plainLayout) =
      some ⟨x.negative, (x.shortest .up).1 * 10 ^ (x.shortest .up).2.toNat,
        (-(x.shortest .up).2).toNat, 0⟩ := by
  rw [toChars_plainLayout]
  have hdigits := digits?_positionalChars (x.shortest .up).1 (x.shortest .up).2
  have hsign := splitSign_append hdigits x.negative
  rw [literal?_of_digits? (by rwa [hsign]), hsign]

theorem value_plain {s : Bool} (n : Nat) (p : Int) :
    (⟨s, n * 10 ^ p.toNat, (-p).toNat, 0⟩ : Literal).value =
      (if s then -1 else 1) * (n * 10 ^ p) := by
  rw [Literal.value, zpow_zero, mul_one, Nat.cast_mul, Nat.cast_pow, Nat.cast_ofNat, mul_div_assoc,
    zpow_toNat_div]

/-! ## Short decimals -/

/-- The shortest decimal of a number to which a short decimal was rounded. -/
theorem shortest_of_rounds (h : x.Rounds (D * 10 ^ (-j : Int))) (hD : D < 10 ^ 15)
    (tie : Tie) :
    ((x.shortest tie).1 * 10 ^ (x.shortest tie).2 : ℚ) = D * 10 ^ (-j : Int) ∧
      -j - 1 ≤ (x.shortest tie).2 := by
  have hpow : (0 : ℚ) < 10 ^ (-j : Int) := by positivity
  rcases h with ⟨hx, hzero⟩ | ⟨hx, hpos, hc⟩
  · have hx' : x.isZero = true := decide_eq_true hx
    rw [shortest, if_pos hx', hzero]
    refine ⟨by simp, ?_⟩
    dsimp only
    omega
  · have hD0 : (0 : ℚ) < D := pos_of_mul_pos_left hpos hpow.le
    exact shortest_of_contains hx (by exact_mod_cast hD0) hD hc tie

/-- The digits written for a short decimal are at most one more than it has. -/
theorem digits_le_of_value (h : (n * 10 ^ p : ℚ) = D * 10 ^ (-j : Int)) (hp : -j - 1 ≤ p) :
    n * 10 ^ p.toNat ≤ 10 * D := by
  have hten : (10 : ℚ) ≠ 0 := by norm_num
  have hD : (0 : ℚ) ≤ D := by positivity
  have hsplit : (n * 10 ^ p.toNat : ℚ) = D * 10 ^ ((-p).toNat - j : Int) := by
    rw [sub_eq_add_neg, zpow_add₀ hten, mul_left_comm, ← h, zpow_natCast, ← zpow_toNat_div p]
    field_simp
  have hone : (10 : ℚ) ^ ((-p).toNat - j : Int) ≤ 10 ^ (1 : Int) :=
    zpow_le_zpow_right₀ (by norm_num) (by omega)
  have hle : (n * 10 ^ p.toNat : ℚ) ≤ 10 * D := by
    rw [hsplit, mul_comm 10 (D : ℚ)]
    exact mul_le_mul_of_nonneg_left (by simpa using hone) hD
  exact_mod_cast hle

/-- A short decimal is read back from the number to which it was rounded. -/
theorem toRat_of_plain {r : Decimal} (h : x.Rounds (D * 10 ^ (-j : Int))) (hD : D < 10 ^ 15)
    (hj : j ≤ 22) (hr : Decimal.ofChars? (x.toChars plainLayout) = some r) :
    r.toRat = (if x.negative then -1 else 1) * (D * 10 ^ (-j : Int)) := by
  obtain ⟨hvalue, hpower⟩ := shortest_of_rounds h hD .up
  rw [← hvalue, ← value_plain]
  refine toRat_of_fits hr (literal?_plain x) ⟨?_, ?_, ?_⟩
  · have hdigits := digits_le_of_value hvalue hpower
    have hpow : 10 * 10 ^ 15 < pow2 96 := by decide
    dsimp only
    omega
  · dsimp only
    omega
  · dsimp only
    omega

end Isnad.Binary64
