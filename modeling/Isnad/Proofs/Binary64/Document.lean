import Isnad.Proofs.Binary64.Printer
import Isnad.Proofs.Binary64.Ties
import Isnad.Proofs.Decimal.Places

/-!
# Numbers read through their texts

The text of a number in a document and its plain digits are numerals, and what is read of either is
the decimal that the text shows, to 28 places (`toRat_of_documentLayout`, `toRat_of_plainLayout`).
So one number is read as two only where its two texts differ, which is if it is tied.
-/

namespace Isnad.Binary64

open Text Decimal

variable {x : Binary64} {n : Nat} {p leading : Int} {negative keepsPoint : Bool} {d : Decimal}

/-! ## Digits with places -/

theorem positionalChars_of_neg (hp : p < 0) (n : Nat) (keepsPoint : Bool) :
    positionalChars keepsPoint n p = positionalChars false n p := by
  rw [positionalChars, positionalChars, if_neg (by omega), if_neg (by omega)]

/-- Digits with places are read to 28 of them. -/
theorem exists_of_positionalChars (hp : p < 0) (hn : n + 1 < coefficientBound) (negative : Bool) :
    ∃ d, ofChars? ((if negative then ['-'] else []) ++ positionalChars keepsPoint n p) = some d ∧
      d.toRat = (if negative then -1 else 1) * nearest (n * 10 ^ p) := by
  rw [positionalChars_of_neg hp]
  have hsign := splitSign_append (digits?_positionalChars n p) negative
  obtain ⟨whole, fraction, htext, hwhole, hfraction, hne, hvalue, hlength⟩ := exists_fraction hp n
  obtain ⟨m, q, hscan, hm, hq, hnearest⟩ :=
    exists_scan_fraction hwhole hfraction hne (by rwa [hvalue])
  obtain ⟨d, hd⟩ := exists_mk? (negative && m != 0) hm hq
  refine ⟨d, ofChars?_of_scan (by rwa [hsign, htext]) (by rwa [hsign]), ?_⟩
  rw [toRat_of_signed? hd, hnearest, hvalue, hlength, div_eq_mul_inv, ← zpow_natCast, ← zpow_neg,
    Int.toNat_of_nonneg (by omega), neg_neg]

theorem toRat_of_positionalChars (hp : p < 0) (hn : n + 1 < coefficientBound)
    (h : ofChars? ((if negative then ['-'] else []) ++ positionalChars keepsPoint n p) = some d) :
    d.toRat = (if negative then -1 else 1) * nearest (n * 10 ^ p) := by
  obtain ⟨d', hd', hvalue⟩ := exists_of_positionalChars hp hn negative
  rwa [Option.some.inj (h.symm.trans hd')]

/-! ## Plain digits -/

/-- Plain digits are read as what they show. -/
theorem toRat_of_plainLayout
    (hfit : (x.shortest .up).1 * 10 ^ (x.shortest .up).2.toNat < pow2 96)
    (h : ofChars? (x.toChars plainLayout) = some d) :
    d.toRat = (if x.negative then -1 else 1) * nearest (x.shown .up) := by
  rw [shown]
  by_cases hp : (x.shortest .up).2 < 0
  · rw [toChars_plainLayout] at h
    have hn := x.shortest_fst_le .up
    have hbound : 10 ^ 18 + 1 < coefficientBound := by decide
    exact toRat_of_positionalChars hp (by omega) h
  · have hneg : (-(x.shortest .up).2).toNat = 0 := Int.toNat_of_nonpos (by omega)
    have hfits : Literal.FitsDecimal ⟨x.negative,
        (x.shortest .up).1 * 10 ^ (x.shortest .up).2.toNat, (-(x.shortest .up).2).toNat, 0⟩ :=
      ⟨hfit, hneg.trans_le (Nat.zero_le 28), by dsimp only; omega⟩
    rw [toRat_of_fits h (literal?_plain x) hfits, value_plain, nearest_point _ (by omega)]

/-- Plain digits are read if they fit. -/
theorem exists_of_plainLayout
    (hfit : (x.shortest .up).1 * 10 ^ (x.shortest .up).2.toNat < pow2 96) :
    ∃ d, ofChars? (x.toChars plainLayout) = some d := by
  rw [toChars_plainLayout]
  by_cases hp : (x.shortest .up).2 < 0
  · have hbound : 10 ^ 18 + 1 < coefficientBound := by decide
    have hn : (x.shortest .up).1 + 1 < coefficientBound :=
      (Nat.succ_le_succ (x.shortest_fst_le .up)).trans_lt hbound
    obtain ⟨d, hd, -⟩ := exists_of_positionalChars hp hn x.negative
    exact ⟨d, hd⟩
  · have hneg : (-(x.shortest .up).2).toNat = 0 := Int.toNat_of_nonpos (by omega)
    have hdigits := digits?_positionalChars (x.shortest .up).1 (x.shortest .up).2
    have hsign := splitSign_append hdigits x.negative
    have hplaces : (-(x.shortest .up).2).toNat ≤ 28 := hneg.trans_le (Nat.zero_le 28)
    obtain ⟨d, hd⟩ := exists_mk? (x.negative &&
      (x.shortest .up).1 * 10 ^ (x.shortest .up).2.toNat != 0) hfit hplaces
    refine ⟨d, ofChars?_of_scan ?_ (by rwa [hsign])⟩
    rw [hsign]
    exact scan_of_digits? hdigits hfit hplaces

/-! ## Exponents -/

/-- Digits are read as their number, with a plus sign as without. -/
theorem naturalBelow?_of_isDigit {cs : List Char} (hcs : ∀ c ∈ cs, c.isDigit = true)
    (hne : cs ≠ []) (bound : Nat) :
    naturalBelow? bound ('+' :: cs) = naturalBelow? bound cs ∧
      naturalBelow? bound cs =
        if Nat.ofDigitChars 10 cs 0 < bound then some (Nat.ofDigitChars 10 cs 0) else none := by
  cases cs with
  | nil => exact absurd rfl hne
  | cons c cs =>
    have hplus : c ≠ '+' := by
      rintro rfl
      exact absurd (hcs '+' List.mem_cons_self) (by decide)
    have hspan := spanDigits_of_isDigit hcs
    rw [← ofDigits_map]
    constructor
    · simp [naturalBelow?, hplus]
    · simp [naturalBelow?, hplus, hspan]

/-- The exponent that is written is the one that is read. -/
theorem eq_of_exponent? {e : Int}
    (h : exponent? ((if leading < 0 then '-' else '+') :: decimal leading.natAbs) = some e) :
    e = leading := by
  have hdigits : ∀ c ∈ decimal leading.natAbs, c.isDigit = true :=
    fun c hc => isDigit_of_mem_decimal hc
  obtain ⟨hplus, hvalue⟩ :=
    naturalBelow?_of_isDigit hdigits Nat.toDigits_ne_nil exponentBound
  rw [decimal, Nat.ofDigitChars_ten_toDigits, ← decimal] at hvalue
  by_cases hneg : leading < 0
  · rw [if_pos hneg, exponent?, hvalue] at h
    split at h
    · obtain rfl := Option.some.inj h
      dsimp only
      omega
    · cases h
  · rw [if_neg hneg] at h
    have hread : exponent? ('+' :: decimal leading.natAbs) =
        (naturalBelow? exponentBound ('+' :: decimal leading.natAbs)).map fun n => (n : Int) := rfl
    rw [hread, hplus, hvalue] at h
    split at h
    · obtain rfl := Option.some.inj h
      dsimp only
      omega
    · cases h

/-! ## Texts of documents -/

/-- The digits with a point after the first of several. -/
def pointed : List Char → List Char
  | d :: e :: ds => d :: '.' :: e :: ds
  | ds => ds

theorem digits?_pointed {cs : List Char} (h : ∀ c ∈ cs, c.isDigit = true) (hne : cs ≠ []) :
    digits? false false 0 0 (pointed cs) = some (Nat.ofDigitChars 10 cs 0, cs.length - 1) := by
  match cs with
  | [] => exact absurd rfl hne
  | [c] =>
    have hsplit : pointed [c] = [c] ++ [] := rfl
    rw [hsplit, digits?_append h]
    rfl
  | c :: c' :: cs =>
    obtain ⟨hc, hcs⟩ := List.forall_mem_cons.mp h
    have hone : ∀ a ∈ [c], a.isDigit = true := by simpa using hc
    exact digits?_fraction hone hcs (List.cons_ne_nil _ _)

theorem exponentChars_eq (n : Nat) (leading : Int) :
    exponentChars n leading =
      pointed (decimal n) ++
        'e' :: (if leading < 0 then '-' else '+') :: decimal leading.natAbs := by
  rfl

/-- What a number says with an exponent. -/
theorem eq_of_literal? {l : Literal}
    (h : literal? ((if negative then ['-'] else []) ++ exponentChars n leading) = some l) :
    l = ⟨negative, n, (decimal n).length - 1, leading⟩ := by
  have hdigits : ∀ c ∈ decimal n, c.isDigit = true := fun c hc => isDigit_of_mem_decimal hc
  have hpointed := digits?_pointed hdigits Nat.toDigits_ne_nil
  rw [decimal, Nat.ofDigitChars_ten_toDigits, ← decimal] at hpointed
  have hsign := splitSign_append hpointed negative
  have hmark : ∀ c ∈ (if negative then ['-'] else []) ++ pointed (decimal n),
      (!isMark c) = true := not_isMark_of_splitSign (by rwa [hsign])
  rw [exponentChars_eq, ← List.append_assoc] at h
  generalize (if negative then ['-'] else []) ++ pointed (decimal n) = base at *
  have htake : ((base ++ 'e' :: (if leading < 0 then '-' else '+') ::
      decimal leading.natAbs).takeWhile fun c => !isMark c) = base := by
    rw [List.takeWhile_append_of_pos hmark]
    simp [isMark]
  have hdrop : ((base ++ 'e' :: (if leading < 0 then '-' else '+') ::
      decimal leading.natAbs).dropWhile fun c => !isMark c) =
        'e' :: (if leading < 0 then '-' else '+') :: decimal leading.natAbs := by
    rw [List.dropWhile_append_of_pos hmark]
    simp [isMark]
  simp only [literal?, htake, hdrop, hsign, hpointed, Option.bind_eq_bind, Option.bind_some,
    Option.bind_eq_some_iff] at h
  obtain ⟨e, he, h⟩ := h
  rw [← Option.some.inj h, eq_of_exponent? he]

theorem length_decimal_le (hn : n ≤ 10 ^ 18) : (decimal n).length ≤ 19 :=
  (Nat.length_toDigits_le_iff (by decide) (by decide)).mpr (by omega)

theorem lt_pow_length_decimal (n : Nat) : n < 10 ^ (decimal n).length :=
  (Nat.length_toDigits_le_iff (by decide) (Nat.length_toDigits_pos)).mp le_rfl

/-- The sign of zero is of no account. -/
theorem sign_mul {v : ℚ} (h : n = 0 → v = 0) :
    (if negative && n != 0 then -1 else 1 : ℚ) * v = (if negative then -1 else 1) * v := by
  by_cases hzero : n = 0
  · rw [h hzero, mul_zero, mul_zero]
  · simp [hzero]

/-- Digits with an exponent are read to 28 places. -/
theorem toRat_of_exponentChars (hn : n ≤ 10 ^ 18) (hleading : leading ≠ 0)
    (h : ofChars? ((if negative then ['-'] else []) ++ exponentChars n leading) = some d) :
    d.toRat = (if negative then -1 else 1) *
      nearest (n * 10 ^ (leading - ((decimal n).length - 1 : Nat))) := by
  have hbound : 10 ^ 18 < pow2 96 := by decide
  have hlen := length_decimal_le hn
  rcases ofChars?_cases h with ⟨-, n', p', -, hl⟩ | ⟨base, x, n', p', e, hx, hr, hl, hshift⟩
  · have hl' := eq_of_literal? hl
    simp only [Literal.mk.injEq] at hl'
    exact absurd hl'.2.2.2.symm hleading
  · have hl' := eq_of_literal? hl
    simp only [Literal.mk.injEq] at hl'
    obtain ⟨hsign, rfl, rfl, rfl⟩ := hl'
    obtain ⟨hneg, hcoeff, hscale⟩ := parts_of_plain? hx hr (by omega) (by omega)
    rw [hsign] at hneg
    rcases hshift with ⟨k, rfl, hd⟩ | ⟨k, rfl, hd⟩
    · have hpow : (n' * 10 ^ (-k - ((decimal n').length - 1 : Nat) : Int) : ℚ) =
          n' / 10 ^ ((decimal n').length - 1 + k) := by
        rw [div_eq_mul_inv, ← zpow_natCast, ← zpow_neg]
        congr 2
        push_cast
        ring
      rw [toRat_shiftDown?_eq hd, hcoeff, hscale, hneg, hpow]
      exact sign_mul fun hzero => by simp [hzero, nearest]
    · have hpow : (n' * 10 ^ (k - ((decimal n').length - 1 : Nat) : Int) : ℚ) =
          n' / 10 ^ ((decimal n').length - 1) * 10 ^ k := by
        rw [zpow_sub₀ (by norm_num), zpow_natCast, zpow_natCast]
        ring
      rw [toRat_shiftUp? hd, toRat_eq, hcoeff, hscale, hneg, nearest_point _ (by omega), hpow,
        mul_assoc]
      exact sign_mul fun hzero => by simp [hzero]

/-- A whole number of a document keeps a point and a zero. -/
theorem literal?_keepsPoint (hp : 0 ≤ p) (n : Nat) (negative : Bool) :
    literal? ((if negative then ['-'] else []) ++ positionalChars true n p) =
      some ⟨negative, n * 10 ^ p.toNat * 10, 1, 0⟩ := by
  have hread : digits? false false 0 0 (positionalChars true n p) =
      some (n * 10 ^ p.toNat * 10, 1) := by
    rw [positionalChars, if_pos hp, if_pos rfl, digits?_decimal]
    simp [digits?, digit?, Nat.mul_comm]
  have hsign := splitSign_append hread negative
  generalize (if negative then ['-'] else []) ++ positionalChars true n p = cs at *
  rw [literal?_of_digits? (by rwa [hsign]), hsign]

/-- The text of a number in a document is read as what it shows. -/
theorem toRat_of_documentLayout (h : ofChars? (x.toChars documentLayout) = some d) :
    d.toRat = (if x.negative then -1 else 1) * nearest (x.shown .even) := by
  have hn := x.shortest_fst_le .even
  have htext : x.toChars documentLayout = (if x.negative then ['-'] else []) ++
      if (-5 ≤ (x.shortest .even).2 + ((decimal (x.shortest .even).1).length : Int) - 1 &&
          (x.shortest .even).2 + ((decimal (x.shortest .even).1).length : Int) - 1 ≤ 15) then
        positionalChars true (x.shortest .even).1 (x.shortest .even).2
      else exponentChars (x.shortest .even).1
        ((x.shortest .even).2 + ((decimal (x.shortest .even).1).length : Int) - 1) := rfl
  rw [htext] at h
  rw [shown]
  generalize (x.shortest .even).1 = n at *
  generalize (x.shortest .even).2 = p at *
  have hpos : 0 < (decimal n).length := Nat.length_toDigits_pos
  obtain ⟨leading, hleading⟩ : ∃ leading, leading = p + ((decimal n).length : Int) - 1 := ⟨_, rfl⟩
  rw [← hleading] at h
  by_cases hrange : (-5 ≤ leading && leading ≤ 15) = true
  · rw [if_pos hrange] at h
    rw [Bool.and_eq_true, decide_eq_true_eq, decide_eq_true_eq] at hrange
    rcases lt_or_ge p 0 with hp | hp
    · have hbound : 10 ^ 18 + 1 < coefficientBound := by decide
      exact toRat_of_positionalChars hp (by omega) h
    · have hfit : n * 10 ^ p.toNat * 10 < pow2 96 := by
        calc n * 10 ^ p.toNat * 10 < 10 ^ (decimal n).length * 10 ^ p.toNat * 10 := by
              gcongr
              exact lt_pow_length_decimal n
          _ = 10 ^ ((decimal n).length + p.toNat + 1) := by ring
          _ ≤ 10 ^ 17 := Nat.pow_le_pow_right (by decide) (by omega)
          _ < pow2 96 := by decide
      have hpow : (10 : ℚ) ^ p = 10 ^ p.toNat := by
        rw [← zpow_natCast, Int.toNat_of_nonneg hp]
      rw [toRat_of_fits h (literal?_keepsPoint hp n _) ⟨hfit, show 1 ≤ 28 by decide,
        show (1 : Nat) - (0 : Int) ≤ 28 by decide⟩, nearest_point n (by omega), Literal.value, hpow]
      push_cast
      ring
  · rw [if_neg hrange] at h
    have hpower : leading - ((decimal n).length - 1 : Nat) = p := by omega
    have hzero : leading ≠ 0 := by
      rintro rfl
      exact hrange (by decide)
    rw [toRat_of_exponentChars hn hzero h, hpower]

/-! ## Both texts -/

theorem fits_of_le_one {n : Nat} (hn : n ≤ 10 ^ 18) (h : 0 ≤ p → (n * 10 ^ p : ℚ) ≤ 1) :
    n * 10 ^ p.toNat < pow2 96 := by
  rcases lt_or_ge p 0 with hp | hp
  · have hbound : 10 ^ 18 < pow2 96 := by decide
    rw [Int.toNat_of_nonpos hp.le, pow_zero]
    omega
  · have hle := h hp
    rw [← Int.toNat_of_nonneg hp, zpow_natCast] at hle
    have hle' : n * 10 ^ p.toNat ≤ 1 := by exact_mod_cast hle
    exact hle'.trans_lt (by decide)

/-- A tied number of the unit interval, by the two decimals that it lies between. -/
theorem exists_of_isTied_of_documentLayout {v : Decimal} (htied : x.IsTied)
    (hv : ofChars? (x.toChars documentLayout) = some v) (hnonneg : 0 ≤ v.toRat)
    (hle : v.toRat ≤ 1) :
    ∃ (q : Nat) (p : Int), x.negative = false ∧ -28 ≤ p ∧ v.toRat = q * 10 ^ p ∧
      x.shown .up = (q + 1 : Nat) * 10 ^ p ∧ ((q + 1 : Nat) * 10 ^ p : ℚ) ≤ 1 := by
  have hvalue := toRat_of_documentLayout hv
  obtain ⟨q, p, hhalf, hp, heven, hup⟩ := exists_of_isTied htied
  have hpow : (0 : ℚ) < 10 ^ p := by positivity
  have hq : (0 : ℚ) < q := by exact_mod_cast hhalf.pos
  rw [heven, nearest_point q hp] at hvalue
  have hsign : x.negative = false := by
    by_contra hneg
    rw [Bool.eq_true_of_not_eq_false hneg, if_pos rfl] at hvalue
    nlinarith
  rw [hsign, if_neg (by decide), one_mul] at hvalue
  rw [hvalue] at hle
  obtain ⟨k, -, hk, hlt⟩ := hhalf.exists_places hle
  refine ⟨q, p, hsign, hp, hvalue, hup, ?_⟩
  rw [hk, zpow_neg, zpow_natCast, ← div_eq_mul_inv, div_le_one (by positivity)]
  exact_mod_cast hlt

theorem shown_eq_of_not_isTied (h : ¬ x.IsTied) : x.shown .even = x.shown .up := by
  have hsame : x.shortest .even = x.shortest .up := not_not.mp (mt isTied_iff.mpr h)
  rw [shown, hsame, shown]

/-- The plain digits of a number of the unit interval fit a decimal. -/
theorem fits_of_documentLayout {v : Decimal} (hv : ofChars? (x.toChars documentLayout) = some v)
    (hnonneg : 0 ≤ v.toRat) (hle : v.toRat ≤ 1) :
    (x.shortest .up).1 * 10 ^ (x.shortest .up).2.toNat < pow2 96 := by
  refine fits_of_le_one (x.shortest_fst_le .up) fun hp => ?_
  by_cases htied : x.IsTied
  · obtain ⟨q, p, -, -, -, hup, hupper⟩ :=
      exists_of_isTied_of_documentLayout htied hv hnonneg hle
    exact hup.trans_le hupper
  · have hvalue := toRat_of_documentLayout hv
    rw [shown_eq_of_not_isTied htied, shown, nearest_point _ (by omega)] at hvalue
    cases hneg : x.negative with
    | true =>
      rw [hneg, if_pos rfl] at hvalue
      linarith
    | false =>
      rw [hneg, if_neg (by decide), one_mul] at hvalue
      rwa [← hvalue]

/-- A number of the unit interval, by its text in a document, is in it by its plain digits, and the
two readings are one decimal unless the number is tied. -/
theorem toRat_eq_iff {v : Decimal} (hv : ofChars? (x.toChars documentLayout) = some v)
    (hd : ofChars? (x.toChars plainLayout) = some d) (hnonneg : 0 ≤ v.toRat)
    (hle : v.toRat ≤ 1) :
    (0 ≤ d.toRat ∧ d.toRat ≤ 1) ∧ (d.toRat = v.toRat ↔ ¬ x.IsTied) := by
  have hdecimal := toRat_of_plainLayout (fits_of_documentLayout hv hnonneg hle) hd
  by_cases htied : x.IsTied
  · obtain ⟨q, p, hsign, hp, hvalue, hup, hupper⟩ :=
      exists_of_isTied_of_documentLayout htied hv hnonneg hle
    have hpow : (0 : ℚ) < 10 ^ p := by positivity
    rw [hsign, if_neg (by decide), one_mul, hup, nearest_point (q + 1) hp] at hdecimal
    rw [hdecimal, hvalue]
    refine ⟨⟨by positivity, hupper⟩, iff_of_false (fun heq => ?_) (not_not_intro htied)⟩
    have hcancel := mul_right_cancel₀ hpow.ne' heq
    push_cast at hcancel
    linarith
  · rw [← shown_eq_of_not_isTied htied, ← toRat_of_documentLayout hv] at hdecimal
    rw [hdecimal]
    exact ⟨⟨hnonneg, hle⟩, iff_of_true rfl htied⟩

end Isnad.Binary64
