import Isnad.Decimal.Printer
import Isnad.Proofs.Binary64.Printer

/-!
# The text of a decimal

A decimal is written with all its places, as a numeral that fits. So it is read back with its
coefficient and scale (`ofChars?_toChars`); only a zero loses its sign.
-/

namespace Isnad.Decimal

open Text Binary64

/-- The digits with the point before the places of the scale. -/
theorem toChars_eq (x : Decimal) :
    x.toChars = (if x.negative then ['-'] else []) ++
      positionalChars false x.coefficient (-(x.scale : Int)) := by
  rcases Nat.eq_zero_or_pos x.scale with hzero | hpos
  · have hlen : 1 - (decimal x.coefficient).length = 0 :=
      Nat.sub_eq_zero_of_le Nat.length_toDigits_pos
    simp [toChars, positionalChars, decimalPadded, hzero, hlen]
  · have hlen := le_length_decimalPadded (x.scale + 1) x.coefficient
    have hplaces : ((decimalPadded (x.scale + 1) x.coefficient).drop
        ((decimalPadded (x.scale + 1) x.coefficient).length - x.scale)).isEmpty = false := by
      rw [List.isEmpty_eq_false_iff, ne_eq, List.drop_eq_nil_iff]
      omega
    have hneg : ¬(0 : Int) ≤ -(x.scale : Int) := by omega
    simp only [toChars, positionalChars, hplaces, if_neg hneg, neg_neg, Int.toNat_natCast,
      if_neg Bool.false_ne_true, List.append_assoc]

/-- The decimal, with a zero left without its sign. -/
def dropZeroSign (x : Decimal) : Decimal := { x with negative := x.negative && x.coefficient != 0 }

theorem toRat_dropZeroSign (x : Decimal) : x.dropZeroSign.toRat = x.toRat := by
  rw [toRat_of_signed? (mk?_self x.dropZeroSign), toRat_eq]
  rfl

/-- Coefficient and scale are read back. -/
theorem ofChars?_toChars (x : Decimal) : ofChars? x.toChars = some x.dropZeroSign := by
  have hdigits := digits?_positionalChars x.coefficient (-(x.scale : Int))
  have hsign := splitSign_append hdigits x.negative
  rw [neg_neg, Int.toNat_natCast, Int.toNat_of_nonpos (by omega), pow_zero, Nat.mul_one] at hdigits
  have hscan := scan_of_digits? hdigits x.coefficient_lt x.scale_le
  rw [toChars_eq]
  refine ofChars?_of_scan (by rwa [hsign]) ?_
  rw [hsign]
  exact mk?_self x.dropZeroSign

/-- A zero is written with its sign and its places, and read without the sign. -/
example : toChars ⟨true, 0, 2, by decide, by decide⟩ = "-0.00".toList ∧
    ofChars? "-0.00".toList = mk? false 0 2 := by decide +kernel

theorem exists_ofChars?_toChars (x : Decimal) :
    ∃ d, ofChars? x.toChars = some d ∧ d.toRat = x.toRat :=
  ⟨_, x.ofChars?_toChars, x.toRat_dropZeroSign⟩

end Isnad.Decimal
