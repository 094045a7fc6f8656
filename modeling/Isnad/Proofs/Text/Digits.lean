import Isnad.Text.Digits
import Mathlib.Algebra.Ring.Nat
import Mathlib.Data.List.Basic
import Mathlib.Tactic.IntervalCases

/-!
# Digits written and read

The digits of a number, with or without zeros in front, are digits and spell that number, and a run
of digits is read to its end.
-/

namespace Isnad.Text

variable {n : Nat} {c : Char} {cs : List Char}

/-! ## Written digits -/

theorem isDigit_of_mem_decimal (h : c ∈ decimal n) : c.isDigit = true :=
  Nat.isDigit_of_mem_toDigits (by decide) (by decide) h

theorem isDigit_of_mem_decimalPadded {width : Nat} (h : c ∈ decimalPadded width n) :
    c.isDigit = true := by
  rcases List.mem_append.mp h with h | h
  · rw [List.eq_of_mem_replicate h]
    rfl
  · exact isDigit_of_mem_decimal h

theorem ofDigitChars_decimalPadded (width n : Nat) :
    Nat.ofDigitChars 10 (decimalPadded width n) 0 = n := by
  rw [decimalPadded, Nat.ofDigitChars_append, Nat.ofDigitChars_replicate_zero, Nat.mul_zero,
    decimal, Nat.ofDigitChars_ten_toDigits]

theorem le_length_decimalPadded (width n : Nat) : width ≤ (decimalPadded width n).length := by
  rw [decimalPadded, List.length_append, List.length_replicate]
  omega

theorem length_decimalPadded {width : Nat} (hw : 0 < width) (h : n < 10 ^ width) :
    (decimalPadded width n).length = width := by
  have hlen : (decimal n).length ≤ width := (Nat.length_toDigits_le_iff (by decide) hw).mpr h
  rw [decimalPadded, List.length_append, List.length_replicate, Nat.sub_add_cancel hlen]

/-- No zeros are written in front. -/
theorem head?_decimal_ne_zero (h : 0 < n) : (decimal n).head? ≠ some '0' := by
  induction n using Nat.strongRecOn with
  | ind n ih =>
    rcases Nat.lt_or_ge n 10 with hlt | hge
    · rw [decimal, Nat.toDigits_of_lt_base hlt]
      interval_cases n <;> decide
    · have hrest := ih (n / 10) (by omega) (by omega)
      rwa [decimal, Nat.toDigits_of_base_le (by decide) hge,
        List.head?_append_of_ne_nil _ Nat.toDigits_ne_nil]

/-! ## Digits read -/

theorem ne_of_isDigit {c' : Char} (h : c.isDigit = true) (h' : c'.isDigit = false) : c ≠ c' := by
  rintro rfl
  cases h.symm.trans h'

theorem digit?_of_isDigit (h : c.isDigit = true) : digit? c = some (c.toNat - '0'.toNat) := if_pos h

theorem spanDigits_of_isDigit (h : ∀ c ∈ cs, c.isDigit = true) :
    spanDigits cs = (cs.map fun c => c.toNat - '0'.toNat, []) := by
  induction cs with
  | nil => rfl
  | cons c cs ih =>
    obtain ⟨hc, hcs⟩ := List.forall_mem_cons.mp h
    rw [spanDigits, digit?_of_isDigit hc, ih hcs]
    rfl

/-- Digits within the limit are read, and then what follows them. -/
theorem spanDigitsUpTo_append (h : ∀ c ∈ cs, c.isDigit = true) (limit : Nat) (rest : List Char) :
    spanDigitsUpTo (cs.length + limit) (cs ++ rest) =
      (cs.map (fun c => c.toNat - '0'.toNat) ++ (spanDigitsUpTo limit rest).1,
        (spanDigitsUpTo limit rest).2) := by
  induction cs with
  | nil => simp
  | cons c cs ih =>
    obtain ⟨hc, hcs⟩ := List.forall_mem_cons.mp h
    rw [List.length_cons, Nat.succ_add, List.cons_append, spanDigitsUpTo, digit?_of_isDigit hc,
      ih hcs]
    rfl

theorem ofDigits_map (cs : List Char) :
    ofDigits 10 (cs.map fun c => c.toNat - '0'.toNat) = Nat.ofDigitChars 10 cs 0 := by
  rw [ofDigits, List.foldl_map]
  rfl

/-- A written number is read back, and then what follows it. -/
theorem exists_spanDigitsUpTo_decimalPadded {width : Nat} (hw : 0 < width) (h : n < 10 ^ width)
    (limit : Nat) (rest : List Char) :
    ∃ ds, ds.length = width ∧ ofDigits 10 ds = n ∧
      spanDigitsUpTo (width + limit) (decimalPadded width n ++ rest) =
        (ds ++ (spanDigitsUpTo limit rest).1, (spanDigitsUpTo limit rest).2) := by
  have hlen := length_decimalPadded hw h
  have hdigits : ∀ c ∈ decimalPadded width n, c.isDigit = true :=
    fun c hc => isDigit_of_mem_decimalPadded hc
  have hspan := spanDigitsUpTo_append hdigits limit rest
  rw [hlen] at hspan
  exact ⟨_, by rw [List.length_map, hlen], by rw [ofDigits_map, ofDigitChars_decimalPadded], hspan⟩

end Isnad.Text
