import Isnad.Text.Blank
import Isnad.Timestamp.Reader
import Isnad.Uuid
import Mathlib.Data.List.Basic

/-!
# Texts that can be read are not blank

An identifier and a timestamp have a character that is not a blank, so that a field which holds one
need not be checked for blanks as well.
-/

namespace Isnad

open Text

theorem Text.trimStart_cons {c : Char} (h : isBlank c = false) (cs : List Char) :
    trimStart (c :: cs) = c :: cs := by
  rw [trimStart, List.dropWhile_cons_of_neg (by simp [h])]

theorem Text.isBlank_of_digit? {c : Char} {n : Nat} (h : digit? c = some n) :
    isBlank c = false := by
  have hd : c.isDigit = true := by
    by_contra hc
    simp [digit?, hc] at h
  simp only [Char.isDigit, Bool.and_eq_true, decide_eq_true_eq] at hd
  obtain ⟨hlow, hhigh⟩ : 48 ≤ c.toNat ∧ c.toNat ≤ 57 := hd
  simp only [isBlank, Bool.or_eq_false_iff, Bool.and_eq_false_iff, decide_eq_false_iff_not,
    beq_eq_false_iff_ne]
  omega

theorem Text.isBlank_of_hexDigit? {c : Char} {d : Fin 16} (h : hexDigit? c = some d) :
    isBlank c = false := by
  have hd : (48 ≤ c.toNat ∧ c.toNat ≤ 57) ∨ (97 ≤ c.toNat ∧ c.toNat ≤ 102) ∨
      (65 ≤ c.toNat ∧ c.toNat ≤ 70) := by
    unfold hexDigit? at h
    split at h
    · exact .inl ‹_›
    · split at h
      · exact .inr (.inl ‹_›)
      · split at h
        · exact .inr (.inr ‹_›)
        · cases h
  simp only [isBlank, Bool.or_eq_false_iff, Bool.and_eq_false_iff, decide_eq_false_iff_not,
    beq_eq_false_iff_ne]
  omega

/-- A text with a character that is no blank is not blank. -/
theorem Text.isBlankText_of_mem {s : String} {c : Char} (hc : c ∈ s.toList)
    (h : isBlank c = false) : isBlankText s = false := by
  rw [isBlankText, List.all_eq_false]
  exact ⟨c, hc, by simp [h]⟩

namespace Uuid

theorem hyphen_mem_of_hyphenated? {cs : List Char} {u : Uuid} (h : hyphenated? cs = some u) :
    '-' ∈ cs := by
  unfold hyphenated? at h
  split at h
  · rename_i hc
    have h8 := List.all_eq_true.mp hc.2 8 (by simp)
    exact List.mem_of_getElem? (of_decide_eq_true h8)
  · cases h

theorem exists_hexDigit?_of_simple? {cs : List Char} {u : Uuid} (h : simple? cs = some u) :
    ∃ c ∈ cs, ∃ d, hexDigit? c = some d := by
  obtain ⟨ds, hds, hu⟩ := Option.bind_eq_some_iff.mp h
  cases cs with
  | nil =>
    cases hds
    simp [ofDigits?] at hu
  | cons c cs =>
    rw [hexDigits?, List.mapM_cons] at hds
    obtain ⟨d, hd, -⟩ := Option.bind_eq_some_iff.mp hds
    exact ⟨c, List.mem_cons_self, d, hd⟩

/-- An identifier is no blank text. -/
theorem isBlankText_of_ofString? {s : String} {u : Uuid} (h : ofString? s = some u) :
    isBlankText s = false := by
  unfold ofString? ofChars? at h
  split at h
  · obtain ⟨c, hc, d, hd⟩ := exists_hexDigit?_of_simple? h
    exact isBlankText_of_mem hc (isBlank_of_hexDigit? hd)
  · split at h
    · have hmem := List.dropLast_subset _ (hyphen_mem_of_hyphenated? h)
      exact isBlankText_of_mem (List.mem_of_mem_drop hmem) (by decide)
    · split at h
      · have hmem := List.mem_of_mem_drop (hyphen_mem_of_hyphenated? h)
        exact isBlankText_of_mem hmem (by decide)
      · exact isBlankText_of_mem (hyphen_mem_of_hyphenated? h) (by decide)

end Uuid

/-- A timestamp starts with the digits of its year. -/
theorem Timestamp.isBlankText_of_ofRfc3339? {s : String} {t : Timestamp}
    (h : ofRfc3339? s = some t) : isBlankText s = false := by
  obtain ⟨⟨year, rest⟩, hyear, -⟩ := Option.bind_eq_some_iff.mp h
  cases hs : s.toList with
  | nil => simp [hs, Reader.number?, spanDigitsUpTo] at hyear
  | cons c cs =>
    cases hc : digit? c with
    | none => simp [hs, Reader.number?, spanDigitsUpTo, hc] at hyear
    | some d => exact isBlankText_of_mem (hs ▸ List.mem_cons_self) (isBlank_of_digit? hc)

end Isnad
