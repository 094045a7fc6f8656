import Isnad.Json.Printer
import Isnad.Json.Reader
import Isnad.Proofs.Text.Digits

/-!
# Strings and numerals in a text

A string is read back from its escaped characters, whatever follows its closing quote. A numeral
has no end of its own: it is read up to the first character that cannot belong to it, so that what
is read of a numeral alone is also read before a comma or a closing bracket (`numeral?_append`).
-/

namespace Isnad.Json.Reader

open Text

variable {c : Char} {cs rest : List Char}

/-! ## Strings -/

theorem stringUnits_of_escaped? {e : Char} (he : e ≠ 'u') (h : escaped? e = some c) :
    stringUnits ('\\' :: e :: cs) = (stringUnits cs).map fun r => (c.toNat :: r.1, r.2) := by
  cases hread : stringUnits cs <;> simp [stringUnits, he, h, hread]

theorem stringUnits_of_codeUnit? {a b d e : Char} {n : Nat} (h : codeUnit? a b d e = some n) :
    stringUnits ('\\' :: 'u' :: a :: b :: d :: e :: cs) =
      (stringUnits cs).map fun r => (n :: r.1, r.2) := by
  cases hread : stringUnits cs <;> simp [stringUnits, h, hread]

theorem stringUnits_of_plain (hquote : c ≠ '"') (hback : c ≠ '\\') (h : ¬ c.toNat < 0x20) :
    stringUnits (c :: cs) = (stringUnits cs).map fun r => (c.toNat :: r.1, r.2) := by
  cases hread : stringUnits cs <;> simp [stringUnits, hback, h, hread]

/-- A control character is spelled by the two digits of its code. -/
theorem exists_control_digits {n : Nat} (h : n < 0x20) :
    ∃ a b, List.replicate (4 - (hex n).length) '0' ++ hex n = ['0', '0', a, b] ∧
      codeUnit? '0' '0' a b = some n := by
  interval_cases n <;> exact ⟨_, _, rfl, rfl⟩

/-- A character is read back from its escape. -/
theorem stringUnits_escapeChar (c : Char) (cs : List Char) :
    stringUnits (escapeChar c ++ cs) = (stringUnits cs).map fun r => (c.toNat :: r.1, r.2) := by
  rw [escapeChar]
  split
  · subst c
    exact stringUnits_of_escaped? (by decide) rfl
  rename_i hquote
  split
  · subst c
    exact stringUnits_of_escaped? (by decide) rfl
  rename_i hback
  -- the control characters with a letter of their own
  iterate 5
    split
    · subst c
      exact stringUnits_of_escaped? (by decide) rfl
  split
  · rename_i hcontrol
    obtain ⟨a, b, hdigits, hunit⟩ := exists_control_digits hcontrol
    dsimp only
    rw [List.append_assoc ['\\', 'u'], hdigits]
    exact stringUnits_of_codeUnit? hunit
  · rename_i hcontrol
    exact stringUnits_of_plain hquote hback hcontrol

theorem stringUnits_flatMap_escapeChar (cs rest : List Char) :
    stringUnits (cs.flatMap escapeChar ++ '"' :: rest) = some (cs.map Char.toNat, rest) := by
  induction cs with
  | nil => rfl
  | cons c cs ih =>
    rw [List.flatMap_cons, List.append_assoc, stringUnits_escapeChar, ih]
    rfl

/-- No character is half of a surrogate pair. -/
theorem not_surrogate (c : Char) :
    isHighSurrogate c.toNat = false ∧ isLowSurrogate c.toNat = false := by
  have hvalid : c.toNat < 0xD800 ∨ 0xDFFF < c.toNat ∧ c.toNat < 0x110000 := c.valid
  simp only [isHighSurrogate, isLowSurrogate, Bool.and_eq_false_iff, decide_eq_false_iff_not]
  omega

theorem unitChars_map_toNat (cs : List Char) : unitChars (cs.map Char.toNat) = some cs := by
  induction cs with
  | nil => rfl
  | cons c cs ih =>
    obtain ⟨hhigh, hlow⟩ := not_surrogate c
    simp [unitChars.eq_def (c.toNat :: _), hhigh, hlow, ih]

/-- A string is read back, whatever follows it. -/
theorem string?_append (s : String) (rest : List Char) :
    string? (s.toList.flatMap escapeChar ++ '"' :: rest) = some (some s, rest) := by
  simp [string?, stringUnits_flatMap_escapeChar, unitChars_map_toNat]

/-! ## Numerals -/

/-- No numeral goes on with what follows. -/
inductive EndsNumeral : List Char → Prop where
  | nil : EndsNumeral []
  | comma (cs : List Char) : EndsNumeral (',' :: cs)
  | bracket (cs : List Char) : EndsNumeral (']' :: cs)
  | brace (cs : List Char) : EndsNumeral ('\x7d' :: cs)

theorem spanDigits_append (h : EndsNumeral rest) (cs : List Char) :
    spanDigits (cs ++ rest) = ((spanDigits cs).1, (spanDigits cs).2 ++ rest) := by
  induction cs with
  | nil => cases h <;> rfl
  | cons c cs ih =>
    rw [List.cons_append, spanDigits, spanDigits]
    cases digit? c with
    | none => rfl
    | some d => rw [ih]

/-- What follows a minus sign, if there is one. -/
def unsigned : List Char → List Char
  | '-' :: cs => cs
  | cs => cs

theorem unsigned_of_ne (h : c ≠ '-') (cs : List Char) : unsigned (c :: cs) = c :: cs := by
  simp [unsigned, h]

/-- A numeral is read part by part. -/
theorem numeral?_eq_some_iff {n : Numeral} {r : List Char} :
    numeral? cs = some (n, r) ↔
      n.negative = decide (cs.head? = some '-') ∧ ∃ r₁ r₂,
        whole? (unsigned cs) = some (n.whole, r₁) ∧ fraction? r₁ = some (n.fraction, r₂) ∧
          exponent? r₂ = some (n.exponent, r) := by
  have hread : numeral? cs = (whole? (unsigned cs)).bind fun w => (fraction? w.2).bind fun f =>
      (exponent? f.2).map fun e => (⟨cs.head? = some '-', w.1, f.1, e.1⟩, e.2) := by
    cases cs with
    | nil => rfl
    | cons c cs =>
      by_cases hminus : c = '-'
      · subst hminus
        simp [numeral?, unsigned, Option.map_eq_bind]
      · simp [numeral?, unsigned_of_ne hminus, hminus, Option.map_eq_bind]
  obtain ⟨negative, whole, fraction, exponent⟩ := n
  rw [hread]
  simp only [Option.bind_eq_some_iff, Option.map_eq_some_iff, Prod.exists, Prod.mk.injEq,
    Numeral.mk.injEq]
  grind

/-- The sign of an exponent, and what follows it. -/
def exponentSign : List Char → Bool × List Char
  | '-' :: cs => (true, cs)
  | '+' :: cs => (false, cs)
  | cs => (false, cs)

theorem exponentSign_append (h : EndsNumeral rest) (cs : List Char) :
    exponentSign (cs ++ rest) = ((exponentSign cs).1, (exponentSign cs).2 ++ rest) := by
  cases cs with
  | nil => cases h <;> rfl
  | cons c cs =>
    rw [List.cons_append]
    unfold exponentSign
    grind

/-- The digits of an exponent, after its sign. -/
def exponentDigits (negative : Bool) (cs : List Char) : Option (Option Int × List Char) :=
  match spanDigits cs with
  | ([], _) => none
  | (ds, rest) => some (some (if negative then -(ofDigits 10 ds : Int) else ofDigits 10 ds), rest)

theorem exponentDigits_eq_some_iff {negative : Bool} {e : Option Int} {r : List Char} :
    exponentDigits negative cs = some (e, r) ↔ ∃ ds, ds ≠ [] ∧ spanDigits cs = (ds, r) ∧
      e = some (if negative then -(ofDigits 10 ds : Int) else ofDigits 10 ds) := by
  unfold exponentDigits
  split <;> grind

/-- After its mark an exponent has a sign or none, and then digits. -/
theorem exponent?_of_mark (hmark : c = 'e' ∨ c = 'E') (cs : List Char) :
    exponent? (c :: cs) = exponentDigits (exponentSign cs).1 (exponentSign cs).2 := by
  have hmark' : (decide (c = 'e') || decide (c = 'E')) = true := by simpa using hmark
  refine (if_pos hmark').trans ?_
  cases cs with
  | nil => rfl
  | cons d cs =>
    by_cases hminus : d = '-'
    · subst hminus
      rfl
    · by_cases hplus : d = '+'
      · subst hplus
        rfl
      · rcases hspan : spanDigits (d :: cs) with ⟨_ | ⟨_, _⟩, _⟩ <;>
          simp [exponentDigits, exponentSign, hminus, hplus, hspan]

theorem exponent?_of_not_mark (hmark : ¬(c = 'e' ∨ c = 'E')) (cs : List Char) :
    exponent? (c :: cs) = some (none, c :: cs) := if_neg (by simpa using hmark)

theorem fraction?_of_ne (hpoint : c ≠ '.') (cs : List Char) :
    fraction? (c :: cs) = some (none, c :: cs) := by
  simp [fraction?, hpoint]

section Append

variable {r : List Char} (h : EndsNumeral rest)
include h

theorem whole?_append {ds : List Nat} (hread : whole? cs = some (ds, r)) :
    whole? (cs ++ rest) = some (ds, r ++ rest) := by
  unfold whole? at hread ⊢
  rw [spanDigits_append h]
  split at hread <;> grind

theorem fraction?_append {f : Option (List Nat)} (hread : fraction? cs = some (f, r)) :
    fraction? (cs ++ rest) = some (f, r ++ rest) := by
  cases cs with
  | nil =>
    cases hread
    cases h <;> rfl
  | cons c cs =>
    rw [List.cons_append]
    rcases eq_or_ne c '.' with rfl | hpoint
    · simp only [fraction?, spanDigits_append h] at hread ⊢
      split at hread <;> grind
    · rw [fraction?_of_ne hpoint] at hread ⊢
      cases hread
      rfl

theorem exponent?_append {e : Option Int} (hread : exponent? cs = some (e, r)) :
    exponent? (cs ++ rest) = some (e, r ++ rest) := by
  cases cs with
  | nil =>
    cases hread
    cases h <;> rfl
  | cons c cs =>
    rw [List.cons_append]
    by_cases hmark : c = 'e' ∨ c = 'E'
    · rw [exponent?_of_mark hmark, exponentDigits_eq_some_iff] at hread ⊢
      obtain ⟨ds, hds, hspan, rfl⟩ := hread
      rw [exponentSign_append h, spanDigits_append h, hspan]
      exact ⟨ds, hds, rfl, rfl⟩
    · rw [exponent?_of_not_mark hmark] at hread ⊢
      cases hread
      rfl

/-- What is read of a numeral alone is read before whatever ends it. -/
theorem numeral?_append {n : Numeral} (hread : numeral? cs = some (n, r)) :
    numeral? (cs ++ rest) = some (n, r ++ rest) := by
  obtain ⟨hsign, r₁, r₂, hwhole, hfraction, hexponent⟩ := numeral?_eq_some_iff.mp hread
  have hunsigned : unsigned (cs ++ rest) = unsigned cs ++ rest := by
    cases cs with
    | nil => cases hwhole
    | cons c cs =>
      by_cases hminus : c = '-'
      · subst hminus
        rfl
      · rw [List.cons_append, unsigned_of_ne hminus, unsigned_of_ne hminus, List.cons_append]
  refine numeral?_eq_some_iff.mpr ⟨?_, _, _, ?_, fraction?_append h hfraction,
    exponent?_append h hexponent⟩
  · cases cs with
    | nil => cases hwhole
    | cons c cs => exact hsign
  · rw [hunsigned]
    exact whole?_append h hwhole

end Append

theorem exists_head_of_numeral? {n : Numeral} {r : List Char} (h : numeral? cs = some (n, r)) :
    ∃ c ds, cs = c :: ds ∧ (c = '-' ∨ c.isDigit = true) := by
  obtain ⟨-, r₁, r₂, hwhole, -⟩ := numeral?_eq_some_iff.mp h
  cases cs with
  | nil => cases hwhole
  | cons c cs =>
    refine ⟨c, cs, rfl, ?_⟩
    by_cases hminus : c = '-'
    · exact .inl hminus
    · rw [unsigned_of_ne hminus] at hwhole
      by_contra hc
      rw [not_or] at hc
      simp [whole?, spanDigits, digit?, hc.2] at hwhole

theorem eq_zero_of_isDigit (h : c.isDigit = true) (hzero : c.toNat - '0'.toNat = 0) : c = '0' := by
  have hle : '0'.toNat ≤ c.toNat := (Char.isDigit_iff_toNat.mp h).1
  exact Char.toNat_inj.mp (by omega)

/-- The digits of a number are read back, since no zero stands in front of others. -/
theorem exists_whole?_decimal (k : Nat) :
    ∃ ds, whole? (decimal k) = some (ds, []) ∧ ofDigits 10 ds = k := by
  have hdigit : ∀ c ∈ decimal k, c.isDigit = true := fun _ => isDigit_of_mem_decimal
  have hvalue : ofDigits 10 ((decimal k).map fun c => c.toNat - '0'.toNat) = k := by
    rw [ofDigits_map]
    exact Nat.ofDigitChars_ten_toDigits
  refine ⟨_, ?_, hvalue⟩
  rw [whole?, spanDigits_of_isDigit hdigit]
  cases hk : decimal k with
  | nil => exact absurd hk Nat.toDigits_ne_nil
  | cons c cs =>
    cases cs with
    | nil => simp
    | cons d cs =>
      have hlead : c.toNat - 48 ≠ 0 := by
        intro hzero
        obtain rfl := eq_zero_of_isDigit (hdigit c (by simp [hk])) hzero
        refine head?_decimal_ne_zero (Nat.pos_of_ne_zero ?_) (by rw [hk, List.head?_cons])
        rintro rfl
        cases hk
      simp [hlead]

end Isnad.Json.Reader

namespace Isnad

open Json Reader Text

namespace Number

/-- The number is read back from its text. -/
def IsReadBack (n : Number) : Prop :=
  ∃ m, numeral? n.toChars = some (m, []) ∧ m.number? = some n

instance : DecidablePred IsReadBack := fun n =>
  decidable_of_iff ((numeral? n.toChars).any fun r => r.2.isEmpty && r.1.number? = some n) (by
    cases h : numeral? n.toChars with
    | none => simp [IsReadBack, h]
    | some r =>
      obtain ⟨m, rest⟩ := r
      simp [IsReadBack, h])

/-- Whole numbers of 64 bits are read back. -/
theorem isReadBack_int {k : Int} (h : isWordSized k = true) : (int k).IsReadBack := by
  obtain ⟨ds, hwhole, hvalue⟩ := exists_whole?_decimal k.natAbs
  obtain ⟨c, cs, hdecimal, hc⟩ : ∃ c cs, decimal k.natAbs = c :: cs ∧ c ≠ '-' := by
    cases hd : decimal k.natAbs with
    | nil => exact absurd hd Nat.toDigits_ne_nil
    | cons c cs =>
      have hdigit : c.isDigit = true := isDigit_of_mem_decimal (n := k.natAbs) (by simp [hd])
      refine ⟨c, cs, rfl, ?_⟩
      rintro rfl
      cases hdigit
  refine ⟨⟨k < 0, ds, none, none⟩, numeral?_eq_some_iff.mpr ⟨?_, [], [], ?_, rfl, rfl⟩, ?_⟩
  · by_cases hneg : k < 0 <;> simp [toChars, hneg, hdecimal, hc]
  · by_cases hneg : k < 0
    · simp [toChars, hneg, unsigned, hwhole]
    · simp [toChars, hneg, hdecimal, unsigned_of_ne hc]
      rw [← hdecimal, hwhole]
  · have hk : (if decide (k < 0) = true then -(k.natAbs : Int) else k.natAbs) = k := by
      by_cases hneg : k < 0
      · simp only [hneg, decide_true, if_true]
        omega
      · simp only [hneg, decide_false, Bool.false_eq_true, if_false]
        omega
    have hnegative : (decide (k < 0) && decide (k.natAbs = 0)) = false := by
      rw [Bool.and_eq_false_iff, decide_eq_false_iff_not, decide_eq_false_iff_not]
      omega
    simp only [Numeral.number?, hvalue, hk, hnegative, h]
    rfl

example : ((Binary64.ofDecimal? 30000000000000004 (-17)).map float).any (·.IsReadBack) := by
  decide +kernel
example : ((Binary64.ofDecimal? 12345678901464217 (-20)).map float).any (¬ ·.IsReadBack) := by
  decide +kernel

end Number
end Isnad
