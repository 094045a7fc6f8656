import Isnad.Decimal.Reader
import Isnad.Proofs.Decimal.Value
import Isnad.Proofs.Text.Digits
import Mathlib.Algebra.Field.Rat
import Mathlib.Data.List.TakeWhile
import Mathlib.Tactic.Positivity

/-!
# What a numeral says, and what is read from it

A numeral denotes a rational number, however many digits it has (`Literal.value`). Every numeral
that a decimal is read from denotes one (`exists_literal`). The decimal is that number where all
digits fit (`toRat_of_fits`); otherwise it may be rounded, and up as well as down.
-/

namespace Isnad

/-- A numeral by its parts: sign, digits with the number of those after the point, exponent. -/
structure Literal where
  negative : Bool
  digits : Nat
  places : Nat
  exponent : Int
deriving DecidableEq

namespace Literal

/-- The number that a numeral denotes. -/
def value (l : Literal) : ℚ :=
  (if l.negative then -1 else 1) * (l.digits / 10 ^ l.places) * 10 ^ l.exponent

/-- The digits fit a decimal, and so do the places, with those that the exponent adds. -/
structure FitsDecimal (l : Literal) : Prop where
  digits_lt : l.digits < pow2 96
  places_le : l.places ≤ 28
  shifted_le : l.places - l.exponent ≤ 28

instance (l : Literal) : Decidable l.FitsDecimal :=
  decidable_of_iff (l.digits < pow2 96 ∧ l.places ≤ 28 ∧ l.places - l.exponent ≤ 28)
    ⟨fun ⟨hd, hp, hs⟩ => ⟨hd, hp, hs⟩, fun ⟨hd, hp, hs⟩ => ⟨hd, hp, hs⟩⟩

end Literal

namespace Decimal

open Text

/-! ## Numerals in strings -/

/-- Digits and places of a numeral without its sign, as many as it has. The first two arguments say
whether the point and a digit were seen. -/
def digits? (point started : Bool) (digits places : Nat) : List Char → Option (Nat × Nat)
  | [] => if started then some (digits, places) else none
  | c :: cs =>
    if c = '.' then
      if point then none else digits? true started digits places cs
    else if c = '_' then
      if started then digits? point true digits places cs else none
    else
      match digit? c with
      | none => none
      | some d => digits? point true (10 * digits + d) (if point then places + 1 else places) cs

/-- The exponent that follows its mark. -/
def exponent? : List Char → Option Int
  | '-' :: ds => (naturalBelow? exponentBound ds).map fun n => -(n : Int)
  | ds => (naturalBelow? exponentBound ds).map fun n => (n : Int)

/-- The numeral that a string spells. -/
def literal? (cs : List Char) : Option Literal := do
  let (negative, body) := splitSign (cs.takeWhile fun c => !isMark c)
  let (digits, places) ← digits? false false 0 0 body
  match cs.dropWhile fun c => !isMark c with
  | [] => some ⟨negative, digits, places, 0⟩
  | _ :: ds => do some ⟨negative, digits, places, ← exponent? ds⟩

/-! ## Digits -/

section Digits

variable {point started : Bool} {n s m p : Nat} {cs : List Char} {c : Char}

/-- The next character is the point, an underscore or a digit. -/
theorem digits?_cons {r : Nat × Nat} (h : digits? point started n s (c :: cs) = some r) :
    (c = '.' ∧ point = false ∧ digits? true started n s cs = some r) ∨
    (c = '_' ∧ started = true ∧ digits? point true n s cs = some r) ∨
    ∃ d, digit? c = some d ∧ c ≠ '.' ∧ c ≠ '_' ∧
      digits? point true (10 * n + d) (if point then s + 1 else s) cs = some r := by
  rw [digits?] at h
  split at h
  · rename_i hc
    cases point with
    | true => cases h
    | false => exact .inl ⟨hc, rfl, h⟩
  · rename_i hpoint
    split at h
    · rename_i hc
      cases started with
      | true => exact .inr (.inl ⟨hc, rfl, h⟩)
      | false => cases h
    · rename_i hunderscore
      split at h
      · cases h
      · rename_i d hd
        exact .inr (.inr ⟨d, hd, hpoint, hunderscore, h⟩)

theorem le_of_digits? (h : digits? point started n s cs = some (m, p)) : n ≤ m ∧ s ≤ p := by
  induction cs generalizing point started n s with
  | nil =>
    cases started with
    | true =>
      cases h
      exact ⟨le_refl _, le_refl _⟩
    | false => cases h
  | cons c cs ih =>
    rcases digits?_cons h with ⟨-, -, h⟩ | ⟨-, -, h⟩ | ⟨d, -, -, -, h⟩
    · exact ih h
    · exact ih h
    · obtain ⟨hn, hs⟩ := ih h
      refine ⟨by omega, ?_⟩
      cases point with
      | true => exact (Nat.le_succ s).trans hs
      | false => exact hs

/-- Where no place is added after the point, nothing but underscores follows. -/
theorem underscores_of_digits? (h : digits? true started n s cs = some (m, p)) (hp : p ≤ s) :
    m = n ∧ p = s ∧ ∀ c ∈ cs, c = '_' := by
  induction cs generalizing started with
  | nil =>
    cases started with
    | true =>
      cases h
      exact ⟨rfl, rfl, by simp⟩
    | false => cases h
  | cons c cs ih =>
    rcases digits?_cons h with ⟨-, hpoint, -⟩ | ⟨hc, -, h⟩ | ⟨d, -, -, -, h⟩
    · cases hpoint
    · obtain ⟨hm, hs, hall⟩ := ih h
      exact ⟨hm, hs, List.forall_mem_cons.mpr ⟨hc, hall⟩⟩
    · have hle := (le_of_digits? h).2
      rw [if_pos rfl] at hle
      omega

/-- Points, underscores and digits are all there is. -/
theorem mem_of_digits? {r : Nat × Nat} (h : digits? point started n s cs = some r) :
    ∀ c ∈ cs, c = '.' ∨ c = '_' ∨ c.isDigit = true := by
  induction cs generalizing point started n s with
  | nil => simp
  | cons c cs ih =>
    rw [List.forall_mem_cons]
    rcases digits?_cons h with ⟨rfl, -, h⟩ | ⟨rfl, -, h⟩ | ⟨d, hd, -, -, h⟩
    · exact ⟨.inl rfl, ih h⟩
    · exact ⟨.inr (.inl rfl), ih h⟩
    · refine ⟨.inr (.inr ?_), ih h⟩
      by_contra hc
      rw [digit?, if_neg hc] at hd
      cases hd

theorem not_isMark_of_digits? {r : Nat × Nat} (h : digits? point started n s cs = some r) :
    ∀ c ∈ cs, isMark c = false := by
  intro c hc
  rcases mem_of_digits? h c hc with rfl | rfl | hd
  · rfl
  · rfl
  · by_contra hmark
    rw [Bool.not_eq_false, isMark, Bool.or_eq_true, decide_eq_true_eq, decide_eq_true_eq] at hmark
    rcases hmark with rfl | rfl <;> exact absurd hd (by decide)

/-! ## Reading digits -/

theorem digit?_eq_some_of_isFiller (h : isFiller c = true) (hc : c ≠ '_') :
    ∃ d, digit? c = some d := by
  have hd : c.isDigit = true := by simpa [isFiller, hc] using h
  exact ⟨_, if_pos hd⟩

theorem digits?_of_isFiller (h : ∀ c ∈ cs, isFiller c = true) (n s : Nat) :
    ∃ r, digits? true true n s cs = some r := by
  induction cs generalizing n s with
  | nil => exact ⟨_, rfl⟩
  | cons c cs ih =>
    obtain ⟨hc, hcs⟩ := List.forall_mem_cons.mp h
    have hpoint : c ≠ '.' := by
      rintro rfl
      exact absurd hc (by decide)
    rw [digits?, if_neg hpoint]
    by_cases hu : c = '_'
    · rw [if_pos hu]
      exact ih hcs _ _
    · obtain ⟨d, hd⟩ := digit?_eq_some_of_isFiller hc hu
      rw [if_neg hu, hd]
      exact ih hcs _ _

theorem isFiller_of_roundByRest {r : Nat × Nat} (h : roundByRest n s cs = some r) :
    ∀ c ∈ cs, isFiller c = true := by
  unfold roundByRest at h
  split at h
  · rename_i hall
    exact List.all_eq_true.mp hall
  · cases h

/-- What is read as a decimal is a numeral, whatever number it is. -/
theorem digits?_of_scan {r : Nat × Nat} (h : scan point started n s cs = some r)
    (hs : started = false → s = 0) (n' s' : Nat) :
    ∃ r', digits? point started n' s' cs = some r' := by
  induction cs generalizing point started n s n' s' with
  | nil =>
    cases started with
    | true => exact ⟨_, rfl⟩
    | false => cases h
  | cons c cs ih =>
    rw [scan] at h
    split at h
    · rename_i hfull
      obtain ⟨rfl, hmax⟩ := (Bool.and_eq_true _ _).mp hfull
      have hstarted : started = true := by
        by_contra hne
        rw [hs (Bool.eq_false_of_not_eq_true hne)] at hmax
        exact absurd hmax (by decide)
      rw [hstarted]
      exact digits?_of_isFiller (isFiller_of_roundByRest h) n' s'
    · rw [digits?]
      split at h
      · rename_i hc
        rw [if_pos hc]
        cases point with
        | true => cases h
        | false => exact ih h hs n' s'
      · rename_i hpoint
        rw [if_neg hpoint]
        split at h
        · rename_i hc
          rw [if_pos hc]
          cases started with
          | true => exact ih h (by simp) n' s'
          | false => cases h
        · rename_i hunderscore
          rw [if_neg hunderscore]
          cases hd : digit? c with
          | none =>
            rw [hd] at h
            cases h
          | some d =>
            rw [hd] at h
            dsimp only at h ⊢
            split at h
            · exact ih h (by simp) _ _
            · split at h
              · rename_i hrest
                obtain ⟨rfl, hall⟩ := (Bool.and_eq_true _ _).mp hrest
                exact digits?_of_isFiller (List.all_eq_true.mp hall) _ _
              · cases h

theorem roundByRest_underscores (h : ∀ c ∈ cs, c = '_') : roundByRest n s cs = some (n, s) := by
  have hall : cs.all isFiller = true :=
    List.all_eq_true.mpr fun c hc => by rw [h c hc]; rfl
  have hhead : (cs.head?.bind digit?).getD 0 = 0 := by
    cases cs with
    | nil => rfl
    | cons c cs =>
      rw [h c List.mem_cons_self]
      rfl
  have hfind : cs.find? (fun c => decide (c ≠ '_')) = none := by
    rw [List.find?_eq_none]
    intro c hc
    simp [h c hc]
  rw [roundByRest, if_pos hall]
  dsimp only
  split
  · rw [hhead]
    rfl
  · rw [hfind]
    rfl

/-- Digits that fit are read as they are. -/
theorem scan_of_digits? (h : digits? point started n s cs = some (m, p)) (hm : m < pow2 96)
    (hp : p ≤ 28) : scan point started n s cs = some (m, p) := by
  induction cs generalizing point started n s with
  | nil => exact h
  | cons c cs ih =>
    rw [scan]
    by_cases hfull : (point && decide (s = maxScale)) = true
    · obtain ⟨rfl, hmax⟩ := (Bool.and_eq_true _ _).mp hfull
      rw [if_pos hfull]
      obtain ⟨rfl, rfl, hall⟩ := underscores_of_digits? h (hp.trans (of_decide_eq_true hmax).ge)
      exact roundByRest_underscores hall
    · rw [if_neg hfull]
      rcases digits?_cons h with ⟨hc, rfl, h'⟩ | ⟨hc, rfl, h'⟩ | ⟨d, hd, hpoint, hunderscore, h'⟩
      · rw [if_pos hc]
        exact ih h'
      · subst hc
        rw [if_neg (by decide), if_pos rfl]
        exact ih h'
      · have hlt : 10 * n + d < coefficientBound := lt_of_le_of_lt (le_of_digits? h').1 hm
        rw [if_neg hpoint, if_neg hunderscore]
        simp only [hd]
        rw [if_pos hlt]
        exact ih h'

/-- A run of digits is read as the number it spells. -/
theorem digits?_append (h : ∀ c ∈ cs, c.isDigit = true) (rest : List Char) :
    digits? point started n s (cs ++ rest) =
      digits? point (started || !cs.isEmpty) (Nat.ofDigitChars 10 cs n)
        (if point then s + cs.length else s) rest := by
  induction cs generalizing started n s with
  | nil => cases point <;> simp
  | cons c cs ih =>
    obtain ⟨hc, hcs⟩ := List.forall_mem_cons.mp h
    have hpoint : c ≠ '.' := ne_of_isDigit hc rfl
    have hunderscore : c ≠ '_' := ne_of_isDigit hc rfl
    have hd : digit? c = some (c.toNat - '0'.toNat) := if_pos hc
    rw [List.cons_append, digits?, if_neg hpoint, if_neg hunderscore, hd]
    dsimp only
    rw [ih hcs, Nat.ofDigitChars_cons]
    cases point with
    | true => simp [Nat.add_comm, Nat.add_left_comm]
    | false => simp

/-- What digits with a point among them denote. -/
theorem digits?_fraction {whole fraction : List Char} (hwhole : ∀ c ∈ whole, c.isDigit = true)
    (hfraction : ∀ c ∈ fraction, c.isDigit = true) (hne : whole ≠ []) :
    digits? false false 0 0 (whole ++ '.' :: fraction) =
      some (Nat.ofDigitChars 10 (whole ++ fraction) 0, fraction.length) := by
  have hstarted := List.isEmpty_eq_false_iff.mpr hne
  rw [digits?_append hwhole, hstarted, digits?, if_pos rfl, if_neg (by decide),
    ← List.append_nil fraction, digits?_append hfraction, ← Nat.ofDigitChars_append]
  simp [digits?]

end Digits

/-! ## Numerals -/

variable {cs : List Char} {l : Literal} {x y d : Decimal} {n p k : Nat}

/-- What is true of the signs and of what follows them is true throughout. -/
theorem forall_of_splitSign {P : Char → Prop} (h : ∀ c ∈ (splitSign cs).2, P c) (hminus : P '-')
    (hplus : P '+') : ∀ c ∈ cs, P c := by
  unfold splitSign at h
  split at h
  · exact List.forall_mem_cons.mpr ⟨hminus, h⟩
  · exact List.forall_mem_cons.mpr ⟨hplus, h⟩
  · exact h

theorem not_isMark_of_splitSign {r : Nat × Nat}
    (h : digits? false false 0 0 (splitSign cs).2 = some r) : ∀ c ∈ cs, (!isMark c) = true := by
  have hdigits : ∀ c ∈ (splitSign cs).2, (!isMark c) = true := fun c hc => by
    rw [not_isMark_of_digits? h c hc]
    rfl
  exact forall_of_splitSign hdigits rfl rfl

theorem plain?_eq : plain? cs = signed? (splitSign cs).1 (scan false false 0 0 (splitSign cs).2) :=
  rfl

theorem exists_mk? (b : Bool) (hn : n < pow2 96) (hp : p ≤ 28) : ∃ d, mk? b n p = some d :=
  ⟨_, dif_pos ⟨hn, hp⟩⟩

/-- A numeral without an exponent is read as what is scanned of it. -/
theorem ofChars?_of_scan (h : scan false false 0 0 (splitSign cs).2 = some (n, p))
    (hd : mk? ((splitSign cs).1 && n != 0) n p = some d) : ofChars? cs = some d := by
  rw [ofChars?, plain?_eq, h, signed?, hd]
  rfl

theorem digits?_of_plain? (h : plain? cs = some d) :
    ∃ r, digits? false false 0 0 (splitSign cs).2 = some r := by
  rw [plain?_eq] at h
  cases hscan : scan false false 0 0 (splitSign cs).2 with
  | none => simp [hscan, signed?] at h
  | some r => exact digits?_of_scan hscan (fun _ => rfl) 0 0

/-- A numeral without an exponent is its own base. -/
theorem literal?_of_digits? (h : digits? false false 0 0 (splitSign cs).2 = some (n, p)) :
    literal? cs = some ⟨(splitSign cs).1, n, p, 0⟩ := by
  have hmark := not_isMark_of_splitSign h
  have htake : (cs.takeWhile fun c => !isMark c) = cs := List.takeWhile_eq_self_iff.mpr hmark
  have hdrop : (cs.dropWhile fun c => !isMark c) = [] := List.dropWhile_eq_nil_iff.mpr hmark
  simp [literal?, htake, hdrop, h]

theorem exponent?_of_shift? {ds : List Char} (h : x.shift? ds = some d) :
    (∃ k : Nat, exponent? ds = some (-(k : Int)) ∧ x.shiftDown? k = some d) ∨
      ∃ k : Nat, exponent? ds = some (k : Int) ∧ x.shiftUp? k = some d := by
  unfold shift? at h
  split at h
  · simp only [Option.bind_eq_bind, Option.bind_eq_some_iff] at h
    obtain ⟨k, hk, hd⟩ := h
    exact .inl ⟨k, by simp [exponent?, hk], hd⟩
  · rename_i hminus
    simp only [Option.bind_eq_bind, Option.bind_eq_some_iff] at h
    obtain ⟨k, hk, hd⟩ := h
    refine .inr ⟨k, ?_, hd⟩
    unfold exponent?
    split
    · exact absurd rfl (hminus _)
    · simp [hk]

/-- The two ways to read a numeral: as digits, or as digits whose point an exponent moves. -/
theorem ofChars?_cases (h : ofChars? cs = some d) :
    (plain? cs = some d ∧ ∃ n p, digits? false false 0 0 (splitSign cs).2 = some (n, p) ∧
      literal? cs = some ⟨(splitSign cs).1, n, p, 0⟩) ∨
    ∃ base x n p e, plain? base = some x ∧
      digits? false false 0 0 (splitSign base).2 = some (n, p) ∧
      literal? cs = some ⟨(splitSign base).1, n, p, e⟩ ∧
      ((∃ k : Nat, e = -(k : Int) ∧ x.shiftDown? k = some d) ∨
        ∃ k : Nat, e = k ∧ x.shiftUp? k = some d) := by
  rw [ofChars?, Option.orElse_eq_orElse, Option.orElse_eq_or, Option.or_eq_some_iff] at h
  rcases h with hplain | ⟨-, hsci⟩
  · obtain ⟨⟨n, p⟩, hr⟩ := digits?_of_plain? hplain
    exact .inl ⟨hplain, n, p, hr, literal?_of_digits? hr⟩
  · unfold scientific? at hsci
    split at hsci
    · cases hsci
    · rename_i c ds hdrop
      simp only [Option.bind_eq_bind, Option.bind_eq_some_iff] at hsci
      obtain ⟨x, hx, hshift⟩ := hsci
      obtain ⟨⟨n, p⟩, hr⟩ := digits?_of_plain? hx
      have hliteral : ∀ e, exponent? ds = some e → literal? cs =
          some ⟨(splitSign (cs.takeWhile fun c => !isMark c)).1, n, p, e⟩ := by
        intro e he
        simp [literal?, hdrop, hr, he]
      rcases exponent?_of_shift? hshift with ⟨k, he, hd⟩ | ⟨k, he, hd⟩
      · exact .inr ⟨_, x, n, p, _, hx, hr, hliteral _ he, .inl ⟨k, rfl, hd⟩⟩
      · exact .inr ⟨_, x, n, p, _, hx, hr, hliteral _ he, .inr ⟨k, rfl, hd⟩⟩

/-- A numeral without an exponent is read as digits. -/
theorem plain?_of_digits? {r : Nat × Nat} (h : ofChars? cs = some d)
    (hr : digits? false false 0 0 (splitSign cs).2 = some r) : plain? cs = some d := by
  have hdrop : (cs.dropWhile fun c => !isMark c) = [] :=
    List.dropWhile_eq_nil_iff.mpr (not_isMark_of_splitSign hr)
  rw [ofChars?, Option.orElse_eq_orElse, Option.orElse_eq_or, Option.or_eq_some_iff] at h
  rcases h with hplain | ⟨-, hsci⟩
  · exact hplain
  · rw [scientific?, hdrop] at hsci
    cases hsci

theorem parts_of_plain? (h : plain? cs = some d)
    (hr : digits? false false 0 0 (splitSign cs).2 = some (n, p)) (hn : n < pow2 96)
    (hp : p ≤ 28) :
    d.negative = ((splitSign cs).1 && n != 0) ∧ d.coefficient = n ∧ d.scale = p := by
  rw [plain?_eq, scan_of_digits? hr hn hp] at h
  exact mk?_eq_some_iff.mp h

/-- What is read as a decimal is a numeral. -/
theorem exists_literal (h : ofChars? cs = some d) : ∃ l, literal? cs = some l := by
  rcases ofChars?_cases h with ⟨-, n, p, -, hl⟩ | ⟨base, x, n, p, e, -, -, hl, -⟩
  · exact ⟨_, hl⟩
  · exact ⟨_, hl⟩

/-! ## Exact reading -/

theorem toRat_eq (x : Decimal) :
    x.toRat = (if x.negative then -1 else 1) * (x.coefficient / 10 ^ x.scale) := by
  rw [toRat, mantissa]
  cases x.negative <;> simp [neg_div]

theorem toRat_of_signed? {negative : Bool} (h : signed? negative (some (n, p)) = some d) :
    d.toRat = (if negative then -1 else 1) * (n / 10 ^ p) := by
  obtain ⟨hneg, hcoeff, hscale⟩ := mk?_eq_some_iff.mp h
  rw [toRat_eq, hneg, hcoeff, hscale]
  by_cases hzero : n = 0
  · simp [hzero]
  · simp [hzero]

theorem toRat_of_plain? (h : plain? cs = some d)
    (hr : digits? false false 0 0 (splitSign cs).2 = some (n, p)) (hn : n < pow2 96)
    (hp : p ≤ 28) :
    d.scale = p ∧ d.toRat = (if (splitSign cs).1 then -1 else 1) * (n / 10 ^ p) := by
  refine ⟨(parts_of_plain? h hr hn hp).2.2, toRat_of_signed? ?_⟩
  rwa [plain?_eq, scan_of_digits? hr hn hp] at h

/-- Moving the point to the left is exact if no place is lost. -/
theorem toRat_shiftDown? (h : x.shiftDown? k = some y) (hk : x.scale + k ≤ 28) :
    y.toRat = x.toRat / 10 ^ k := by
  have hmax : ¬ maxScale < k := by
    rw [maxScale]
    omega
  have hrounded : x.rounded (maxScale - k) = (x.coefficient, x.scale) := by
    rw [rounded, if_pos]
    rw [maxScale]
    omega
  rw [shiftDown?, if_neg hmax, hrounded] at h
  obtain ⟨hneg, hcoeff, hscale⟩ := mk?_eq_some_iff.mp h
  rw [toRat_eq, toRat_eq, hneg, hcoeff, hscale, pow_add, mul_div_assoc, div_div]

/-- Moving the point to the right is exact. -/
theorem toRat_shiftUp? (h : x.shiftUp? k = some y) : y.toRat = x.toRat * 10 ^ k := by
  have hten : (10 : ℚ) ≠ 0 := by norm_num
  unfold shiftUp? at h
  split at h
  · rename_i hk
    obtain ⟨hneg, hcoeff, hscale⟩ := mk?_eq_some_iff.mp h
    obtain ⟨j, hj⟩ := Nat.exists_eq_add_of_le hk
    rw [hj, Nat.add_sub_cancel_left] at hscale
    rw [toRat_eq, toRat_eq, hneg, hcoeff, hscale, hj, pow_add]
    field_simp
  · rename_i hk
    split at h
    · cases h
    · obtain ⟨hneg, hcoeff, hscale⟩ := mk?_eq_some_iff.mp h
      obtain ⟨j, hj⟩ := Nat.exists_eq_add_of_le (Nat.le_of_not_le hk)
      rw [hj, Nat.add_sub_cancel_left, pow10_eq] at hcoeff
      rw [toRat_eq, toRat_eq, hneg, hcoeff, hscale, hj, pow_add]
      push_cast
      field_simp

/-- A decimal is what its numeral says where the digits and places fit. -/
theorem toRat_of_fits (h : ofChars? cs = some d) (hl : literal? cs = some l)
    (hf : l.FitsDecimal) : d.toRat = l.value := by
  have hten : (10 : ℚ) ≠ 0 := by norm_num
  rcases ofChars?_cases h with ⟨hplain, n, p, hr, hl'⟩ | ⟨base, x, n, p, e, hx, hr, hl', hshift⟩
  · obtain rfl := Option.some.inj (hl.symm.trans hl')
    rw [(toRat_of_plain? hplain hr hf.digits_lt hf.places_le).2, Literal.value]
    simp
  · obtain rfl := Option.some.inj (hl.symm.trans hl')
    obtain ⟨hscale, hvalue⟩ := toRat_of_plain? hx hr hf.digits_lt hf.places_le
    rcases hshift with ⟨k, rfl, hd⟩ | ⟨k, rfl, hd⟩
    · have hk : x.scale + k ≤ 28 := by
        have hshifted := hf.shifted_le
        dsimp only at hshifted
        omega
      rw [toRat_shiftDown? hd hk, hvalue, Literal.value, zpow_neg, zpow_natCast, div_eq_mul_inv]
    · rw [toRat_shiftUp? hd, hvalue, Literal.value, zpow_natCast]

end Decimal
end Isnad
