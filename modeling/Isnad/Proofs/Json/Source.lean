import Isnad.Json.Reader
import Isnad.Proofs.Binary64.Printer
import Isnad.Proofs.Binary64.Reader
import Isnad.Proofs.Json.Record

/-!
# What a text says where a decimal is read

A text says a number by a numeral, on its own or in a string. Reading goes through a binary64 number
in the first case and through a decimal of 28 places in the second, and both round. A numeral that
is short, or one in a string whose digits fit a decimal, is read as what it says
(`exists_literal_of_decimal`).
-/

namespace Isnad

/-- At most fifteen digits, none of them far behind the point. -/
structure Literal.IsShort (l : Literal) : Prop where
  digits_lt : l.digits < 10 ^ 15
  exponent_le : l.exponent ≤ l.places
  places_le : l.places - l.exponent ≤ 22

instance (l : Literal) : Decidable l.IsShort :=
  decidable_of_iff (l.digits < 10 ^ 15 ∧ l.exponent ≤ l.places ∧ l.places - l.exponent ≤ 22)
    ⟨fun ⟨hd, he, hp⟩ => ⟨hd, he, hp⟩, fun ⟨hd, he, hp⟩ => ⟨hd, he, hp⟩⟩

end Isnad

namespace Isnad.Json

open Reader Text

variable {x : Source Numeral} {n : Numeral} {r : Decimal}

/-! ## Numerals in documents -/

/-- The numeral by the number that its digits make. -/
def Reader.Numeral.literal (n : Numeral) : Literal where
  negative := n.negative
  digits := ofDigits 10 (n.whole ++ n.fraction.getD [])
  places := (n.fraction.getD []).length
  exponent := n.exponent.getD 0

/-- The numeral of a number, or in a string. -/
def Source.literal? : Source Numeral → Option Literal
  | .num n => some n.literal
  | .str s => Decimal.literal? s.toList
  | _ => none

/-- No digit of the numeral is lost where it is read as a decimal. -/
def Source.IsExact : Source Numeral → Prop
  | .num n => n.literal.IsShort
  | .str s => ∀ l ∈ Decimal.literal? s.toList, l.FitsDecimal
  | _ => True

instance : DecidablePred Source.IsExact
  | .num n => inferInstanceAs (Decidable n.literal.IsShort)
  | .str s => inferInstanceAs (Decidable (∀ l ∈ Decimal.literal? s.toList, l.FitsDecimal))
  | .null | .bool _ | .arr _ | .obj _ | .void => .isTrue trivial

theorem Reader.Numeral.number?_cases {y : Number} (h : n.number? = some y) :
    (∃ k : Int, y = .int k ∧ k = n.literal.value) ∨
      ∃ z, y = .float z ∧ Binary64.ofNumeral? n.negative n.whole (n.fraction.getD [])
        (n.exponent.getD 0) = some z := by
  rw [number?] at h
  generalize hk : (if n.negative = true then -(ofDigits 10 n.whole : Int)
    else ofDigits 10 n.whole) = k at h
  split at h
  · rename_i hint
    simp only [Bool.and_eq_true, Option.isNone_iff_eq_none] at hint
    obtain ⟨⟨⟨hfraction, hexponent⟩, -⟩, -⟩ := hint
    obtain rfl := Option.some.inj h
    refine .inl ⟨k, rfl, ?_⟩
    rw [← hk, Literal.value, literal, hfraction, hexponent]
    cases n.negative <;> simp
  · obtain ⟨z, hz, rfl⟩ := Option.map_eq_some_iff.mp h
    exact .inr ⟨z, rfl, hz⟩

theorem toRat_ofInt? {k : Int} (h : Decimal.ofInt? k = some r) : r.toRat = k := by
  obtain ⟨hneg, hcoeff, hscale⟩ := Decimal.mk?_eq_some_iff.mp h
  rw [Decimal.toRat, Decimal.mantissa, hneg, hcoeff, hscale]
  rcases lt_or_ge k 0 with hk | hk
  · rw [if_pos (decide_eq_true hk), Int.ofNat_natAbs_of_nonpos hk.le]
    simp
  · rw [if_neg (by simpa using hk), Int.natAbs_of_nonneg hk]
    simp

/-- A short numeral is read back from the plain digits of the number that it was rounded to. -/
theorem toRat_of_ofNumeral? {z : Binary64} (hn : n.literal.IsShort)
    (hz : Binary64.ofNumeral? n.negative n.whole (n.fraction.getD []) (n.exponent.getD 0) = some z)
    (hr : Decimal.ofChars? (z.toChars Binary64.plainLayout) = some r) :
    r.toRat = n.literal.value := by
  obtain ⟨hdigits, hexponent, hplaces⟩ := hn
  obtain ⟨j, hj⟩ := Int.eq_ofNat_of_zero_le (sub_nonneg.mpr hexponent)
  have hj' : j ≤ 22 := by omega
  obtain ⟨hneg, hround⟩ := Binary64.rounds_of_ofNumeral? hz hdigits hj hj'
  rw [Binary64.toRat_of_plain hround hdigits hj' hr, hneg, Literal.value, ← hj, neg_sub,
    zpow_sub₀ (by norm_num), zpow_natCast]
  rw [Numeral.literal]
  ring

theorem decimal_str_eq_ok_iff {s : String} :
    Decoder.decimal (.str s) = .ok r ↔ Decimal.ofChars? s.toList = some r := by
  simp only [Decoder.decimal, Decimal.ofString?]
  cases Decimal.ofChars? s.toList <;> simp

/-- Where a decimal is read, a numeral is written, and what it says is read if it is exact. -/
theorem exists_literal_of_decimal (h : Decoder.decimal (numbers x) = .ok r) :
    ∃ l, x.literal? = some l ∧ (x.IsExact → r.toRat = l.value) := by
  cases x with
  | num n =>
    refine ⟨n.literal, rfl, fun hexact => ?_⟩
    rw [numbers] at h
    cases hn : n.number? with
    | none =>
      rw [hn] at h
      cases h
    | some y =>
      rw [hn] at h
      rcases n.number?_cases hn with ⟨k, rfl, hk⟩ | ⟨z, rfl, hz⟩
      · rw [toRat_ofInt? (found_eq_ok_iff.mp h), hk]
      · exact toRat_of_ofNumeral? hexact hz (found_eq_ok_iff.mp h)
  | str s =>
    have hs := decimal_str_eq_ok_iff.mp h
    obtain ⟨l, hl⟩ := Decimal.exists_literal hs
    exact ⟨l, hl, fun hexact => Decimal.toRat_of_fits hs hl (hexact l hl)⟩
  | _ => cases h

/-! ## Fields of records -/

theorem memberNumbers_eq_map (members : List (String × Source Numeral)) :
    memberNumbers members = members.map (Prod.map id numbers) := by
  induction members with
  | nil => rfl
  | cons m ms ih => rw [memberNumbers, ih, List.map_cons, Prod.map, id]

theorem itemNumbers_eq_map (items : List (Source Numeral)) :
    itemNumbers items = items.map numbers := by
  induction items with
  | nil => rfl
  | cons x xs ih => rw [itemNumbers, ih, List.map_cons]

/-- The fields of a record are those of its text, with their numerals read. -/
theorem Layout.read_numbers {l : Layout} {f : Fields Number} (h : l.read (numbers x) = .ok f) :
    ∃ g, l.read x = .ok g ∧ f.entries = memberNumbers g.entries := by
  cases x with
  | obj members =>
    rw [numbers, memberNumbers_eq_map] at h
    simp only [read, ofMembers, List.countP_map, List.filter_map] at h ⊢
    split at h
    · cases h
    · rename_i hnames
      cases h
      refine ⟨_, if_neg hnames, ?_⟩
      rw [memberNumbers_eq_map]
      rfl
  | arr items =>
    rw [numbers, itemNumbers_eq_map] at h
    simp only [read, ofItems, List.length_map] at h ⊢
    split at h
    · cases h
    · rename_i hsurplus
      split at h
      · cases h
      · rename_i hrequired
        cases h
        refine ⟨_, (if_neg hsurplus).trans (if_neg hrequired), ?_⟩
        rw [memberNumbers_eq_map, List.zip_map_right]
  | num n =>
    rw [numbers] at h
    cases hn : n.number? <;> simp [hn, read] at h
  | _ => cases h

end Isnad.Json
