import Isnad.Proofs.Binary64.Document
import Isnad.Proofs.Document.Record
import Isnad.Proofs.Json.Source
import Isnad.Proofs.Text.Blank

/-!
# Decimals that are read twice

A decimal of a document is read once where it is checked and once where it is decoded. A whole
number is read as one and the same, and so is a string, since a numeral has no blanks that could be
trimmed. Another number is read through its text and through its plain digits, which say the same
unless it is tied (`toRat_decode_iff`).
-/

namespace Isnad

open Text

namespace Text

variable {cs : List Char}

theorem trimStart_eq_self (h : ∀ c ∈ cs, isBlank c = false) : trimStart cs = cs := by
  cases cs with
  | nil => rfl
  | cons c cs => simp [trimStart, h c]

theorem trim_eq_self (h : ∀ c ∈ cs, isBlank c = false) : trim cs = cs := by
  rw [trim, trimStart_eq_self h, trimStart_eq_self fun c hc => h c (List.mem_reverse.mp hc),
    List.reverse_reverse]

theorem isBlank_of_isDigit {c : Char} (h : c.isDigit = true) : isBlank c = false :=
  isBlank_of_digit? (if_pos h)

theorem isDigit_of_spanDigits (h : (spanDigits cs).2 = []) : ∀ c ∈ cs, c.isDigit = true := by
  induction cs with
  | nil => simp
  | cons c cs ih =>
    rw [spanDigits] at h
    cases hd : digit? c with
    | none => simp [hd] at h
    | some d =>
      rw [hd] at h
      refine List.forall_mem_cons.mpr ⟨?_, ih h⟩
      by_contra hc
      rw [digit?, if_neg hc] at hd
      cases hd

theorem not_isBlank_of_naturalBelow? {bound n : Nat} (h : naturalBelow? bound cs = some n) :
    ∀ c ∈ cs, isBlank c = false := by
  have hdigits : ∀ {body : List Char}, (spanDigits body).2 = [] →
      ∀ c ∈ body, isBlank c = false :=
    fun hspan c hc => isBlank_of_isDigit (isDigit_of_spanDigits hspan c hc)
  unfold naturalBelow? at h
  dsimp only at h
  split at h
  · rename_i hspan
    split at hspan
    · exact List.forall_mem_cons.mpr ⟨rfl, hdigits (by rw [hspan])⟩
    · exact hdigits (by rw [hspan])
  · cases h

/-- A text with no blank at either end is not trimmed. -/
theorem trim_eq_self_of_ends
    (h : ∀ c, cs.head? = some c ∨ cs.getLast? = some c → isBlank c = false) : trim cs = cs := by
  have hstart : ∀ {ds : List Char}, (∀ c, ds.head? = some c → isBlank c = false) →
      trimStart ds = ds := by
    intro ds hds
    cases ds with
    | nil => rfl
    | cons c ds => exact trimStart_cons (hds c rfl) ds
  rw [trim, hstart fun c hc => h c (.inl hc), hstart fun c hc => h c (.inr ?_),
    List.reverse_reverse]
  rwa [List.head?_reverse] at hc

end Text

namespace Decimal

variable {cs : List Char} {d : Decimal}

theorem not_isBlank_of_exponent? {e : Int} (h : exponent? cs = some e) :
    ∀ c ∈ cs, isBlank c = false := by
  unfold exponent? at h
  split at h
  · obtain ⟨k, hk, -⟩ := Option.map_eq_some_iff.mp h
    obtain ⟨n, hn, -⟩ := Option.bind_eq_some_iff.mp hk
    exact List.forall_mem_cons.mpr ⟨rfl, not_isBlank_of_naturalBelow? hn⟩
  · obtain ⟨k, hk, -⟩ := Option.map_eq_some_iff.mp h
    obtain ⟨n, hn, -⟩ := Option.bind_eq_some_iff.mp hk
    exact not_isBlank_of_naturalBelow? hn

theorem not_isBlank_of_digits? {r : Nat × Nat} (h : digits? false false 0 0 cs = some r) :
    ∀ c ∈ cs, isBlank c = false := by
  intro c hc
  rcases mem_of_digits? h c hc with rfl | rfl | hd
  · rfl
  · rfl
  · exact isBlank_of_isDigit hd

/-- A numeral has no blanks. -/
theorem not_isBlank_of_literal? {l : Literal} (h : literal? cs = some l) :
    ∀ c ∈ cs, isBlank c = false := by
  simp only [literal?, Option.bind_eq_bind, Option.bind_eq_some_iff] at h
  obtain ⟨r, hr, h⟩ := h
  have hbase : ∀ c ∈ cs.takeWhile fun c => !isMark c, isBlank c = false :=
    forall_of_splitSign (not_isBlank_of_digits? hr) rfl rfl
  rw [← List.takeWhile_append_dropWhile (p := fun c => !isMark c) (l := cs), List.forall_mem_append]
  refine ⟨hbase, ?_⟩
  cases hdrop : cs.dropWhile fun c => !isMark c with
  | nil => simp
  | cons mark ds =>
    rw [hdrop] at h
    obtain ⟨e, he, -⟩ := Option.bind_eq_some_iff.mp h
    refine List.forall_mem_cons.mpr ⟨?_, not_isBlank_of_exponent? he⟩
    have hmark : isMark mark = true := by
      have hhead := List.head?_dropWhile_not (fun c => !isMark c) cs
      simpa [hdrop] using hhead
    rw [isMark, Bool.or_eq_true, decide_eq_true_eq, decide_eq_true_eq] at hmark
    rcases hmark with rfl | rfl <;> rfl

/-- Where a numeral is read, no blanks around it are removed. -/
theorem ofChars?_trim (h : ofChars? cs = some d) : ofChars? (trim cs) = some d := by
  obtain ⟨l, hl⟩ := exists_literal h
  rwa [trim_eq_self (not_isBlank_of_literal? hl)]

end Decimal

namespace Json

/-- A number halfway between two decimals of the fewest digits. -/
def IsTied : Json → Prop
  | .num (.float x) => x.IsTied
  | _ => False

instance : DecidablePred IsTied
  | .num (.float x) => inferInstanceAs (Decidable x.IsTied)
  | .num (.int _) | .null | .bool _ | .str _ | .arr _ | .obj _ => .isFalse id

/-- A string with a blank at an end. -/
inductive IsPadded : Json → Prop where
  | intro {s : String} {c : Char} (h : s.toList.head? = some c ∨ s.toList.getLast? = some c)
      (hc : isBlank c = true) : IsPadded (.str s)

end Json

namespace Document

open Json

variable {x : Json} {v d : Decimal}

theorem splitSign_int (k : Int) :
    Decimal.splitSign (Number.int k).toChars = (decide (k < 0), decimal k.natAbs) ∧
      Decimal.digits? false false 0 0 (decimal k.natAbs) = some (k.natAbs, 0) := by
  have hread : Decimal.digits? false false 0 0 (decimal k.natAbs) = some (k.natAbs, 0) := by
    simpa [Decimal.digits?] using Binary64.digits?_decimal k.natAbs 0 []
  have htext : (Number.int k).toChars =
      (if decide (k < 0) then ['-'] else []) ++ decimal k.natAbs := by
    simp [Number.toChars]
  exact ⟨htext ▸ Binary64.splitSign_append hread _, hread⟩

/-- What a whole number says. -/
theorem literal?_int (k : Int) :
    Decimal.literal? (Number.int k).toChars = some ⟨k < 0, k.natAbs, 0, 0⟩ := by
  obtain ⟨hsign, hread⟩ := splitSign_int k
  rw [Decimal.literal?_of_digits? (by rwa [hsign]), hsign]

theorem toRat_of_int {k : Int} (hv : Decimal.ofChars? (Number.int k).toChars = some v)
    (hd : Decimal.ofInt? k = some d) : d.toRat = v.toRat := by
  have hk : k.natAbs < pow2 96 := by
    obtain ⟨-, hcoeff, -⟩ := Decimal.mk?_eq_some_iff.mp hd
    exact hcoeff ▸ d.coefficient_lt
  rw [Decimal.toRat_of_fits hv (literal?_int k) ⟨hk, Nat.zero_le _, by dsimp only; omega⟩,
    toRat_ofInt? hd, Literal.value, Nat.cast_natAbs]
  rcases lt_or_ge k 0 with hneg | hnonneg
  · simp [hneg, abs_of_neg hneg]
  · simp [not_lt.mpr hnonneg, abs_of_nonneg hnonneg]

/-- A decimal of the unit interval is one where it is decoded, and the same one unless its number is
tied. -/
theorem toRat_decode_iff (hv : decimal? x = some v) (hunit : v.inUnitInterval = true)
    (hd : decode Decoder.decimal x = .ok d) :
    d.inUnitInterval = true ∧ (d.toRat = v.toRat ↔ ¬ x.IsTied) := by
  rw [Decimal.inUnitInterval_iff_toRat] at hunit ⊢
  have hsame : d.toRat = v.toRat → ¬ x.IsTied →
      (0 ≤ d.toRat ∧ d.toRat ≤ 1) ∧ (d.toRat = v.toRat ↔ ¬ x.IsTied) :=
    fun heq htied => ⟨by rwa [heq], iff_of_true heq htied⟩
  cases x with
  | num n =>
    cases n with
    | int k => exact hsame (toRat_of_int hv (found_eq_ok_iff.mp hd)) id
    | float y => exact Binary64.toRat_eq_iff hv (found_eq_ok_iff.mp hd) hunit.1 hunit.2
  | str s =>
    have htrim := Decimal.ofChars?_trim (decimal_str_eq_ok_iff.mp hd)
    exact hsame (congrArg Decimal.toRat (Option.some.inj (htrim.symm.trans hv))) id
  | _ => cases hv

/-- The digits of a whole number that is read fit a decimal. -/
theorem natAbs_lt_of_int {k : Int} (hv : Decimal.ofChars? (Number.int k).toChars = some v) :
    k.natAbs < pow2 96 := by
  obtain ⟨hsign, hdigits⟩ := splitSign_int k
  have hplain := Decimal.plain?_of_digits? hv (by rw [hsign]; exact hdigits)
  rw [Decimal.plain?_eq, hsign] at hplain
  cases hscan : Decimal.scan false false 0 0 (decimal k.natAbs) with
  | none => simp [hscan, Decimal.signed?] at hplain
  | some r =>
    have hlt := Decimal.lt_of_scan (fun c hc => isDigit_of_mem_decimal hc) (by decide) hscan
    rwa [decimal, Nat.ofDigitChars_ten_toDigits] at hlt

/-- A decimal of the unit interval can be decoded where it was checked, but for blanks at the ends
of a string. -/
theorem decodes_decimal_iff (h : IsUnit x) : Decodes .decimal x ↔ ¬ x.IsPadded := by
  obtain ⟨v, hv, hnonneg, hle⟩ := h
  cases hv with
  | @number n hv =>
    refine iff_of_true ?_ nofun
    cases n with
    | int k =>
      obtain ⟨d, hd⟩ := Decimal.exists_mk? (k < 0) (natAbs_lt_of_int hv) (Nat.zero_le 28)
      exact ⟨d, found_eq_ok_iff.mpr hd⟩
    | float y =>
      obtain ⟨d, hd⟩ :=
        Binary64.exists_of_plainLayout (Binary64.fits_of_documentLayout hv hnonneg hle)
      exact ⟨d, found_eq_ok_iff.mpr hd⟩
  | @string s hv =>
    constructor
    · rintro ⟨d, hd⟩ ⟨hend, hc⟩
      obtain ⟨l, hl⟩ := Decimal.exists_literal (decimal_str_eq_ok_iff.mp hd)
      have hblank := Decimal.not_isBlank_of_literal? hl
      have hmem := hend.elim List.mem_of_head? List.mem_of_getLast?
      rw [hblank _ hmem] at hc
      cases hc
    · intro hpad
      have htrim : trim s.toList = s.toList := by
        refine trim_eq_self_of_ends fun c hc => ?_
        rw [← Bool.not_eq_true]
        exact fun hblank => hpad (.intro hc hblank)
      rw [htrim] at hv
      exact ⟨v, decimal_str_eq_ok_iff.mpr hv⟩

/-- Where a decimal of the unit interval may be left out, only a padded string cannot be read. -/
theorem mayHold_decodes_decimal_iff {doc : Members} {name : String}
    (h : MayHold doc name IsUnit) :
    MayHold doc name (Decodes .decimal) ↔ ∀ y, doc.lookup name = some y → ¬ y.IsPadded := by
  constructor
  · intro hread y hy hpad
    have hn : y ≠ .null := by
      rintro rfl
      cases hpad
    exact (decodes_decimal_iff (h y hy hn)).mp (hread y hy hn) hpad
  · exact fun hpad y hy hn => (decodes_decimal_iff (h y hy hn)).mpr (hpad y hy)

end Document
end Isnad
