import Isnad.Proofs.Text.Blank
import Isnad.Proofs.Text.Digits
import Isnad.Timestamp.Printer

/-!
# Times read and written

A text of RFC 3339 names the same time in the lenient form (`ofString?_of_ofRfc3339?`): where the
strict reader goes on, there is no blank for the lenient one to skip and no shorter field to stop
at. A time of the years 0 to 9999 is written as a text of RFC 3339, from which it is read back to
the nanosecond (`ofRfc3339?_toString`).
-/

namespace Isnad.Timestamp

open Text

namespace Reader

variable {cs rest : List Char} {c : Char} {n : Nat} {k : Int}

/-! ## Steps of the two readers -/

theorem number?_mono {least least' most : Nat} {r : Nat × List Char}
    (h : number? least most cs = some r) (hle : least' ≤ least) :
    number? least' most cs = some r := by
  simp only [number?, Option.ite_none_left_eq_some] at h ⊢
  exact ⟨fun hlt => h.1 (Nat.lt_of_lt_of_le hlt hle), h.2⟩

/-- A number starts with a digit. -/
theorem exists_digit_of_number? {least most : Nat} {r : Nat × List Char}
    (h : number? (least + 1) most cs = some r) : ∃ c ds d, cs = c :: ds ∧ digit? c = some d := by
  cases most with
  | zero => simp [number?, spanDigitsUpTo] at h
  | succ most =>
    cases cs with
    | nil => simp [number?, spanDigitsUpTo] at h
    | cons c ds =>
      cases hc : digit? c with
      | none => simp [number?, spanDigitsUpTo, hc] at h
      | some d => exact ⟨c, ds, d, rfl, hc⟩

theorem trimStart_of_number? {least most : Nat} {r : Nat × List Char}
    (h : number? (least + 1) most cs = some r) : trimStart cs = cs := by
  obtain ⟨c, ds, d, rfl, hc⟩ := exists_digit_of_number? h
  exact trimStart_cons (isBlank_of_digit? hc) ds

theorem lenientYear?_of_number? (h : number? 4 4 cs = some (n, rest)) :
    lenientYear? cs = some ((n : Int), rest) := by
  have hread := number?_mono h (show 1 ≤ 4 by decide)
  obtain ⟨c, ds, d, rfl, hc⟩ := exists_digit_of_number? h
  unfold lenientYear?
  split
  · rename_i hs
    rw [trimStart_of_number? h, List.cons.injEq] at hs
    rw [hs.1] at hc
    cases hc
  · rename_i hs
    rw [trimStart_of_number? h, List.cons.injEq] at hs
    rw [hs.1] at hc
    cases hc
  · rw [trimStart_of_number? h, hread]
    rfl

theorem field?_of_number? {r : Nat × List Char} (h : number? 2 2 cs = some r) :
    field? cs = some r := by
  rw [field?, trimStart_of_number? h]
  exact number?_mono h (by decide)

theorem eq_cons_of_char? (h : char? c cs = some rest) : cs = c :: rest := by
  unfold char? at h
  split at h
  · split at h
    · rename_i hc
      rw [hc, Option.some.inj h]
    · cases h
  · cases h

theorem lenientChar?_of_char? (hc : isBlank c = false) (h : char? c cs = some rest) :
    lenientChar? c cs = some rest := by
  obtain rfl := eq_cons_of_char? h
  rwa [lenientChar?, trimStart_cons hc]

/-! ## The offset -/

/-- Between hours and minutes stands one colon, and a digit after it. -/
theorem colons_of_char? {r : Nat × List Char} (h : char? ':' cs = some rest)
    (hr : number? 2 2 rest = some r) : colons cs = rest := by
  obtain rfl := eq_cons_of_char? h
  obtain ⟨c, ds, d, rfl, hc⟩ := exists_digit_of_number? hr
  have hcolon : c ≠ ':' := by
    rintro rfl
    cases hc
  rw [colons, List.dropWhile_cons_of_pos (by decide), List.dropWhile_cons_of_neg]
  simp [hcolon, isBlank_of_digit? hc]

/-- An offset starts with a letter or a sign. -/
theorem head_of_offset? {between : List Char → Option (List Char)} {r : Int × List Char}
    (h : offset? between cs = some r) :
    ∃ c ds, cs = c :: ds ∧ c ∈ ['Z', 'z', '+', '-', '\u2212'] := by
  unfold offset? at h
  split at h
  · exact ⟨_, _, rfl, by simp⟩
  · exact ⟨_, _, rfl, by simp⟩
  · obtain ⟨⟨negative, ds⟩, hsign, -⟩ := Option.bind_eq_some_iff.mp h
    unfold sign? at hsign
    split at hsign
    · refine ⟨_, _, rfl, ?_⟩
      split at hsign
      · simp [*]
      · split at hsign
        · rename_i hminus
          simp only [Bool.or_eq_true, decide_eq_true_eq] at hminus
          simp only [List.mem_cons]
          tauto
        · cases hsign
    · cases hsign

theorem offset?_colons {r : Int × List Char} (h : offset? (char? ':') cs = some r) :
    offset? (fun cs => some (colons cs)) cs = some r := by
  unfold offset? at h ⊢
  split at h
  · exact h
  · exact h
  · simp only [Option.bind_eq_bind, Option.bind_eq_some_iff, Prod.exists] at h ⊢
    obtain ⟨negative, afterSign, hsign, hours, afterHours, hhours, afterColon, hcolon, minutes,
      rest, hminutes, h⟩ := h
    refine ⟨negative, afterSign, hsign, hours, afterHours, hhours, _, rfl, minutes, rest, ?_, h⟩
    rwa [colons_of_char? hcolon hminutes]

theorem lenientOffset?_of_offset? {r : Int × List Char} (h : offset? (char? ':') cs = some r) :
    lenientOffset? (trimStart cs) = some r := by
  obtain ⟨c, ds, rfl, hc⟩ := head_of_offset? h
  have hall : ['Z', 'z', '+', '-', '\u2212'].all (fun c => !isBlank c && c.toUpper != 'U') := by
    decide
  obtain ⟨hblank, hupper⟩ : isBlank c = false ∧ c.toUpper ≠ 'U' := by
    simpa using List.all_eq_true.mp hall c hc
  rw [trimStart_cons hblank]
  unfold lenientOffset?
  split
  · rename_i u _ _ _ hs
    rw [← (List.cons.inj hs).1, if_neg (by simp [hupper])]
    exact offset?_colons h
  · exact offset?_colons h

/-- A step that gives what another one does, and then goes on as that one does. -/
theorem bind_mono {α β : Type} {p q : Option α} {f g : α → Option β} {b : β}
    (h : p >>= f = some b) (hp : ∀ a, p = some a → q = some a)
    (hf : ∀ a, f a = some b → g a = some b) : q >>= g = some b := by
  obtain ⟨a, ha, hb⟩ := Option.bind_eq_some_iff.mp h
  exact Option.bind_eq_some_iff.mpr ⟨a, hp a ha, hf a hb⟩

/-- The lenient reader takes the steps of the strict one. -/
theorem lenient?_of_strict? {t : Timestamp} (h : strict? cs = some t) : lenient? cs = some t := by
  unfold strict? at h
  unfold lenient?
  obtain ⟨⟨year, _⟩, hyear, h⟩ := Option.bind_eq_some_iff.mp h
  refine Option.bind_eq_some_iff.mpr ⟨_, lenientYear?_of_number? hyear, ?_⟩
  refine bind_mono h (fun _ => lenientChar?_of_char? (by decide)) fun _ h => ?_
  refine bind_mono h (fun _ => field?_of_number?) fun ⟨month, _⟩ h => ?_
  refine bind_mono h (fun _ => lenientChar?_of_char? (by decide)) fun _ h => ?_
  refine bind_mono h (fun _ => field?_of_number?) fun ⟨day, _⟩ h => ?_
  refine bind_mono h (fun _ hsep => hsep) fun _ h => ?_
  refine bind_mono h (fun _ => field?_of_number?) fun ⟨hour, _⟩ h => ?_
  refine bind_mono h (fun _ => lenientChar?_of_char? (by decide)) fun _ h => ?_
  refine bind_mono h (fun _ => field?_of_number?) fun ⟨minute, _⟩ h => ?_
  refine bind_mono h (fun _ => lenientChar?_of_char? (by decide)) fun _ h => ?_
  refine bind_mono h (fun _ => field?_of_number?) fun ⟨second, _⟩ h => ?_
  refine bind_mono h (fun _ hfraction => hfraction) fun ⟨nanosecond, _⟩ h => ?_
  refine bind_mono h (fun _ => lenientOffset?_of_offset?) fun ⟨offset, _⟩ h => ?_
  obtain ⟨rfl, h⟩ := Option.ite_none_right_eq_some.mp h
  exact h

/-! ## Written fields -/

theorem number?_decimalPadded {width : Nat} (hw : 0 < width) (h : n < 10 ^ width)
    (rest : List Char) : number? width width (decimalPadded width n ++ rest) = some (n, rest) := by
  obtain ⟨ds, hlen, hvalue, hspan⟩ := exists_spanDigitsUpTo_decimalPadded hw h 0 rest
  rw [Nat.add_zero, spanDigitsUpTo, List.append_nil] at hspan
  rw [number?, hspan]
  dsimp only
  rw [hlen, if_neg (Nat.lt_irrefl width), hvalue]

theorem fraction?_decimalPadded {width : Nat} (hw : 0 < width) (hle : width ≤ 9)
    (h : n < 10 ^ width) :
    fraction? ('.' :: decimalPadded width n ++ ['Z']) = some (n * pow10 (9 - width), ['Z']) := by
  obtain ⟨ds, hlen, hvalue, hspan⟩ :=
    exists_spanDigitsUpTo_decimalPadded hw h (9 - width) ['Z']
  have hrest : spanDigitsUpTo (9 - width) ['Z'] = ([], ['Z']) := by
    cases 9 - width <;> rfl
  rw [Nat.add_sub_cancel' hle, hrest, List.append_nil] at hspan
  have hne : ds ≠ [] := List.ne_nil_of_length_pos (hlen ▸ hw)
  obtain ⟨d, ds', rfl⟩ := List.exists_cons_of_ne_nil hne
  rw [List.cons_append, fraction?, hspan]
  dsimp only
  rw [hvalue, hlen]
  rfl

/-- The fraction is written without loss. -/
theorem fraction?_fractionChars (h : n < 10 ^ 9) :
    fraction? (fractionChars n ++ ['Z']) = some (n, ['Z']) := by
  have hmilli : pow10 (9 - 3) = 1000000 := rfl
  have hmicro : pow10 (9 - 6) = 1000 := rfl
  have hnano : pow10 (9 - 9) = 1 := rfl
  unfold fractionChars
  split
  · rename_i hzero
    rw [hzero]
    rfl
  · split
    · rename_i hmod
      rw [fraction?_decimalPadded (by decide) (by decide) (by omega), hmilli,
        Nat.div_mul_cancel (Nat.dvd_of_mod_eq_zero hmod)]
    · split
      · rename_i hmod
        rw [fraction?_decimalPadded (by decide) (by decide) (by omega), hmicro,
          Nat.div_mul_cancel (Nat.dvd_of_mod_eq_zero hmod)]
      · rw [fraction?_decimalPadded (by decide) (by decide) h, hnano, Nat.mul_one]

theorem universal?_zero (t : Timestamp) : universal? t 0 = some t := by
  have hhour := t.hour.isLt
  have hminute := t.minute.isLt
  have hminutes : ((t.hour.val * 60 + t.minute.val - 0 : Int) % 1440).toNat =
      t.hour.val * 60 + t.minute.val := by omega
  rw [universal?, if_pos (by decide), ofLocal?]
  dsimp only
  rw [if_neg (by omega), if_pos (by omega), hminutes]
  have hh : Fin.ofNat 24 ((t.hour.val * 60 + t.minute.val) / 60) = t.hour :=
    Fin.ext (by rw [Fin.val_ofNat]; omega)
  have hm : Fin.ofNat 60 (t.hour.val * 60 + t.minute.val) = t.minute :=
    Fin.ext (by rw [Fin.val_ofNat]; omega)
  rw [hh, hm]
  rfl

end Reader

theorem ofString?_of_ofRfc3339? {s : String} {t : Timestamp} (h : ofRfc3339? s = some t) :
    ofString? s = some t := Reader.lenient?_of_strict? h

theorem daysInMonth_le (year : Int) (month : Nat) : daysInMonth year month ≤ 31 := by
  unfold daysInMonth
  split
  · split <;> decide
  all_goals decide

open Reader in
theorem ofRfc3339?_toString {t : Timestamp} (h : 0 ≤ t.date.year ∧ t.date.year ≤ 9999) :
    ofRfc3339? t.toString = some t := by
  obtain ⟨hfirst, hlast⟩ := h
  obtain ⟨-, -, -, hmonth, -, hday⟩ := t.date.valid
  have hday' := Nat.le_trans hday (daysInMonth_le t.date.year t.date.month)
  have hyear : (t.date.year.natAbs : Int) = t.date.year := Int.natAbs_of_nonneg hfirst
  have hfields : ofFields? t.date.year t.date.month t.date.day t.hour t.minute t.second
      t.nanosecond = some t := by
    simp [ofFields?]
  rw [ofRfc3339?, toString, String.toList_ofList, toChars, yearChars, if_pos ⟨hfirst, hlast⟩]
  simp only [List.append_assoc, List.cons_append]
  refine Option.bind_eq_some_iff.mpr ⟨_, number?_decimalPadded (by decide) (by omega) _, ?_⟩
  refine Option.bind_eq_some_iff.mpr ⟨_, rfl, ?_⟩
  refine Option.bind_eq_some_iff.mpr ⟨_, number?_decimalPadded (by decide) (by omega) _, ?_⟩
  refine Option.bind_eq_some_iff.mpr ⟨_, rfl, ?_⟩
  refine Option.bind_eq_some_iff.mpr ⟨_, number?_decimalPadded (by decide) (by omega) _, ?_⟩
  refine Option.bind_eq_some_iff.mpr ⟨_, rfl, ?_⟩
  refine Option.bind_eq_some_iff.mpr ⟨_, number?_decimalPadded (by decide) (by omega) _, ?_⟩
  refine Option.bind_eq_some_iff.mpr ⟨_, rfl, ?_⟩
  refine Option.bind_eq_some_iff.mpr ⟨_, number?_decimalPadded (by decide) (by omega) _, ?_⟩
  refine Option.bind_eq_some_iff.mpr ⟨_, rfl, ?_⟩
  refine Option.bind_eq_some_iff.mpr ⟨_, number?_decimalPadded (by decide) (by omega) _, ?_⟩
  refine Option.bind_eq_some_iff.mpr ⟨_, fraction?_fractionChars t.nanosecond.isLt, ?_⟩
  refine Option.bind_eq_some_iff.mpr ⟨_, rfl, ?_⟩
  exact Option.bind_eq_some_iff.mpr ⟨t, hyear ▸ hfields, universal?_zero t⟩

end Isnad.Timestamp
