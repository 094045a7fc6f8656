import Isnad.Uuid
import Mathlib.Data.List.Basic

/-!
# The text of an identifier

An identifier is read back from the text it is written as (`ofString?_toString`), so that
different identifiers have different texts. The converse fails: one identifier has many spellings,
of which it is written in one.
-/

namespace Isnad.Uuid

open Text

theorem hexDigits?_map_hexChar (ds : List (Fin 16)) : hexDigits? (ds.map hexChar) = some ds := by
  induction ds with
  | nil => rfl
  | cons d ds ih =>
    rw [hexDigits?] at ih ⊢
    simp [ih]

theorem simple?_map_hexChar (u : Uuid) : simple? (u.digits.map hexChar) = some u := by
  simp [simple?, hexDigits?_map_hexChar]

/-- Groups joined by hyphens are read without these. -/
theorem hyphenated?_join {a b c d e : List Char} (ha : a.length = 8) (hb : b.length = 4)
    (hc : c.length = 4) (hd : d.length = 4) (he : e.length = 12) :
    hyphenated? (a ++ '-' :: b ++ '-' :: c ++ '-' :: d ++ '-' :: e) =
      simple? (a ++ b ++ c ++ d ++ e) := by
  have hassoc : a ++ '-' :: b ++ '-' :: c ++ '-' :: d ++ '-' :: e =
      a ++ ('-' :: (b ++ '-' :: (c ++ '-' :: (d ++ '-' :: e)))) := by simp
  have hhyphens : [8, 13, 18, 23].all (fun i =>
      (a ++ ('-' :: (b ++ '-' :: (c ++ '-' :: (d ++ '-' :: e)))))[i]? = some '-') = true := by
    simp [List.getElem?_append, ha, hb, hc, hd]
  rw [hassoc, hyphenated?, if_pos ⟨by simp [ha, hb, hc, hd, he], hhyphens⟩]
  congr 1
  simp [List.drop_append, ha, hb, hc, hd, List.drop_eq_nil_of_le]

theorem ofChars?_of_hyphenated {cs : List Char} (hl : cs.length = 36) (h8 : cs[8]? = some '-') :
    ofChars? cs = hyphenated? cs := by
  have hurn : isUrn cs = false := by
    simp only [isUrn, decide_eq_false_iff_not]
    intro h
    have h' := congrArg (·[8]?) h
    simp [urnStart, h8] at h'
  simp [ofChars?, hl, hurn]

theorem ofChars?_toChars (u : Uuid) : ofChars? u.toChars = some u := by
  have hl : (u.digits.map hexChar).length = 32 := by rw [List.length_map, u.length_eq]
  unfold toChars
  generalize hcs : u.digits.map hexChar = cs at hl
  have hread := hyphenated?_join (a := cs.take 8) (b := (cs.drop 8).take 4)
    (c := (cs.drop 12).take 4) (d := (cs.drop 16).take 4) (e := cs.drop 20) (by simp [hl])
    (by simp [hl]) (by simp [hl]) (by simp [hl]) (by simp [hl])
  rw [ofChars?_of_hyphenated (by simp [hl]) (by simp [hl]), hread]
  have hjoin : cs.take 8 ++ (cs.drop 8).take 4 ++ (cs.drop 12).take 4 ++ (cs.drop 16).take 4 ++
      cs.drop 20 = cs := by
    rw [← List.take_add, ← List.take_add, ← List.take_add, List.take_append_drop]
  rw [hjoin, ← hcs, simple?_map_hexChar]

theorem ofString?_toString (u : Uuid) : ofString? u.toString = some u := by
  rw [ofString?, toString, String.toList_ofList, ofChars?_toChars]

theorem toString_injective : Function.Injective Uuid.toString := by
  intro u v h
  have h' := congrArg ofString? h
  rwa [ofString?_toString, ofString?_toString, Option.some.injEq] at h'

end Isnad.Uuid
