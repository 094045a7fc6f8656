import Isnad.Document
import Mathlib.Data.List.Basic

/-!
# The places that paths name

A path names a field of a document, an item of a list by its position, or a field of an item. A path
is at a place if it is that of the place or of something in it (`isAt`). It leads into one field of
the document (`IsName.root_eq`), and is at one item of a list at most (`index_eq_of_isAt`). An index
in the path of a list, of an item or of a field of an item is a position in the list
(`InList.namesItems`).
-/

namespace Isnad.Document

variable {place path name : String} {i j : Nat}

/-! ## Places and paths -/

/-- Goes on to a field or an item, or not at all. -/
def opens : List Char → Bool
  | [] => true
  | c :: _ => c = '.' || c = '['

/-- The path is that of the place, or of something in it. -/
def isAt (place path : String) : Bool :=
  place.toList.isPrefixOf path.toList && opens (path.toList.drop place.toList.length)

theorem isAt_iff :
    isAt place path = true ↔ ∃ rest, path.toList = place.toList ++ rest ∧ opens rest = true := by
  rw [isAt, Bool.and_eq_true, List.isPrefixOf_iff_prefix]
  constructor
  · rintro ⟨⟨rest, hrest⟩, hopens⟩
    rw [← hrest, List.drop_left] at hopens
    exact ⟨rest, hrest.symm, hopens⟩
  · rintro ⟨rest, hrest, hopens⟩
    rw [hrest, List.drop_left]
    exact ⟨List.prefix_append _ _, hopens⟩

@[simp] theorem isAt_self (path : String) : isAt path path = true :=
  isAt_iff.mpr ⟨[], (List.append_nil _).symm, rfl⟩

theorem opens_append {l m : List Char} (hl : opens l = true) (hm : opens m = true) :
    opens (l ++ m) = true := by
  cases l with
  | nil => exact hm
  | cons c l => exact hl

theorem isAt_trans {inner : String} (h : isAt place inner = true) (h' : isAt inner path = true) :
    isAt place path = true := by
  obtain ⟨rest, hrest, hopens⟩ := isAt_iff.mp h
  obtain ⟨rest', hrest', hopens'⟩ := isAt_iff.mp h'
  exact isAt_iff.mpr ⟨rest ++ rest', by rw [hrest', hrest, List.append_assoc],
    opens_append hopens hopens'⟩

/-! ## Fields -/

/-- A character that no path puts between two names. -/
def isNameChar (c : Char) : Bool := c ≠ '.' && c ≠ '['

/-- The name has no point and no bracket in it. -/
def IsName (name : String) : Prop := ∀ c ∈ name.toList, isNameChar c = true

instance (name : String) : Decidable (IsName name) :=
  decidable_of_iff (name.toList.all isNameChar = true) List.all_eq_true

/-- The name of the field that the path leads into. -/
def root (path : String) : String := String.ofList (path.toList.takeWhile isNameChar)

/-- A path at a field leads into no other. -/
theorem IsName.root_eq (hname : IsName name) (h : isAt name path = true) : root path = name := by
  obtain ⟨rest, hrest, hopens⟩ := isAt_iff.mp h
  rw [root, hrest, List.takeWhile_append_of_pos hname]
  cases rest with
  | nil => rw [List.takeWhile_nil, List.append_nil, String.ofList_toList]
  | cons c rest =>
    have hstop : isNameChar c = false := by
      simp only [opens, Bool.or_eq_true, decide_eq_true_eq] at hopens
      rcases hopens with rfl | rfl <;> decide
    rw [List.takeWhile_cons, hstop]
    simp

/-! ## Items -/

theorem toList_itemPath (list : String) (i : Nat) :
    (itemPath list i).toList = list.toList ++ '[' :: (Nat.toDigits 10 i ++ [']']) := by
  simp [itemPath]

theorem isAt_itemPath (list : String) (i : Nat) : isAt list (itemPath list i) = true :=
  isAt_iff.mpr ⟨_, toList_itemPath list i, rfl⟩

theorem isDigit_of_mem_toDigits {c : Char} (h : c ∈ Nat.toDigits 10 i) : c.isDigit = true :=
  Nat.isDigit_of_mem_toDigits (by decide) (by decide) h

theorem takeWhile_isDigit (i : Nat) (rest : List Char) :
    (Nat.toDigits 10 i ++ ']' :: rest).takeWhile Char.isDigit = Nat.toDigits 10 i := by
  rw [List.takeWhile_append_of_pos fun _ => isDigit_of_mem_toDigits]
  exact List.append_nil _

theorem root_of_isAt_item {list : String} (hlist : IsName list)
    (h : isAt (itemPath list i) path = true) : root path = list :=
  hlist.root_eq (isAt_trans (isAt_itemPath list i) h)

/-- A path is at one item of a list at most. -/
theorem index_eq_of_isAt {list : String} (h : isAt (itemPath list i) path = true)
    (h' : isAt (itemPath list j) path = true) : i = j := by
  obtain ⟨rest, hrest, -⟩ := isAt_iff.mp h
  obtain ⟨rest', hrest', -⟩ := isAt_iff.mp h'
  rw [hrest, toList_itemPath, toList_itemPath] at hrest'
  simp only [List.append_assoc, List.cons_append, List.nil_append, List.append_cancel_left_eq,
    List.cons.injEq, true_and] at hrest'
  have hdigits := congrArg (List.takeWhile Char.isDigit) hrest'
  rw [takeWhile_isDigit, takeWhile_isDigit] at hdigits
  rw [← Nat.ofDigitChars_ten_toDigits (n := i), hdigits, Nat.ofDigitChars_ten_toDigits]

theorem fieldPath_itemPath (list : String) (i : Nat) (name : String) :
    fieldPath (itemPath list i) name = itemPath list i ++ "." ++ name := by
  rw [fieldPath, if_neg]
  intro hempty
  have hlist := toList_itemPath list i
  rw [String.isEmpty_iff.mp hempty] at hlist
  simp at hlist

theorem isAt_fieldPath_itemPath (list : String) (i : Nat) (name : String) :
    isAt (itemPath list i) (fieldPath (itemPath list i) name) = true :=
  isAt_iff.mpr ⟨'.' :: name.toList, by simp [fieldPath_itemPath], rfl⟩

theorem not_isAt_list (list : String) (i : Nat) : isAt (itemPath list i) list = false := by
  refine Bool.eq_false_iff.mpr fun h => ?_
  obtain ⟨rest, hrest, -⟩ := isAt_iff.mp h
  have hlength := congrArg List.length hrest
  rw [toList_itemPath, List.length_append, List.length_append, List.length_cons] at hlength
  omega

/-! ## Paths in a list -/

/-- The path of an item, or of a field of it. -/
inductive InItem (item : String) : String → Prop where
  | whole : InItem item item
  | field {name : String} (hname : IsName name) : InItem item (fieldPath item name)

theorem InItem.isAt {list : String} (h : InItem (itemPath list i) path) :
    isAt (itemPath list i) path = true := by
  cases h with
  | whole => exact isAt_self _
  | field hname => exact isAt_fieldPath_itemPath list i _

theorem InItem.isAt_iff {list : String} (h : InItem (itemPath list j) path) :
    Document.isAt (itemPath list i) path = true ↔ j = i := by
  constructor
  · exact index_eq_of_isAt h.isAt
  · rintro rfl
    exact h.isAt

/-- The fields of a document. A value that is no object has none. -/
def membersOf : Json → Members
  | .obj doc => doc
  | _ => []

/-- The items of a field that is a list. -/
def itemsOf (doc : Members) (list : String) : List Json :=
  match present? doc list with
  | some (.arr items) => items
  | _ => []

/-- The path of a list of a document, or a path in one of its items. -/
inductive InList (doc : Members) (list path : String) : Prop where
  | whole (h : path = list)
  | inItem (i : Nat) (hi : i < (itemsOf doc list).length) (h : InItem (itemPath list i) path)

theorem InList.isAt {doc : Members} {list : String} (h : InList doc list path) :
    isAt list path = true := by
  cases h with
  | whole h => exact h ▸ isAt_self list
  | inItem i _ h => exact isAt_trans (isAt_itemPath list i) h.isAt

/-- Every index in the path is a position in the list before it. -/
def NamesItems (doc : Members) (path : String) : Prop :=
  ∀ before after, path.toList = before ++ '[' :: after →
    ∃ i rest, i < (itemsOf doc (String.ofList before)).length ∧
      after = (toString i).toList ++ ']' :: rest

theorem not_mem_of_isName (h : IsName name) : '[' ∉ name.toList :=
  fun hmem => absurd (h _ hmem) (by decide)

theorem InItem.exists_rest {list : String} (h : InItem (itemPath list i) path) :
    ∃ rest, '[' ∉ rest ∧
      path.toList = list.toList ++ '[' :: (Nat.toDigits 10 i ++ ']' :: rest) := by
  cases h with
  | whole => exact ⟨[], List.not_mem_nil, toList_itemPath list i⟩
  | @field name hname =>
    refine ⟨'.' :: name.toList, ?_, ?_⟩
    · simpa using not_mem_of_isName hname
    · simp [fieldPath_itemPath, toList_itemPath]

theorem InList.namesItems {doc : Members} {list : String} (hlist : IsName list)
    (h : InList doc list path) : NamesItems doc path := by
  intro before after hpath
  cases h with
  | whole h =>
    subst h
    exact absurd (hpath ▸ List.mem_append_right _ List.mem_cons_self) (not_mem_of_isName hlist)
  | inItem i hi h =>
    obtain ⟨rest, hrest, heq⟩ := h.exists_rest
    have hafter : '[' ∉ Nat.toDigits 10 i ++ ']' :: rest := by
      simp only [List.mem_append, List.mem_cons, not_or]
      exact ⟨fun hmem => absurd (isDigit_of_mem_toDigits hmem) (by decide), by decide, hrest⟩
    obtain ⟨rfl, -, rfl⟩ := (List.append_cons_inj_of_notMem (not_mem_of_isName hlist) hafter).mp
      (heq.symm.trans hpath)
    exact ⟨i, rest, by rwa [String.ofList_toList], by simp⟩

end Isnad.Document
