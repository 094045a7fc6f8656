/-! # Closed sets with a written label for each element -/

namespace Isnad

/-- A finite type each of whose elements is written as its own label. -/
class Labelled (α : Type) where
  all : List α
  label : α → String
  find?_label (a : α) : all.find? (fun b => label b == label a) = some a

export Labelled (label)

/-- The element with that label. -/
def ofLabel? {α : Type} [Labelled α] (s : String) : Option α :=
  (Labelled.all : List α).find? fun a => label a == s

variable {α : Type} [Labelled α]

@[simp] theorem ofLabel?_label (a : α) : ofLabel? (label a) = some a := Labelled.find?_label a

theorem label_of_ofLabel? {s : String} {a : α} (h : ofLabel? s = some a) : label a = s := by
  simpa using List.find?_some h

theorem label_injective {a b : α} (h : label a = label b) : a = b := by
  have ha := ofLabel?_label a
  rw [h, ofLabel?_label] at ha
  exact (Option.some.inj ha).symm

theorem mem_all (a : α) : a ∈ (Labelled.all : List α) :=
  List.mem_of_find?_eq_some (Labelled.find?_label a)

end Isnad
