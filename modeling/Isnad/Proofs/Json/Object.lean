import Isnad.Json.Basic

/-!
# The members of an object

Members are kept in the order of their names, which no lookup depends on: setting one changes the
value under its name alone, and an object made of a list has the last value of each name
(`member?_object`).
-/

namespace Isnad.Json

variable {name key : String} {value : Json} {members : List (String × Json)}

theorem lookup_insertMember_of_ne (h : key ≠ name) :
    (insertMember name value members).lookup key = members.lookup key := by
  have hkey : (key == name) = false := beq_false_of_ne h
  induction members with
  | nil => rw [insertMember, List.lookup_cons, hkey]
  | cons m rest ih =>
    obtain ⟨k, v⟩ := m
    unfold insertMember
    split
    · rw [List.lookup_cons, hkey]
    · split
      · rename_i heq
        rw [List.lookup_cons, List.lookup_cons, ← heq, hkey]
      · rw [List.lookup_cons, List.lookup_cons, ih]

theorem lookup_insertMember (key name : String) (value : Json) (members : List (String × Json)) :
    (insertMember name value members).lookup key =
      ((name, value) :: members).lookup key := by
  by_cases h : key = name
  · rw [h, lookup_insertMember_self, List.lookup_cons, beq_self_eq_true]
  · rw [lookup_insertMember_of_ne h, List.lookup_cons, beq_false_of_ne h]

/-- Of a repeated name the last value counts. -/
theorem member?_object (members : List (String × Json)) (key : String) :
    (object members).member? key = members.reverse.lookup key := by
  have hfold : ∀ acc : List (String × Json),
      (members.foldl (fun acc m => insertMember m.1 m.2 acc) acc).lookup key =
        (members.reverse ++ acc).lookup key := by
    induction members with
    | nil => exact fun _ => rfl
    | cons m ms ih =>
      intro acc
      rw [List.foldl_cons, ih, List.reverse_cons, List.append_assoc, List.lookup_append,
        List.lookup_append, lookup_insertMember, List.singleton_append]
  rw [object, member?, hfold, List.append_nil]

theorem exists_object (members : List (String × Json)) :
    ∃ doc, object members = .obj doc ∧ ∀ key, doc.lookup key = members.reverse.lookup key :=
  ⟨_, rfl, member?_object members⟩

end Isnad.Json
