import Isnad.Json.Ordered
import Mathlib.Data.List.Pairwise
import Mathlib.Data.String.Basic

/-!
# What can be read of values in order

The parts of a value in order are in order, and what is in order is read back from how it is written
(`isOrdered_iff_value?_toWritten`).
-/

namespace Isnad.Json

variable {name : String} {value x y : Json} {members : List (String × Json)}

namespace IsOrdered

theorem names_nodup (h : IsOrdered (.obj members)) : (members.map Prod.fst).Nodup := by
  cases h with
  | obj hnames _ => exact hnames.imp fun hlt => ne_of_lt hlt

theorem of_mem {items : List Json} (h : IsOrdered (.arr items)) (hx : x ∈ items) :
    x.IsOrdered := by
  cases h with
  | arr h => exact h x hx

theorem member? (h : x.IsOrdered) (hy : x.member? name = some y) : y.IsOrdered := by
  cases h with
  | obj _ h =>
    obtain ⟨before, after, rfl, -⟩ := List.lookup_eq_some_iff.mp hy
    exact h (name, y) (by simp)
  | _ => cases hy

end IsOrdered

/-! ## Objects -/

/-- A member whose name comes last is put last. -/
theorem insertMember_of_forall_lt (h : ∀ m ∈ members, m.1 < name) :
    insertMember name value members = members ++ [(name, value)] := by
  induction members with
  | nil => rfl
  | cons m rest ih =>
    obtain ⟨hm, hrest⟩ := List.forall_mem_cons.mp h
    rw [insertMember, if_neg (lt_asymm hm), if_neg (ne_of_gt hm), ih hrest, List.cons_append]

theorem object_eq_obj (h : (members.map Prod.fst).Pairwise (· < ·)) :
    object members = .obj members := by
  have hfold : ∀ acc : List (String × Json), ((acc ++ members).map Prod.fst).Pairwise (· < ·) →
      members.foldl (fun acc m => insertMember m.1 m.2 acc) acc = acc ++ members := by
    clear h
    induction members with
    | nil => exact fun acc _ => (List.append_nil acc).symm
    | cons m rest ih =>
      intro acc h
      have hlast : ∀ k ∈ acc, k.1 < m.1 := by
        rw [List.map_append, List.pairwise_append] at h
        exact fun k hk => h.2.2 _ (List.mem_map_of_mem hk) _ (by simp)
      rw [List.append_cons] at h ⊢
      rw [List.foldl_cons, insertMember_of_forall_lt hlast, ih _ h]
  rw [object, hfold [] h, List.nil_append]

/-! ## Values as they are written -/

theorem items?_toWrittenItems {items : List Json}
    (h : ∀ x ∈ items, x.toWritten.value? = some x) :
    Written.items? (toWrittenItems items) = some items := by
  induction items with
  | nil => rfl
  | cons x xs ih =>
    obtain ⟨hx, hxs⟩ := List.forall_mem_cons.mp h
    simp [toWrittenItems, Written.items?, hx, ih hxs]

theorem members?_toWrittenMembers (h : ∀ m ∈ members, m.2.toWritten.value? = some m.2) :
    Written.members? (toWrittenMembers members) = some members := by
  induction members with
  | nil => rfl
  | cons m ms ih =>
    obtain ⟨hm, hms⟩ := List.forall_mem_cons.mp h
    simp [toWrittenMembers, Written.members?, hm, ih hms]

theorem IsOrdered.value?_toWritten (h : x.IsOrdered) : x.toWritten.value? = some x := by
  induction h with
  | arr _ ih => simp [toWritten, Written.value?, items?_toWrittenItems ih]
  | obj hnames _ ih =>
    simp [toWritten, Written.value?, members?_toWrittenMembers ih, object_eq_obj hnames]
  | _ => rfl

/-- The values in order are those that are read back from how they are written. -/
theorem isOrdered_iff_value?_toWritten : x.IsOrdered ↔ x.toWritten.value? = some x :=
  ⟨IsOrdered.value?_toWritten, x.toWritten.isOrdered_of_value?⟩

instance : DecidablePred IsOrdered := fun _ => decidable_of_iff' _ isOrdered_iff_value?_toWritten

theorem Written.ordered?_eq_some_iff {w : Written} {x : OrderedJson} :
    w.ordered? = some x ↔ w.value? = some x.toJson := by
  rw [ordered?, Option.pmap_eq_some_iff]
  constructor
  · rintro ⟨y, hy, hw, rfl⟩
    exact hw
  · intro hw
    exact ⟨x.toJson, x.isOrdered, hw, rfl⟩

/-- A value in order is read back from how it is written. -/
theorem ordered?_toWritten (x : OrderedJson) : x.toJson.toWritten.ordered? = some x :=
  Written.ordered?_eq_some_iff.mpr x.isOrdered.value?_toWritten

end Isnad.Json
