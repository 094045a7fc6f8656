import Isnad.Json.Written

/-!
# Values in order

An object has its members in the order of their names, which are all different. What a text holds is
in order throughout (`Written.isOrdered_of_value?`), so a value that was read comes with the proof.
-/

namespace Isnad

namespace Json

variable {name : String} {value : Json} {members : List (String × Json)}

/-- The names of every object within the value ascend. -/
inductive IsOrdered : Json → Prop where
  | null : IsOrdered .null
  | bool (b : Bool) : IsOrdered (.bool b)
  | num (n : Number) : IsOrdered (.num n)
  | str (s : String) : IsOrdered (.str s)
  | arr {items : List Json} (h : ∀ x ∈ items, IsOrdered x) : IsOrdered (.arr items)
  | obj {members : List (String × Json)} (hnames : (members.map Prod.fst).Pairwise (· < ·))
      (h : ∀ m ∈ members, IsOrdered m.2) : IsOrdered (.obj members)

/-! ## Objects -/

theorem mem_insertMember {m : String × Json} (h : m ∈ insertMember name value members) :
    m = (name, value) ∨ m ∈ members := by
  induction members with
  | nil => exact .inl (List.mem_singleton.mp h)
  | cons k rest ih =>
    unfold insertMember at h
    split at h
    · exact List.mem_cons.mp h
    · split at h
      · exact (List.mem_cons.mp h).imp_right (List.mem_cons_of_mem _)
      · rcases List.mem_cons.mp h with rfl | h
        · exact .inr List.mem_cons_self
        · exact (ih h).imp_right (List.mem_cons_of_mem _)

theorem pairwise_insertMember (h : (members.map Prod.fst).Pairwise (· < ·)) :
    ((insertMember name value members).map Prod.fst).Pairwise (· < ·) := by
  induction members with
  | nil => exact List.pairwise_singleton _ _
  | cons m rest ih =>
    obtain ⟨k, v⟩ := m
    rw [List.map_cons, List.pairwise_cons] at h
    unfold insertMember
    split
    · rename_i hlt
      refine List.pairwise_cons.mpr ⟨?_, List.pairwise_cons.mpr h⟩
      exact List.forall_mem_cons.mpr ⟨hlt, fun n hn => String.lt_trans hlt (h.1 n hn)⟩
    · split
      · rename_i heq
        rw [List.map_cons, List.pairwise_cons, heq]
        exact h
      · rename_i hnlt hne
        refine List.pairwise_cons.mpr ⟨fun n hn => ?_, ih h.2⟩
        obtain ⟨m, hm, rfl⟩ := List.mem_map.mp hn
        rcases mem_insertMember hm with rfl | hm
        · exact Std.lt_of_le_of_ne (String.not_lt.mp hnlt) (Ne.symm hne)
        · exact h.1 _ (List.mem_map_of_mem hm)

section Object

variable {doc : List (String × Json)} (h : object members = .obj doc)
include h

/-- The names of an object ascend. -/
theorem pairwise_object : (doc.map Prod.fst).Pairwise (· < ·) := by
  have hfold : ∀ acc : List (String × Json), (acc.map Prod.fst).Pairwise (· < ·) →
      ((members.foldl (fun acc m => insertMember m.1 m.2 acc) acc).map Prod.fst).Pairwise
        (· < ·) := by
    clear h
    induction members with
    | nil => exact fun _ hacc => hacc
    | cons m rest ih => exact fun acc hacc => ih _ (pairwise_insertMember hacc)
  cases h
  exact hfold [] .nil

/-- An object has no members but the given ones. -/
theorem mem_of_object {m : String × Json} (hm : m ∈ doc) : m ∈ members := by
  have hfold : ∀ acc : List (String × Json),
      m ∈ members.foldl (fun acc m => insertMember m.1 m.2 acc) acc → m ∈ acc ∨ m ∈ members := by
    clear h hm
    induction members with
    | nil => exact fun _ hacc => .inl hacc
    | cons k rest ih =>
      intro acc hmem
      rcases ih _ hmem with hmem | hmem
      · rcases mem_insertMember hmem with rfl | hmem
        · exact .inr List.mem_cons_self
        · exact .inl hmem
      · exact .inr (List.mem_cons_of_mem _ hmem)
  cases h
  exact (hfold [] hm).resolve_left List.not_mem_nil

end Object

theorem isOrdered_object (h : ∀ m ∈ members, m.2.IsOrdered) : (object members).IsOrdered :=
  .obj (pairwise_object rfl) fun m hm => h m (mem_of_object rfl hm)

/-! ## Values of texts -/

namespace Written

mutual

theorem isOrdered_of_value? : (w : Written) → {x : Json} → w.value? = some x → x.IsOrdered
  | .null, _, h => by
    cases h
    exact .null
  | .bool b, _, h => by
    cases h
    exact .bool b
  | .num n, _, h => by
    cases h
    exact .num n
  | .str s, _, h => by
    cases h
    exact .str s
  | .arr items, _, h => by
    obtain ⟨ys, hys, h⟩ := Option.bind_eq_some_iff.mp h
    cases h
    exact .arr (isOrdered_of_items? items hys)
  | .obj members, _, h => by
    obtain ⟨ms, hms, h⟩ := Option.bind_eq_some_iff.mp h
    cases h
    exact isOrdered_object (isOrdered_of_members? members hms)

theorem isOrdered_of_items? : (items : List Written) → {ys : List Json} →
    items? items = some ys → ∀ y ∈ ys, y.IsOrdered
  | [], _, h => by
    cases h
    exact fun _ hy => absurd hy List.not_mem_nil
  | w :: ws, _, h => by
    obtain ⟨y, hy, h⟩ := Option.bind_eq_some_iff.mp h
    obtain ⟨zs, hzs, h⟩ := Option.bind_eq_some_iff.mp h
    cases h
    exact List.forall_mem_cons.mpr ⟨isOrdered_of_value? w hy, isOrdered_of_items? ws hzs⟩

theorem isOrdered_of_members? : (members : List (String × Written)) →
    {ms : List (String × Json)} → members? members = some ms → ∀ m ∈ ms, m.2.IsOrdered
  | [], _, h => by
    cases h
    exact fun _ hm => absurd hm List.not_mem_nil
  | (k, w) :: ws, _, h => by
    obtain ⟨y, hy, h⟩ := Option.bind_eq_some_iff.mp h
    obtain ⟨zs, hzs, h⟩ := Option.bind_eq_some_iff.mp h
    cases h
    exact List.forall_mem_cons.mpr ⟨isOrdered_of_value? w hy, isOrdered_of_members? ws hzs⟩

end

end Written
end Json

/-- A value as documents hold it, its objects in order. -/
structure OrderedJson where
  toJson : Json
  isOrdered : toJson.IsOrdered
deriving DecidableEq, Repr

def OrderedJson.null : OrderedJson := ⟨.null, .null⟩

/-- The value of a text all of whose parts hold one, in order. -/
def Json.Written.ordered? (w : Written) : Option OrderedJson :=
  w.value?.pmap OrderedJson.mk fun _ => w.isOrdered_of_value?

end Isnad
