import Isnad.Proofs.Json.Record

/-!
# The first item with a property

Steps that are taken for the items of a list, one after the other, fail where the first of them
fails (`mapM_eq_error_iff`).
-/

namespace Isnad

variable {α β ε : Type} {P : α → Prop} {x : α} {xs : List α} {e : ε}

/-- The first item of a list with a property. -/
inductive IsFirstOf (P : α → Prop) : List α → α → Prop
  | head {x : α} {xs : List α} : P x → IsFirstOf P (x :: xs) x
  | tail {x y : α} {xs : List α} : ¬ P y → IsFirstOf P xs x → IsFirstOf P (y :: xs) x

namespace IsFirstOf

theorem prop (h : IsFirstOf P xs x) : P x := by
  induction h with
  | head hx => exact hx
  | tail _ _ ih => exact ih

theorem mem (h : IsFirstOf P xs x) : x ∈ xs := by
  induction h with
  | head _ => exact List.mem_cons_self
  | tail _ _ ih => exact List.mem_cons_of_mem _ ih

theorem cons_iff {y : α} : IsFirstOf P (y :: xs) x ↔ P y ∧ x = y ∨ ¬ P y ∧ IsFirstOf P xs x := by
  constructor
  · rintro (hx | ⟨hy, hx⟩)
    · exact .inl ⟨hx, rfl⟩
    · exact .inr ⟨hy, hx⟩
  · rintro (⟨hy, rfl⟩ | ⟨hy, hx⟩)
    · exact .head hy
    · exact .tail hy hx

end IsFirstOf

theorem exists_isFirstOf_iff : (∃ x, IsFirstOf P xs x) ↔ ∃ x ∈ xs, P x := by
  refine ⟨fun ⟨x, h⟩ => ⟨x, h.mem, h.prop⟩, ?_⟩
  induction xs with
  | nil => rintro ⟨x, hx, -⟩; cases hx
  | cons y ys ih =>
    rintro ⟨x, hx, hP⟩
    by_cases hy : P y
    · exact ⟨y, .head hy⟩
    · rcases List.mem_cons.mp hx with rfl | hx
      · exact absurd hP hy
      · obtain ⟨z, hz⟩ := ih ⟨x, hx, hP⟩
        exact ⟨z, .tail hy hz⟩

/-- The step fails for the item. -/
def Fails (f : α → Except ε β) (x : α) : Prop := ∃ e, f x = .error e

theorem not_fails_iff {f : α → Except ε β} : ¬ Fails f x ↔ ∃ b, f x = .ok b := by
  rw [Fails]
  cases f x <;> simp

/-- A list that cannot be read has a first item that cannot. -/
theorem mapM_eq_error_iff {f : α → Except ε β} :
    xs.mapM f = .error e ↔ ∃ x, IsFirstOf (Fails f) xs x ∧ f x = .error e := by
  induction xs with
  | nil => exact iff_of_false nofun fun ⟨_, h, _⟩ => nomatch h
  | cons y ys ih =>
    have hpure : ∀ (b : β) (bs : List β), (pure (b :: bs) : Except ε (List β)) ≠ .error e :=
      fun _ _ => nofun
    simp only [List.mapM_cons, Json.bind_eq_error_iff, hpure, and_false, exists_false, or_false, ih,
      IsFirstOf.cons_iff, not_fails_iff]
    constructor
    · rintro (hy | ⟨b, hb, x, hx, he⟩)
      · exact ⟨y, .inl ⟨⟨e, hy⟩, rfl⟩, hy⟩
      · exact ⟨x, .inr ⟨⟨b, hb⟩, hx⟩, he⟩
    · rintro ⟨x, ⟨-, rfl⟩ | ⟨⟨b, hb⟩, hx⟩, he⟩
      · exact .inl he
      · exact .inr ⟨b, hb, x, hx, he⟩

end Isnad
