import Mathlib.Data.List.Chain
import Mathlib.Data.List.Nodup
import Mathlib.Logic.Relation

/-!
# Loops of a relation

A loop leads from an element through others, none twice, back to the first. Where no element has
two predecessors, whatever leads into a loop lies on it (`IsLoop.mem_of_reaches`), and an element
lies on one loop only (`IsLoop.eq`).
-/

namespace Isnad

variable {α : Type} {R : α → α → Prop} {a x y : α} {c c' : List α}

/-- `R` leads from `a` through the elements of `c` and back to `a`. -/
structure IsLoop (R : α → α → Prop) (a : α) (c : List α) : Prop where
  nodup : (a :: c).Nodup
  closes : (a :: (c ++ [a])).IsChain R

/-- No element has two predecessors. -/
def UniquePredecessor (R : α → α → Prop) : Prop := ∀ p q x, R p x → R q x → p = q

theorem reaches_of_isChain_cons (h : (a :: c).IsChain R) (hx : x ∈ c) :
    Relation.TransGen R a x := by
  induction c generalizing a with
  | nil => cases hx
  | cons b c ih =>
    rw [List.isChain_cons_cons] at h
    rcases List.mem_cons.mp hx with rfl | hx
    · exact .single h.1
    · exact .head h.1 (ih h.2 hx)

theorem reaches_of_isChain_append (h : (c ++ [a]).IsChain R) (hx : x ∈ c) :
    Relation.TransGen R x a := by
  induction c with
  | nil => cases hx
  | cons b c ih =>
    rcases List.mem_cons.mp hx with rfl | hx
    · exact reaches_of_isChain_cons h (List.mem_append_right _ (List.mem_singleton_self a))
    · exact ih (List.isChain_cons.mp h).2 hx

/-- Every element but the first of a path has its predecessor on the path. -/
theorem exists_predecessor (h : (a :: c).IsChain R) (hx : x ∈ c) : ∃ p ∈ a :: c, R p x := by
  induction c generalizing a with
  | nil => cases hx
  | cons b c ih =>
    rw [List.isChain_cons_cons] at h
    rcases List.mem_cons.mp hx with rfl | hx
    · exact ⟨a, List.mem_cons_self, h.1⟩
    · obtain ⟨p, hp, hpx⟩ := ih h.2 hx
      exact ⟨p, List.mem_cons_of_mem _ hp, hpx⟩

/-- What leads to an element that leads to itself is led to by it. -/
theorem UniquePredecessor.reaches_back (hR : UniquePredecessor R)
    (hyx : Relation.ReflTransGen R y x) (hx : Relation.TransGen R x x) : Relation.ReflTransGen R x y := by
  induction hyx using Relation.ReflTransGen.head_induction_on with
  | refl => exact .refl
  | head hyz _ ih =>
    obtain ⟨p, hxp, hpz⟩ := Relation.TransGen.tail'_iff.mp (hx.trans_left ih)
    exact hR _ _ _ hyz hpz ▸ hxp

/-- What leads to an element that leads to itself does so too. -/
theorem cyclic_of_reaches (hR : UniquePredecessor R) (hyx : Relation.ReflTransGen R y x)
    (hx : Relation.TransGen R x x) : Relation.TransGen R y y :=
  .trans_right hyx (hx.trans_left (hR.reaches_back hyx hx))

/-- What leads to one element lies on one way. -/
theorem UniquePredecessor.total (hR : UniquePredecessor R) (hx : Relation.ReflTransGen R x a)
    (hy : Relation.ReflTransGen R y a) :
    Relation.ReflTransGen R x y ∨ Relation.ReflTransGen R y x := by
  induction hx with
  | refl => exact .inr hy
  | tail hxb hba ih =>
    rcases Relation.ReflTransGen.cases_tail hy with rfl | ⟨q, hyq, hqa⟩
    · exact .inl (.tail hxb hba)
    · exact ih (hR _ _ _ hqa hba ▸ hyq)

namespace IsLoop

/-- A map that keeps the relation takes a loop to a loop, unless it puts two of its elements into
one. -/
theorem map {β : Type} {S : β → β → Prop} {f : α → β} (h : IsLoop R a c)
    (hS : ∀ x y, R x y → S (f x) (f y)) (hf : ∀ x ∈ a :: c, ∀ y ∈ a :: c, f x = f y → x = y) :
    IsLoop S (f a) (c.map f) where
  nodup := h.nodup.map_on hf
  closes := by
    have hmap : (a :: (c ++ [a])).map f = f a :: (c.map f ++ [f a]) := by simp
    rw [← hmap, List.isChain_map]
    exact h.closes.imp hS

theorem mem_closed : x ∈ c ++ [a] ↔ x ∈ a :: c := by
  rw [List.mem_append, List.mem_singleton, List.mem_cons, or_comm]

theorem exists_mem (h : IsLoop R a c) (hx : x ∈ a :: c) : ∃ p ∈ a :: c, R p x := by
  obtain ⟨p, hp, hpx⟩ := exists_predecessor h.closes (mem_closed.mpr hx)
  refine ⟨p, ?_, hpx⟩
  rcases List.mem_cons.mp hp with rfl | hp
  · exact List.mem_cons_self
  · exact mem_closed.mp hp

theorem reaches (h : IsLoop R a c) (hx : x ∈ a :: c) : Relation.TransGen R a x :=
  reaches_of_isChain_cons h.closes (mem_closed.mpr hx)

theorem reaches_first (h : IsLoop R a c) (hx : x ∈ a :: c) : Relation.TransGen R x a :=
  reaches_of_isChain_append (c := a :: c) h.closes hx

/-- What leads into a loop lies on it. -/
theorem mem_of_reaches (h : IsLoop R a c) (hR : UniquePredecessor R)
    (hyx : Relation.ReflTransGen R y x) (hx : x ∈ a :: c) : y ∈ a :: c := by
  induction hyx using Relation.ReflTransGen.head_induction_on with
  | refl => exact hx
  | head hyz _ ih =>
    obtain ⟨p, hp, hpz⟩ := h.exists_mem ih
    exact hR _ _ _ hyz hpz ▸ hp

theorem eq_of_isChain {S : α → α → Prop} (hS : ∀ p x y, S p x → S p y → x = y)
    (h : (x :: (c ++ [a])).IsChain S) (h' : (x :: (c' ++ [a])).IsChain S) (ha : a ∉ c)
    (ha' : a ∉ c') : c = c' := by
  induction c generalizing c' x with
  | nil =>
    cases c' with
    | nil => rfl
    | cons b' c' =>
      have hab := hS _ _ _ (List.isChain_cons_cons.mp h).1 (List.isChain_cons_cons.mp h').1
      exact absurd (hab ▸ List.mem_cons_self) ha'
  | cons b c ih =>
    cases c' with
    | nil =>
      have hab := hS _ _ _ (List.isChain_cons_cons.mp h').1 (List.isChain_cons_cons.mp h).1
      exact absurd (hab ▸ List.mem_cons_self) ha
    | cons b' c' =>
      obtain ⟨hb, hc⟩ := List.isChain_cons_cons.mp h
      obtain ⟨hb', hc'⟩ := List.isChain_cons_cons.mp h'
      obtain rfl := hS _ _ _ hb hb'
      rw [ih hc hc' (fun hm => ha (List.mem_cons_of_mem _ hm))
        (fun hm => ha' (List.mem_cons_of_mem _ hm))]

/-- One loop leads through an element. Backwards there is no choice of the way. -/
theorem eq (h : IsLoop R a c) (h' : IsLoop R a c') (hR : UniquePredecessor R) : c = c' := by
  have hrev {c : List α} (h : IsLoop R a c) :
      (a :: (c.reverse ++ [a])).IsChain fun x y => R y x := by
    have := List.isChain_reverse.mpr h.closes
    simpa using this
  have hout {c : List α} (h : IsLoop R a c) : a ∉ c.reverse := by
    rw [List.mem_reverse]
    exact (List.nodup_cons.mp h.nodup).1
  refine List.reverse_injective (eq_of_isChain ?_ (hrev h) (hrev h') (hout h) (hout h'))
  exact fun x p q hp hq => hR p q x hp hq

end IsLoop
end Isnad
