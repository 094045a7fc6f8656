import Isnad.Chain.Linkage
import Mathlib.Data.List.Nodup
import Mathlib.Data.Finset.Card

/-!
# The first link of each name

Only the first link of a name takes part in the tree of a chain. These links are those that a look
for their name finds (`mem_firsts_iff`), in the order of the chain (`firsts_pairwise`), and there
are as many as names (`length_firsts`).
-/

namespace Isnad.ChainLink

variable {links : List ChainLink} {seen : List String} {l l' : ChainLink}

/-- No earlier link has the name. -/
def IsFirst (links : List ChainLink) (l : ChainLink) : Prop :=
  links.find? (·.id = l.id) = some l

/-- `l` comes before `l'` in the chain. -/
def Before (links : List ChainLink) (l l' : ChainLink) : Prop :=
  links.idxOf l < links.idxOf l'

theorem IsFirst.eq (h : IsFirst links l) (h' : IsFirst links l') (hid : l.id = l'.id) : l = l' := by
  rw [IsFirst, hid] at h
  exact Option.some.inj (h.symm.trans h')

theorem IsFirst.mem (h : IsFirst links l) : l ∈ links := List.mem_of_find?_eq_some h

theorem exists_isFirst (h : l ∈ links) : ∃ l', IsFirst links l' ∧ l'.id = l.id := by
  obtain ⟨l', hl'⟩ := Option.isSome_iff_exists.mp
    (List.find?_isSome (p := fun k : ChainLink => k.id = l.id).mpr ⟨l, h, decide_eq_true rfl⟩)
  have hid : l'.id = l.id := by simpa using List.find?_some hl'
  exact ⟨l', by rwa [IsFirst, hid], hid⟩

theorem mem_splitFirsts :
    l ∈ (splitFirsts seen links).1 ↔ l.id ∉ seen ∧ IsFirst links l := by
  unfold IsFirst
  induction links generalizing seen with
  | nil => simp [splitFirsts]
  | cons k ks ih =>
    rw [splitFirsts, List.find?_cons]
    by_cases hk : k.id ∈ seen
    · rw [if_pos (by simpa using hk), ih]
      refine and_congr_right fun hl => ?_
      have hne : k.id ≠ l.id := fun heq => hl (heq ▸ hk)
      simp [hne]
    · rw [if_neg (by simpa using hk), List.mem_cons, ih, List.mem_cons, not_or]
      by_cases hid : k.id = l.id
      · simp only [hid, not_true_eq_false, false_and, or_false, decide_true, Option.some.injEq]
        exact ⟨fun heq => ⟨hid ▸ hk, heq.symm⟩, fun h => h.2.symm⟩
      · have hne : l ≠ k := fun heq => hid (heq ▸ rfl)
        simp [hid, hne, Ne.symm hid]

theorem mem_firsts_iff : l ∈ firsts links ↔ IsFirst links l := by
  rw [firsts, mem_splitFirsts]
  exact and_iff_right List.not_mem_nil

theorem splitFirsts_pairwise : (splitFirsts seen links).1.Pairwise (Before links) := by
  induction links generalizing seen with
  | nil => exact .nil
  | cons k ks ih =>
    have hlater {seen : List String} (hk : k.id ∈ seen) :
        (splitFirsts seen ks).1.Pairwise (Before (k :: ks)) := by
      refine ih.imp_of_mem fun {a b} ha hb hab => ?_
      have hne {x : ChainLink} (hx : x ∈ (splitFirsts seen ks).1) : k ≠ x := fun heq =>
        (mem_splitFirsts.mp hx).1 (heq ▸ hk)
      rw [Before, List.idxOf_cons_ne _ (hne ha), List.idxOf_cons_ne _ (hne hb)]
      exact Nat.succ_lt_succ hab
    rw [splitFirsts]
    split
    · rename_i hk
      exact hlater (by simpa using hk)
    · refine List.pairwise_cons.mpr ⟨fun x hx => ?_, hlater List.mem_cons_self⟩
      have hne : k ≠ x := fun heq => (mem_splitFirsts.mp hx).1 (heq ▸ List.mem_cons_self)
      rw [Before, List.idxOf_cons_self, List.idxOf_cons_ne _ hne]
      exact Nat.succ_pos _

/-- The first links are in the order of the chain. -/
theorem firsts_pairwise (links : List ChainLink) : (firsts links).Pairwise (Before links) :=
  splitFirsts_pairwise

theorem nodup_ids_firsts (links : List ChainLink) : (ids (firsts links)).Nodup := by
  rw [ids, List.Nodup, List.pairwise_map]
  refine (firsts_pairwise links).imp_of_mem fun {a b} ha hb hab heq => ?_
  obtain rfl := (mem_firsts_iff.mp ha).eq (mem_firsts_iff.mp hb) heq
  exact Nat.lt_irrefl _ hab

theorem mem_ids_firsts {name : String} : name ∈ ids (firsts links) ↔ name ∈ ids links := by
  simp only [ids, List.mem_map, mem_firsts_iff]
  constructor
  · rintro ⟨l, hl, rfl⟩
    exact ⟨l, hl.mem, rfl⟩
  · rintro ⟨l, hl, rfl⟩
    exact exists_isFirst hl

theorem length_firsts (links : List ChainLink) :
    (firsts links).length = (ids links).toFinset.card := by
  have hids : (ids (firsts links)).toFinset = (ids links).toFinset := by
    ext name
    rw [List.mem_toFinset, List.mem_toFinset, mem_ids_firsts]
  rw [← hids, List.toFinset_card_of_nodup (nodup_ids_firsts links), ids, List.length_map]

end Isnad.ChainLink
