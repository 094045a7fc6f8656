import Mathlib.Logic.Relation
import Mathlib.Data.List.Nodup
import Mathlib.Data.List.Basic

/-!
# Trees given by the parent of each node

A chain names the parent of each of its nodes. It is a tree when no name is repeated, every parent
is in the chain, one node has no parent, and every node descends from that one. No node of a tree
descends from itself (`IsTree.acyclic`). A tree stays one in any order of its nodes
(`IsTree.of_perm`). Under other names for its nodes a chain is still a tree exactly when the new
names tell the nodes apart; it becomes one only where a parent was called otherwise than its node
(`isTree_and_distinct_iff`).
-/

namespace Isnad

/-- Nodes by their names, each with the name of its parent. -/
abbrev Lineage (α : Type) := List (α × Option α)

namespace Lineage

variable {α β : Type} {l : Lineage α}

def names (l : Lineage α) : List α := l.map Prod.fst

/-- A node named `c` has `p` for its parent. -/
def IsParent (l : Lineage α) (p c : α) : Prop := (c, some p) ∈ l

/-- Following parents from `x` leads to `a`, in any number of steps. -/
def Descends (l : Lineage α) (a x : α) : Prop := Relation.ReflTransGen l.IsParent a x

/-- A chain with a single root from which all of its nodes descend. -/
structure IsTree (l : Lineage α) : Prop where
  distinct : l.names.Nodup
  closed : ∀ p c, l.IsParent p c → p ∈ l.names
  rooted : ∃! r, (r, none) ∈ l
  connected : ∀ r, (r, none) ∈ l → ∀ x ∈ l.names, l.Descends r x

theorem mem_names {e : α × Option α} (h : e ∈ l) : e.1 ∈ l.names := List.mem_map_of_mem h

theorem IsParent.child_mem {p c : α} (h : l.IsParent p c) : c ∈ l.names := mem_names h

/-- A name stands for one node. -/
theorem parent_eq (hd : l.names.Nodup) {x : α} {p q : Option α} (hp : (x, p) ∈ l)
    (hq : (x, q) ∈ l) : p = q :=
  congrArg Prod.snd (List.inj_on_of_nodup_map hd hp hq rfl)

theorem IsParent.unique (hd : l.names.Nodup) {p q c : α} (hp : l.IsParent p c)
    (hq : l.IsParent q c) : p = q := Option.some.inj (parent_eq hd hp hq)

/-- What descends from a node that has no parent lies on no cycle. -/
theorem Descends.not_cyclic (hd : l.names.Nodup) {r x : α} (hr : (r, none) ∈ l)
    (h : l.Descends r x) : ¬ Relation.TransGen l.IsParent x x := by
  induction h with
  | refl =>
    intro hc
    obtain ⟨p, -, hp⟩ := Relation.TransGen.tail'_iff.mp hc
    exact absurd (parent_eq hd hr hp) (by simp)
  | @tail b c _ hbc ih =>
    intro hc
    obtain ⟨p, hcp, hp⟩ := Relation.TransGen.tail'_iff.mp hc
    obtain rfl := hbc.unique hd hp
    exact ih (Relation.TransGen.head' hbc hcp)

/-- No node of a tree descends from itself through others. -/
theorem IsTree.acyclic (h : l.IsTree) (x : α) : ¬ Relation.TransGen l.IsParent x x := by
  intro hc
  obtain ⟨p, -, hp⟩ := Relation.TransGen.tail'_iff.mp hc
  obtain ⟨r, hr, -⟩ := h.rooted
  exact (h.connected r hr x hp.child_mem).not_cyclic h.distinct hr hc

/-! ## Other orders of the nodes -/

theorem isParent_of_perm {l' : Lineage α} (h : l'.Perm l) : l'.IsParent = l.IsParent :=
  funext₂ fun _ _ => propext h.mem_iff

/-- A tree stays one in any order of its nodes. -/
theorem IsTree.of_perm {l' : Lineage α} (ht : l.IsTree) (h : l'.Perm l) : l'.IsTree where
  distinct := (h.map _).nodup_iff.mpr ht.distinct
  closed p c hpc := (h.map _).mem_iff.mpr (ht.closed p c (h.mem_iff.mp hpc))
  rooted := by simpa only [h.mem_iff] using ht.rooted
  connected r hr x hx := by
    rw [Descends, isParent_of_perm h]
    exact ht.connected r (h.mem_iff.mp hr) x ((h.map _).mem_iff.mp hx)

/-! ## Other names for the nodes -/

/-- The same nodes under other names. -/
def mapNames (f : α → β) (l : Lineage α) : Lineage β := l.map (Prod.map f (Option.map f))

theorem names_mapNames (f : α → β) (l : Lineage α) : (l.mapNames f).names = l.names.map f := by
  simp [names, mapNames, Function.comp_def]

theorem isParent_mapNames {f : α → β} {q d : β} :
    (l.mapNames f).IsParent q d ↔ ∃ p c, l.IsParent p c ∧ f p = q ∧ f c = d := by
  constructor
  · intro h
    obtain ⟨⟨c, p?⟩, he, heq⟩ := List.mem_map.mp h
    cases p? with
    | none => simp [Prod.map] at heq
    | some p =>
      simp only [Prod.map, Option.map_some, Prod.mk.injEq, Option.some.injEq] at heq
      exact ⟨p, c, he, heq.2, heq.1⟩
  · rintro ⟨p, c, h, rfl, rfl⟩
    exact List.mem_map.mpr ⟨_, h, rfl⟩

theorem root_mapNames {f : α → β} {s : β} :
    (s, none) ∈ l.mapNames f ↔ ∃ r, (r, none) ∈ l ∧ f r = s := by
  constructor
  · intro h
    obtain ⟨⟨r, p?⟩, he, heq⟩ := List.mem_map.mp h
    cases p? with
    | none => exact ⟨r, he, congrArg Prod.fst heq⟩
    | some p => simp [Prod.map] at heq
  · rintro ⟨r, h, rfl⟩
    exact List.mem_map.mpr ⟨_, h, rfl⟩

theorem Descends.mapNames (f : α → β) {a x : α} (h : l.Descends a x) :
    (l.mapNames f).Descends (f a) (f x) := by
  induction h with
  | refl => exact .refl
  | tail _ hbc ih => exact .tail ih (isParent_mapNames.mpr ⟨_, _, hbc, rfl, rfl⟩)

/-- A tree stays one under other names that tell its nodes apart. -/
theorem IsTree.mapNames (h : l.IsTree) {f : α → β} (hf : (l.names.map f).Nodup) :
    (l.mapNames f).IsTree where
  distinct := by rwa [names_mapNames]
  closed q d hqd := by
    obtain ⟨p, c, hpc, rfl, -⟩ := isParent_mapNames.mp hqd
    rw [names_mapNames]
    exact List.mem_map_of_mem (h.closed p c hpc)
  rooted := by
    obtain ⟨r, hr, huniq⟩ := h.rooted
    refine ⟨f r, root_mapNames.mpr ⟨r, hr, rfl⟩, fun s hs => ?_⟩
    obtain ⟨r', hr', rfl⟩ := root_mapNames.mp hs
    rw [huniq r' hr']
  connected s hs y hy := by
    obtain ⟨r, hr, rfl⟩ := root_mapNames.mp hs
    rw [names_mapNames] at hy
    obtain ⟨x, hx, rfl⟩ := List.mem_map.mp hy
    exact (h.connected r hr x hx).mapNames f

/-- Parents are called as their nodes are: a name that `f` takes for that of a parent is it. -/
def NamesAgree (f : α → β) (l : Lineage α) : Prop :=
  ∀ p c, l.IsParent p c → ∀ x ∈ l.names, f x = f p → x = p

theorem Descends.of_mapNames {f : α → β} (hf : (l.names.map f).Nodup) (ha : l.NamesAgree f)
    {r : α} (hr : r ∈ l.names) {y : β} (h : (l.mapNames f).Descends (f r) y) :
    ∀ x ∈ l.names, f x = y → l.Descends r x := by
  induction h with
  | refl =>
    intro x hx hxr
    rw [List.inj_on_of_nodup_map hf hx hr hxr]
    exact .refl
  | @tail b d hrb hbd ih =>
    intro x hx hxd
    obtain ⟨p, c, hpc, rfl, rfl⟩ := isParent_mapNames.mp hbd
    obtain rfl := List.inj_on_of_nodup_map hf hx hpc.child_mem hxd
    have hp : p ∈ l.names := by
      rcases Relation.ReflTransGen.cases_tail hrb with hpr | ⟨a, -, hab⟩
      · exact ha p x hpc r hr hpr.symm ▸ hr
      · obtain ⟨q, e, hqe, -, hep⟩ := isParent_mapNames.mp hab
        exact ha p x hpc e hqe.child_mem hep ▸ hqe.child_mem
    exact .tail (ih p hp rfl) hpc

/-- A chain is a tree if it is one under other names and its parents are called as their nodes. -/
theorem IsTree.of_mapNames {f : α → β} (h : (l.mapNames f).IsTree) (ha : l.NamesAgree f) :
    l.IsTree := by
  have hf : (l.names.map f).Nodup := names_mapNames f l ▸ h.distinct
  refine ⟨.of_map f hf, ?_, ?_, ?_⟩
  · intro p c hpc
    have hp := h.closed _ _ (isParent_mapNames.mpr ⟨p, c, hpc, rfl, rfl⟩)
    rw [names_mapNames] at hp
    obtain ⟨x, hx, hxp⟩ := List.mem_map.mp hp
    exact ha p c hpc x hx hxp ▸ hx
  · obtain ⟨s, hs, huniq⟩ := h.rooted
    obtain ⟨r, hr, rfl⟩ := root_mapNames.mp hs
    refine ⟨r, hr, fun r' hr' => ?_⟩
    have hrr := huniq _ (root_mapNames.mpr ⟨r', hr', rfl⟩)
    exact List.inj_on_of_nodup_map hf (mem_names hr') (mem_names hr) hrr
  · intro r hr x hx
    have hroot : (f r, none) ∈ l.mapNames f := root_mapNames.mpr ⟨r, hr, rfl⟩
    have hmem : f x ∈ (l.mapNames f).names := names_mapNames f l ▸ List.mem_map_of_mem hx
    exact (h.connected _ hroot _ hmem).of_mapNames hf ha (mem_names hr) x hx rfl

theorem isTree_mapNames_iff {f : α → β} (hf : f.Injective) : (l.mapNames f).IsTree ↔ l.IsTree := by
  constructor
  · exact fun h => h.of_mapNames fun _ _ _ _ _ hxp => hf hxp
  · exact fun h => h.mapNames (h.distinct.map hf)

/-- What other names do to a tree: it remains one unless two nodes get the same name, and it was
none before if a parent was called otherwise than its node. -/
theorem isTree_and_distinct_iff {f : α → β} :
    l.IsTree ∧ (l.names.map f).Nodup ↔ (l.mapNames f).IsTree ∧ l.NamesAgree f := by
  constructor
  · rintro ⟨h, hf⟩
    refine ⟨h.mapNames hf, fun p c hpc x hx hxp => ?_⟩
    exact List.inj_on_of_nodup_map hf hx (h.closed p c hpc) hxp
  · rintro ⟨h, ha⟩
    exact ⟨h.of_mapNames ha, names_mapNames f l ▸ h.distinct⟩

end Lineage
end Isnad
