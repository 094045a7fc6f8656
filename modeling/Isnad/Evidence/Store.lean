import Isnad.Evidence.Basic

/-! # Evidence by identifier -/

namespace Isnad

/-- Items of evidence, no two of one identifier. -/
structure EvidenceStore where
  items : List Evidence
  distinct : items.Pairwise (·.id ≠ ·.id)
deriving DecidableEq, Repr

namespace EvidenceStore

def empty : EvidenceStore := ⟨[], .nil⟩

/-- The store with an item, in place of the one of its identifier. -/
def insert (s : EvidenceStore) (e : Evidence) : EvidenceStore where
  items := e :: s.items.filter (·.id ≠ e.id)
  distinct := by
    refine List.pairwise_cons.mpr ⟨fun x hx => ?_, s.distinct.filter _⟩
    exact Ne.symm (of_decide_eq_true (List.mem_filter.mp hx).2)

def get? (s : EvidenceStore) (id : Uuid) : Option Evidence := s.items.find? (·.id = id)

def size (s : EvidenceStore) : Nat := s.items.length

def isEmpty (s : EvidenceStore) : Bool := s.items.isEmpty

/-- Of the items of one identifier the last counts. -/
def ofList (es : List Evidence) : EvidenceStore := es.foldl insert empty

@[simp] theorem get?_insert_self (s : EvidenceStore) (e : Evidence) :
    (s.insert e).get? e.id = some e := by
  simp [insert, get?]

theorem get?_insert_of_ne (s : EvidenceStore) {e : Evidence} {id : Uuid} (h : e.id ≠ id) :
    (s.insert e).get? id = s.get? id := by
  simp only [insert, get?, List.find?_cons, h, decide_false, List.find?_filter]
  congr 1
  funext x
  by_cases hx : x.id = id
  · simp [hx, Ne.symm h]
  · simp [hx]

end EvidenceStore
end Isnad
