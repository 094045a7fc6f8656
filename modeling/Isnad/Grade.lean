import Isnad.Label

/-! # Letter grades -/

namespace Isnad

/-- Strength of evidence, from the strongest to the weakest. -/
inductive Grade where
  | a | b | c | d
deriving DecidableEq, Repr

namespace Grade

instance : Labelled Grade where
  all := [.a, .b, .c, .d]
  label
    | .a => "A"
    | .b => "B"
    | .c => "C"
    | .d => "D"
  find?_label g := by cases g <;> decide

/-- The number of steps below the strongest grade. -/
def rank : Grade → Nat
  | .a => 0
  | .b => 1
  | .c => 2
  | .d => 3

theorem rank_injective {g h : Grade} (e : g.rank = h.rank) : g = h := by
  cases g <;> cases h <;> first | rfl | cases e

theorem rank_le (g : Grade) : g.rank ≤ 3 := by cases g <;> decide

/-- `g ≤ h` says that `h` is at least as strict, that is, no stronger. -/
instance : LE Grade := ⟨fun g h => g.rank ≤ h.rank⟩

instance (g h : Grade) : Decidable (g ≤ h) := inferInstanceAs (Decidable (g.rank ≤ h.rank))

theorem le_def {g h : Grade} : g ≤ h ↔ g.rank ≤ h.rank := Iff.rfl

/-- One step stronger, where there is one. -/
def upgraded : Grade → Grade
  | .a | .b => .a
  | .c => .b
  | .d => .c

/-- One step weaker, where there is one. -/
def downgraded : Grade → Grade
  | .a => .b
  | .b => .c
  | .c | .d => .d

@[simp] theorem rank_upgraded (g : Grade) : g.upgraded.rank = g.rank - 1 := by cases g <;> rfl

@[simp] theorem rank_downgraded (g : Grade) : g.downgraded.rank = min 3 (g.rank + 1) := by
  cases g <;> rfl

/-- The weaker of two grades. -/
def stricter (g h : Grade) : Grade := if g ≤ h then h else g

@[simp] theorem rank_stricter (g h : Grade) : (g.stricter h).rank = max g.rank h.rank := by
  cases g <;> cases h <;> rfl

/-- The grade under a cap, which only ever makes it weaker. -/
def cappedBy (g : Grade) : Option Grade → Grade
  | some cap => g.stricter cap
  | none => g

/-- The weakest grade of a list. -/
def strictest? : List Grade → Option Grade
  | [] => none
  | g :: gs => some (gs.foldl stricter g)

/-- The strictest of the caps that are set. -/
def strictestCap (caps : List (Option Grade)) : Option Grade := strictest? (caps.filterMap id)

end Grade
end Isnad
