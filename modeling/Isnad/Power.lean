/-! # Powers of two and of ten -/

namespace Isnad

def pow2 (n : Nat) : Nat := Nat.pow 2 n

def pow10 (n : Nat) : Nat := Nat.pow 10 n

@[simp] theorem pow2_zero : pow2 0 = 1 := rfl

theorem pow2_pos (n : Nat) : 0 < pow2 n := Nat.pow_pos (by decide)

theorem pow10_pos (n : Nat) : 0 < pow10 n := Nat.pow_pos (by decide)

end Isnad
