/-!
# Sizes

Digits, registers, keys and slots are numbered below sixteen, and a sprite begins in one of 32 rows
and 64 columns. No size is zero, so that every number stands for a digit, a row or a column by its
remainder.
-/

namespace Chip8

-- These have names so that every module uses the same ones and makes no proofs of its own.

instance neZero_sixteen : @NeZero Nat Zero.ofOfNat0 16 := ⟨Nat.succ_ne_zero 15⟩

instance neZero_thirtyTwo : @NeZero Nat Zero.ofOfNat0 32 := ⟨Nat.succ_ne_zero 31⟩

instance neZero_sixtyFour : @NeZero Nat Zero.ofOfNat0 64 := ⟨Nat.succ_ne_zero 63⟩

theorem val_lt_sixteen (x : Fin 16) : (x : Nat) < 16 := x.isLt

theorem toNat_lt_sixteen {z : Int} (h : 0 ≤ z ∧ z < 16) : z.toNat < 16 := by
  omega

end Chip8
