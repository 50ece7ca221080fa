import Chip8.Machine.Bounds
import Chip8.Proofs.Machine.Slots

/-!
# What the checks ask for

The conditions under which an image is loaded and a word is fetched. For each instruction that has
a check, the condition under which it passes, as a statement about the depth of the call stack or
about the index as a natural number. All other instructions pass.
-/

namespace Chip8

lemma Memory.rangeFault?_eq_none_iff {address length : Int} :
    rangeFault? address length = none ↔ 0 ≤ address ∧ address + length ≤ 4096 := by
  rw [rangeFault?, size]
  split
  · simp only [reduceCtorEq, false_iff]
    omega
  · simp only [true_iff]
    omega

/-- Natural numbers are never below the first address. -/
lemma Memory.rangeFault?_natCast (address length : Nat) :
    rangeFault? address length =
      if 4096 < address + length then some (.outOfBounds address length) else none := by
  rw [rangeFault?, size]
  congr 1
  simp only [eq_iff_iff]
  omega

lemma Memory.rangeFault?_natCast_eq_none_iff {address length : Nat} :
    rangeFault? address length = none ↔ address + length ≤ 4096 := by
  rw [rangeFault?_eq_none_iff]
  omega

namespace Machine

variable {m : Machine} {address : Int}

/-- An image is loaded if it fits into program space, and it changes only memory. -/
lemma load_eq_ok_iff {image : List UInt8} {n : Machine} :
    m.load image = .ok n ↔
      image.length ≤ 3584 ∧
        n = { m with memory := m.memory.writeAll Memory.programStart image } := by
  have hspace : Memory.programSpace = 3584 := rfl
  rw [load, hspace]
  split
  · simp only [reduceCtorEq, false_iff, not_and]
    omega
  next h => simp [Nat.not_lt.mp h, eq_comm]

lemma fetchFault?_eq_none_iff : m.fetchFault? = none ↔ m.pc.toNat ≤ 0xFFE := by
  rw [fetchFault?, Memory.rangeFault?_eq_none_iff]
  omega

lemma fault?_call_eq_none_iff {a : Fin 4096} :
    m.fault? (.call a) address = none ↔ m.stack.depth < 16 := by
  change (if (16 : Int) ≤ m.stack.depth then _ else none) = none ↔ _
  rw [ite_eq_right_iff]
  simp

lemma fault?_ret_eq_none_iff : m.fault? .ret address = none ↔ m.stack.depth ≠ 0 := by
  change (if m.stack.pointer = 0 then _ else none) = none ↔ _
  rw [Ne, CallStack.depth_eq_zero_iff, ite_eq_right_iff]
  simp

lemma fault?_draw_eq_none_iff {x y height : Fin 16} :
    m.fault? (.draw x y height) address = none ↔
      height = 0 ∨ m.index.toNat + height ≤ 4096 := by
  change (if height = 0 then none else Memory.rangeFault? m.index.toNat height) = none ↔ _
  rw [← Memory.rangeFault?_natCast_eq_none_iff]
  by_cases h : height = 0 <;> simp [h]

lemma fault?_storeDecimal_eq_none_iff {x : Fin 16} :
    m.fault? (.storeDecimal x) address = none ↔ m.index.toNat + 3 ≤ 4096 :=
  Memory.rangeFault?_natCast_eq_none_iff

lemma fault?_storeRegisters_eq_none_iff {x : Fin 16} :
    m.fault? (.storeRegisters x) address = none ↔ m.index.toNat + (x + 1) ≤ 4096 :=
  @Memory.rangeFault?_natCast_eq_none_iff m.index.toNat (x + 1)

lemma fault?_loadRegisters_eq_none_iff {x : Fin 16} :
    m.fault? (.loadRegisters x) address = none ↔ m.index.toNat + (x + 1) ≤ 4096 :=
  Memory.rangeFault?_natCast_eq_none_iff

lemma fault?_addIndex_eq_none_iff {x : Fin 16} :
    m.fault? (.addIndex x) address = none ↔
      m.index.toNat + (m.registers.get x).toNat ≤ 0xFFFF := by
  change (if 0xFFFF < m.index.toNat + (m.registers.get x).toNat then _ else none) = none ↔ _
  rw [ite_eq_right_iff]
  simp

end Machine

end Chip8
