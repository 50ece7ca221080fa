import Chip8.Machine.Effect

/-!
# Cycles

In one cycle the machine fetches the word at the program counter, moves the counter behind it
and runs it. Nothing is checked: the bytes of the word follow the rule of memory for addresses
out of range.
-/

namespace Chip8.Machine

/-- The word at the program counter, its first byte the higher one. -/
def word (m : Machine) : UInt16 :=
  UInt16.ofNat (256 * (m.memory.read m.pc.toNat).toNat + (m.memory.read (m.pc + 1).toNat).toNat)

theorem toNat_word (m : Machine) :
    m.word.toNat =
      256 * (m.memory.read m.pc.toNat).toNat + (m.memory.read (m.pc + 1).toNat).toNat := by
  have hi := (m.memory.read m.pc.toNat).toNat_lt
  have lo := (m.memory.read (m.pc + 1).toNat).toNat_lt
  rw [word, UInt16.toNat_ofNat', Nat.mod_eq_of_lt (by omega)]

/-- Move the program counter behind the word. -/
def advance (m : Machine) : Machine :=
  { m with pc := m.pc + 2 }

def cycle (d : Dialect) (m : Machine) : Machine :=
  m.advance.execute d m.word.toNat

end Chip8.Machine
