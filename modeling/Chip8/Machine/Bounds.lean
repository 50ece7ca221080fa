import Chip8.Instruction.Basic
import Chip8.Machine.Basic

/-!
# Bounds

An instruction may run only if it stays within the machine: its bytes and the bytes that it
touches lie in memory, a call finds a free slot, a return finds an address, and the index does
not wrap when it is increased. Each check gives the fault that it finds.
-/

namespace Chip8

/-- The fault of touching `length` bytes from `address` on. -/
def Memory.rangeFault? (address length : Int) : Option Fault :=
  if address < 0 ∨ (Memory.size : Int) < address + length then
    some (.outOfBounds address length)
  else none

namespace Machine

/-- The fault of fetching a word. -/
def fetchFault? (m : Machine) : Option Fault :=
  Memory.rangeFault? m.pc.toNat 2

/-- The fault of running an instruction that was fetched from `address`. -/
def fault? (m : Machine) (i : Instruction) (address : Int) : Option Fault :=
  match i with
  | .call _ =>
    if (CallStack.size : Int) ≤ m.stack.pointer.toInt then
      some (.stackOverflow address m.stack.pointer.toInt)
    else none
  | .ret => if m.stack.pointer = 0 then some (.stackUnderflow address) else none
  | .draw _ _ height =>
    if height = 0 then none else Memory.rangeFault? m.index.toNat height
  | .storeDecimal _ => Memory.rangeFault? m.index.toNat 3
  | .storeRegisters x | .loadRegisters x => Memory.rangeFault? m.index.toNat (x + 1)
  | .addIndex x =>
    let target := m.index.toNat + (m.registers.get x).toNat
    if 0xFFFF < target then some (.outOfBounds target 1) else none
  | _ => none

end Machine

end Chip8
