import Chip8.Instruction.Pattern
import Chip8.Machine.Bounds
import Chip8.Machine.Cycle

/-!
# Checked steps

A checked step is a cycle that takes place only if no check finds a fault. The fetch is checked
first, the word next, and the instruction that it is last.
-/

namespace Chip8.Machine

/-- What a checked step did: the word, its instruction and the machine afterwards. -/
structure Step where
  word : UInt16
  instruction : Instruction
  machine : Machine
deriving DecidableEq

/-- Fetch a word and run it, unless a check finds a fault. -/
def step (d : Dialect) (m : Machine) : Except Fault Step :=
  match m.fetchFault? with
  | some f => .error f
  | none =>
    match Instruction.identify m.word.toNat (some m.pc.toNat) with
    | .error f => .error f
    | .ok i =>
      match m.advance.fault? i m.pc.toNat with
      | some f => .error f
      | none => .ok ⟨m.word, i, m.cycle d⟩

end Chip8.Machine
