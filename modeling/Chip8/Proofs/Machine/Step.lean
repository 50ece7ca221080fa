import Chip8.Machine.Step
import Chip8.Proofs.Instruction.Encoding
import Chip8.Proofs.Machine.Bounds

/-!
# Successful steps

A checked step succeeds just when the two bytes at the program counter lie in memory, form the
word of an instruction and this instruction passes its check. It then does what the instruction
does to the machine whose counter has moved on (`Machine.step_eq_ok_iff`).
-/

namespace Chip8

open Instruction

namespace Machine

variable {d : Dialect} {m : Machine}

lemma toNat_pc_add_one (h : m.pc.toNat ≤ 0xFFE) : (m.pc + 1).toNat = m.pc.toNat + 1 := by
  rw [UInt16.toNat_add]
  simp only [UInt16.reduceToNat]
  omega

/-! ### Moving the counter -/

@[simp] lemma pc_advance : m.advance.pc = m.pc + 2 := rfl

@[simp] lemma stack_advance : m.advance.stack = m.stack := rfl

@[simp] lemma awaiting_advance : m.advance.awaiting = m.awaiting := rfl

@[simp] lemma keyRegister_advance : m.advance.keyRegister = m.keyRegister := rfl

@[simp] lemma keypad_advance : m.advance.keypad = m.keypad := rfl

@[simp] lemma memory_advance : m.advance.memory = m.memory := rfl

lemma toNat_pc_advance (h : m.pc.toNat ≤ 0xFFE) : m.advance.pc.toNat = m.pc.toNat + 2 := by
  rw [pc_advance, UInt16.toNat_add]
  simp only [UInt16.reduceToNat]
  omega

/-! ### Steps -/

/-- The next step of the machine runs `i`: the counter is at the word of `i`, and `i` passes its
check. -/
structure Runs (m : Machine) (i : Instruction) : Prop where
  pc_le : m.pc.toNat ≤ 0xFFE
  word_eq : m.word.toNat = i.encode.toNat
  passes : m.advance.fault? i m.pc.toNat = none

/-- The number of a word is read as an instruction just when it is the word of the instruction. -/
lemma identify_word_eq_ok_iff {i : Instruction} {address : Option Int} :
    identify m.word.toNat address = .ok i ↔ m.word.toNat = i.encode.toNat := by
  rw [identify_eq_ok_iff, Word.ofInt_natCast, ← Word.toNat_inj, Word.toNat_ofNat,
    Nat.mod_eq_of_lt m.word.toNat_lt]

lemma cycle_eq_effect {i : Instruction} (h : m.word.toNat = i.encode.toNat) :
    m.cycle d = i.effect d m.advance := by
  rw [cycle, execute, h, dispatch?_of_ofWord? (ofWord?_encode i)]

/-- What a successful step is. -/
theorem step_eq_ok_iff {s : Step} :
    m.step d = .ok s ↔
      m.Runs s.instruction ∧ s = ⟨m.word, s.instruction, s.instruction.effect d m.advance⟩ := by
  constructor
  · intro h
    rw [step] at h
    split at h
    · cases h
    next hf =>
      split at h
      · cases h
      next i hi =>
        split at h
        · cases h
        next hp =>
          obtain rfl := Except.ok.inj h
          have hw := identify_word_eq_ok_iff.mp hi
          exact ⟨⟨fetchFault?_eq_none_iff.mp hf, hw, hp⟩, by rw [cycle_eq_effect hw]⟩
  · rintro ⟨⟨hpc, hw, hp⟩, hs⟩
    rw [step, fetchFault?_eq_none_iff.mpr hpc, identify_word_eq_ok_iff.mpr hw]
    simp only [hp]
    rw [hs, cycle_eq_effect hw]

end Machine

end Chip8
