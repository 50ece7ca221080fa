import Chip8.Proofs.Instruction.Grammar
import Chip8.Proofs.Machine.Step

/-!
# Hazards

The reasons for which a step can fail, as one list in the order in which they count. Each has a
condition on the word at the counter and on the machine before the step, in natural numbers that
do not wrap. On a machine whose call stack is regular, the fault of a step is that of the first
hazard that applies, and without a hazard the step succeeds (`Machine.step_of_firstFault?`).
-/

namespace Chip8

/-- A condition under which a step fails, and the fault that it then ends with. -/
structure Hazard where
  applies : Bool
  fault : Fault

namespace Hazard

/-- The fault of the first hazard that applies. -/
def firstFault? (hazards : List Hazard) : Option Fault :=
  (hazards.find? (·.applies)).map (·.fault)

@[simp] lemma firstFault?_nil : firstFault? [] = none := rfl

@[simp] lemma firstFault?_cons (b : Bool) (f : Fault) (hazards : List Hazard) :
    firstFault? (⟨b, f⟩ :: hazards) = if b then some f else firstFault? hazards := by
  cases b <;> rfl

end Hazard

namespace Machine

variable {d : Dialect} {m : Machine}

/-- The two bytes at the counter as one number, the first byte the higher one. -/
def nextWord (m : Machine) : Nat :=
  256 * (m.memory.read m.pc.toNat).toNat + (m.memory.read (m.pc.toNat + 1)).toNat

/-- The hazards of the next step. The first one that applies counts. -/
def hazards (m : Machine) : List Hazard :=
  let pc := m.pc.toNat
  let n := m.nextWord
  let w := Word.ofNat n
  let index := m.index.toNat
  let target := index + (m.registers.get w.x).toNat
  [⟨0xFFE < pc, .outOfBounds pc 2⟩,
   ⟨!isInstruction n, .unknownWord n (some pc)⟩,
   ⟨isInstance "2NNN" n ∧ m.stack.depth = 16, .stackOverflow pc 16⟩,
   ⟨isInstance "00EE" n ∧ m.stack.depth = 0, .stackUnderflow pc⟩,
   ⟨isInstance "DXYN" n ∧ 0 < (w.n : Nat) ∧ 4096 < index + w.n, .outOfBounds index w.n⟩,
   ⟨isInstance "FX33" n ∧ 4096 < index + 3, .outOfBounds index 3⟩,
   ⟨(isInstance "FX55" n ∨ isInstance "FX65" n) ∧ 4096 < index + (w.x + 1),
    .outOfBounds index (w.x + 1)⟩,
   ⟨isInstance "FX1E" n ∧ 0xFFFF < target, .outOfBounds target 1⟩]

lemma nextWord_eq (h : m.pc.toNat ≤ 0xFFE) : m.nextWord = m.word.toNat := by
  rw [nextWord, toNat_word, toNat_pc_add_one h]

lemma Runs.nextWord_eq {i : Instruction} (h : m.Runs i) : m.nextWord = i.encode.toNat :=
  (Machine.nextWord_eq h.pc_le).trans h.word_eq

/-- An instruction has no hazard but the one that its own check looks for. -/
lemma firstFault?_hazards {i : Instruction} (hs : m.stack.Regular) (hpc : m.pc.toNat ≤ 0xFFE)
    (hw : m.word.toNat = i.encode.toNat) :
    Hazard.firstFault? m.hazards = m.advance.fault? i m.pc.toNat := by
  have hnext : m.nextWord = i.encode.toNat := (nextWord_eq hpc).trans hw
  have hin : isInstruction i.encode.toNat = true := by
    rw [Instruction.isInstruction_toNat, Instruction.ofWord?_encode]
    rfl
  have hfetch : ¬ 0xFFE < m.pc.toNat := by omega
  simp (disch := decide) only [hazards, hnext, hin, hfetch, Instruction.isInstance_encode,
    Hazard.firstFault?_cons, Hazard.firstFault?_nil, Word.ofNat_toNat, decide_eq_true_eq,
    Bool.not_true, Bool.false_eq_true, if_false]
  cases i with
  | call a =>
    have hle := hs.depth_le
    change _ = if (16 : Int) ≤ m.stack.depth then
      some (Fault.stackOverflow m.pc.toNat m.stack.depth) else none
    by_cases hd : m.stack.depth = 16
    · simp [Instruction.template, hd]
    · simp [Instruction.template, hd, show ¬ (16 : Int) ≤ m.stack.depth by omega]
  | ret =>
    change _ = if m.stack.pointer = 0 then some (Fault.stackUnderflow m.pc.toNat) else none
    simp [Instruction.template, CallStack.depth_eq_zero_iff]
  | draw x y height =>
    change _ = if height = 0 then none else Memory.rangeFault? m.index.toNat height
    rw [Memory.rangeFault?_natCast]
    by_cases hz : height = 0
    · simp [Instruction.template, Instruction.encode, hz]
    · have hpos : 0 < (height : Nat) := by omega
      simp [Instruction.template, Instruction.encode, hz, hpos]
  | storeDecimal x =>
    change _ = Memory.rangeFault? m.index.toNat (3 : Nat)
    rw [Memory.rangeFault?_natCast]
    simp [Instruction.template]
  | storeRegisters x =>
    change _ = Memory.rangeFault? m.index.toNat (x + 1 : Nat)
    rw [Memory.rangeFault?_natCast]
    simp [Instruction.template, Instruction.encode]
  | loadRegisters x =>
    change _ = Memory.rangeFault? m.index.toNat (x + 1 : Nat)
    rw [Memory.rangeFault?_natCast]
    simp [Instruction.template, Instruction.encode]
  | addIndex x =>
    change _ = if 0xFFFF < m.index.toNat + (m.registers.get x).toNat then
      some (Fault.outOfBounds (m.index.toNat + (m.registers.get x).toNat : Nat) 1) else none
    simp [Instruction.template, Instruction.encode]
  | operate op x y =>
    cases op <;> (simp [Instruction.template]; rfl)
  | _ =>
    simp [Instruction.template]
    rfl

/-- A step ends with the fault of the first hazard that applies, or it succeeds with the word at
the counter. -/
theorem step_of_firstFault? (d : Dialect) (hs : m.stack.Regular) :
    match Hazard.firstFault? m.hazards with
    | some f => m.step d = .error f
    | none => ∃ s, m.step d = .ok s ∧ s.word.toNat = m.nextWord := by
  rcases Nat.lt_or_ge 0xFFE m.pc.toNat with hpc | hpc
  · have hfetch : m.fetchFault? = some (.outOfBounds m.pc.toNat 2) := by
      change Memory.rangeFault? m.pc.toNat (2 : Nat) = _
      rw [Memory.rangeFault?_natCast, if_pos (by omega)]
      rfl
    simp [step, hfetch, hazards, hpc]
  · rw [step, fetchFault?_eq_none_iff.mpr hpc]
    dsimp only
    cases hi : Instruction.identify m.word.toNat (some m.pc.toNat) with
    | error f =>
      obtain ⟨hin, rfl⟩ := Instruction.eq_of_identify_eq_error m.word.toNat_lt hi
      have hfetch : ¬ 0xFFE < m.pc.toNat := by omega
      simp [hazards, nextWord_eq hpc, hin, hfetch]
    | ok i =>
      rw [firstFault?_hazards hs hpc (identify_word_eq_ok_iff.mp hi), nextWord_eq hpc]
      dsimp only
      cases m.advance.fault? i m.pc.toNat with
      | some f => rfl
      | none => exact ⟨_, rfl, rfl⟩

end Machine

end Chip8
