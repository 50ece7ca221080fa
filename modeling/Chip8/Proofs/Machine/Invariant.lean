import Chip8.Proofs.Machine.Frame
import Chip8.Proofs.Machine.Step

/-!
# Regular machines

A machine is regular if its call stack is, its program counter is in memory or not far behind it,
and a wait is for one of the sixteen registers at an address from which an instruction can be
fetched. The machine is regular when it is switched on, and it stays so under everything that a
host does to it. The clauses need one another: a return takes the counter from the stack, and the
end of a wait moves the counter from where the wait began.
-/

namespace Chip8.Machine

variable {d : Dialect} {m : Machine}

/-- What is true of the stack, the counter and a wait as long as steps are checked. -/
structure Regular (m : Machine) : Prop where
  stack : m.stack.Regular
  pc_le : m.pc.toNat ≤ 0x10FE
  keyRegister_le : m.keyRegister.toNat ≤ 15
  pc_le_of_awaiting : m.awaiting = true → m.pc.toNat ≤ 0xFFE

namespace Regular

protected lemma fresh (seed : Int64) : (fresh seed).Regular where
  stack := .empty
  pc_le := show (UInt16.ofNat Memory.programStart).toNat ≤ 0x10FE by decide
  keyRegister_le := show (0 : UInt8).toNat ≤ 15 by decide
  pc_le_of_awaiting h := nomatch h

/-- Loading an image only writes memory. -/
lemma load {image : List UInt8} {n : Machine} (h : m.Regular) (hn : m.load image = .ok n) :
    n.Regular := by
  obtain ⟨-, rfl⟩ := load_eq_ok_iff.mp hn
  exact ⟨h.stack, h.pc_le, h.keyRegister_le, h.pc_le_of_awaiting⟩

lemma tick (h : m.Regular) : m.tick.Regular :=
  ⟨h.stack, h.pc_le, h.keyRegister_le, h.pc_le_of_awaiting⟩

lemma setKeypad (h : m.Regular) (p : Keypad) : { m with keypad := p }.Regular :=
  ⟨h.stack, h.pc_le, h.keyRegister_le, h.pc_le_of_awaiting⟩

lemma setMemory (h : m.Regular) (k : Memory) : { m with memory := k }.Regular :=
  ⟨h.stack, h.pc_le, h.keyRegister_le, h.pc_le_of_awaiting⟩

/-- The end of a wait moves the counter by one word, from an address of an instruction. -/
lemma poll (h : m.Regular) : m.poll.Regular := by
  cases ha : m.awaiting with
  | false =>
    rw [poll_of_not_awaiting ha]
    exact h
  | true =>
    cases hk : m.keypad.lowest? with
    | none =>
      rw [poll_of_released hk]
      exact h
    | some k =>
      have hpc := h.pc_le_of_awaiting ha
      rw [poll_of_down ha hk]
      refine ⟨h.stack, ?_, h.keyRegister_le, fun h' => nomatch h'⟩
      simp only [UInt16.toNat_add, UInt16.reduceToNat]
      omega

end Regular

/-! ### Steps -/

/-- A step that begins a wait changes nothing else: the counter moves on and back again. -/
theorem effect_awaitKey_of_released (h : m.keypad.lowest? = none) (x : Fin 16) :
    (Instruction.awaitKey x).effect d m.advance =
      { m with awaiting := true, keyRegister := UInt8.ofNat x } := by
  have hpc : m.pc + 2 - 2 = m.pc := UInt16.add_sub_cancel m.pc 2
  simp only [Instruction.effect, awaitKey_of_released (m := m.advance) h]
  simp only [advance, hpc]

/-- A wait is begun by an instruction that waits for a key and finds none down. -/
lemma exists_awaitKey_of_awaiting {i : Instruction} (ha : m.awaiting = false)
    (h : (i.effect d m.advance).awaiting = true) :
    ∃ x, i = .awaitKey x ∧ m.keypad.lowest? = none := by
  rw [Instruction.awaiting_effect] at h
  cases i with
  | awaitKey x => exact ⟨x, rfl, by simpa [ha] using h⟩
  | _ => exact absurd (ha.symm.trans h) (by decide)

namespace Regular

lemma stack_effect {i : Instruction} (h : m.Regular) (hr : m.Runs i) :
    (i.effect d m.advance).stack.Regular := by
  rw [Instruction.stack_effect]
  cases i with
  | ret => exact h.stack.pop (fault?_ret_eq_none_iff.mp hr.passes)
  | call a =>
    have hpc := toNat_pc_advance hr.pc_le
    have hle := hr.pc_le
    exact h.stack.push ((fault?_call_eq_none_iff (a := a)).mp hr.passes) (by omega) (by omega)
  | _ => exact h.stack

/-- What an instruction does at the next step keeps the machine regular. -/
theorem effect {i : Instruction} (h : m.Regular) (ha : m.awaiting = false) (hr : m.Runs i) :
    (i.effect d m.advance).Regular := by
  have hpc := toNat_pc_advance hr.pc_le
  have hle := hr.pc_le
  refine ⟨h.stack_effect hr, ?_, ?_, fun haw => ?_⟩
  · exact Instruction.pc_effect_le h.stack (by omega) (by omega) hr.passes
  · rw [Instruction.keyRegister_effect]
    cases i with
    | awaitKey x =>
      have := h.keyRegister_le
      simp only [keyRegister_advance]
      split <;> simp <;> omega
    | _ => exact h.keyRegister_le
  · obtain ⟨x, rfl, hk⟩ := exists_awaitKey_of_awaiting ha haw
    rw [effect_awaitKey_of_released hk]
    exact hr.pc_le

theorem step {s : Step} (h : m.Regular) (ha : m.awaiting = false) (hs : m.step d = .ok s) :
    s.machine.Regular := by
  obtain ⟨hr, hs⟩ := step_eq_ok_iff.mp hs
  rw [hs]
  exact h.effect ha hr

end Regular

end Chip8.Machine
