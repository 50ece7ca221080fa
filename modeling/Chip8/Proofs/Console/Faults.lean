import Chip8.Proofs.Console.Invariant
import Chip8.Proofs.Machine.Hazards

/-!
# Faults of steps

Whether a step of a console fails, and by which fault, is decided by the hazards of its machine
(`Console.step_fault_eq_first_hazard`). A step during a wait never fails.
-/

namespace Chip8.Console

variable {c : Console}

lemma step_of_fault (hi : c.image.isSome) (ha : c.machine.awaiting = false) {f : Fault}
    (hs : c.machine.step c.dialect = .error f) : c.step.answer = .error (.fault f) := by
  rw [step_eq_fail hi ha hs]
  rfl

/-- On a console that a host can bring about and that has an image, a step during a wait
succeeds. Any other step fails by the first hazard that applies, and it succeeds with the word at
the counter if there is none. -/
theorem step_fault_eq_first_hazard (hc : c.Reachable) (hi : c.image.isSome) :
    (c.machine.awaiting = true → c.step.answer = .ok .done) ∧
      (c.machine.awaiting = false →
        match Hazard.firstFault? c.machine.hazards with
        | some f => c.step.answer = .error (.fault f)
        | none => ∃ w, c.step.answer = .ok (.word w) ∧ w.toNat = c.machine.nextWord) := by
  refine ⟨fun ha => (step_of_awaiting hi ha).1, fun ha => ?_⟩
  have hstep := Machine.step_of_firstFault? c.dialect hc.regular.machine.stack
  cases hf : Hazard.firstFault? c.machine.hazards with
  | some f =>
    rw [hf] at hstep
    exact step_of_fault hi ha hstep
  | none =>
    rw [hf] at hstep
    obtain ⟨s, hs, hw⟩ := hstep
    exact ⟨s.word, (step_of_not_awaiting hi ha hs).1, hw⟩

/-- A program that calls itself has used up the stack after sixteen calls. -/
theorem step_fault_eq_first_hazard_of_endless_calls :
    let c := (new .modern 0 {}).after (.start [0x22, 0x00] :: List.replicate 16 .step)
    c.step.answer = .error (.fault (.stackOverflow 0x200 16)) := by
  intro c
  have hc : c.Reachable := ⟨_, _, _, _, rfl⟩
  obtain ⟨hi, ha, hfirst⟩ : c.image.isSome = true ∧ c.machine.awaiting = false ∧
      Hazard.firstFault? c.machine.hazards = some (.stackOverflow 0x200 16) := by
    decide +kernel
  have hfault := step_fault_eq_first_hazard hc hi
  rw [hfirst] at hfault
  exact hfault.2 ha

end Chip8.Console
