import Chip8.Proofs.Machine.Step

/-!
# What the checks of a step read

Whether a step fails, and which instruction it runs, is decided by the word at the counter and by
the checks of its instruction. Two machines that agree on these take the same step, each with the
effect on its own parts (`Machine.SameChecks.step_eq`).
-/

namespace Chip8.Machine

variable {m n : Machine}

/-- The machines have the same word at the same counter, and every check finds the same in both. -/
structure SameChecks (m n : Machine) : Prop where
  pc_eq : n.pc = m.pc
  word_eq : n.word = m.word
  fault?_eq : ∀ i address, n.advance.fault? i address = m.advance.fault? i address

namespace SameChecks

protected lemma refl (m : Machine) : m.SameChecks m :=
  ⟨rfl, rfl, fun _ _ => rfl⟩

lemma fetchFault?_eq (h : m.SameChecks n) : n.fetchFault? = m.fetchFault? := by
  rw [fetchFault?, fetchFault?, h.pc_eq]

/-- Both machines fail with the same fault, or both run the same instruction. -/
theorem step_eq (h : m.SameChecks n) (d d' : Dialect) :
    n.step d' = (m.step d).map fun s =>
      { s with machine := s.instruction.effect d' n.advance } := by
  rw [step, step, h.fetchFault?_eq, h.word_eq, h.pc_eq]
  split
  · rfl
  · cases hi : Instruction.identify m.word.toNat (some m.pc.toNat) with
    | error f => rfl
    | ok i =>
      have hw : n.word.toNat = i.encode.toNat := by
        rw [h.word_eq]
        exact identify_word_eq_ok_iff.mp hi
      dsimp only
      rw [h.fault?_eq, cycle_eq_effect hw]
      split <;> rfl

lemma step_eq_error (h : m.SameChecks n) {d d' : Dialect} {f : Fault} (hs : m.step d = .error f) :
    n.step d' = .error f := by
  rw [h.step_eq d d', hs]
  rfl

lemma step_eq_ok (h : m.SameChecks n) {d d' : Dialect} {s : Step} (hs : m.step d = .ok s) :
    n.step d' = .ok { s with machine := s.instruction.effect d' n.advance } := by
  rw [h.step_eq d d', hs]
  rfl

end SameChecks

end Chip8.Machine
