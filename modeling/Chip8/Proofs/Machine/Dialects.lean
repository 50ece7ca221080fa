import Chip8.Proofs.Instruction.Grammar
import Chip8.Proofs.Machine.Checks

/-!
# Where dialects matter

Each switch of a dialect is read by few instructions, and some of these do not depend on it for all
operands. Two dialects disagree on a word if they differ in a switch that the word depends on, and
on all other words they come to the same (`Instruction.effect_congr`). So a step depends on the
dialect only if it runs a word on which dialects can disagree (`Machine.step_congr`).
-/

namespace Chip8

/-- The dialects differ in a switch on which the instruction of a word depends. A shift depends on
its switch only if it has two registers, and a jump with offset only if the first digit of its
target does not name V0. -/
def Dialect.DisagreeOn (d d' : Dialect) (n : Nat) : Prop :=
  let w := Word.ofNat n
  (d.shiftReadsVY ≠ d'.shiftReadsVY ∧
      (isInstance "8XY6" n = true ∨ isInstance "8XYE" n = true) ∧ w.x ≠ w.y) ∨
    (d.transferMovesI ≠ d'.transferMovesI ∧
      (isInstance "FX55" n = true ∨ isInstance "FX65" n = true)) ∨
    (d.logicClearsVF ≠ d'.logicClearsVF ∧
      (isInstance "8XY1" n = true ∨ isInstance "8XY2" n = true ∨ isInstance "8XY3" n = true)) ∨
    (d.jumpReadsVX ≠ d'.jumpReadsVX ∧ isInstance "BNNN" n = true ∧ w.x ≠ 0)

instance (d d' : Dialect) (n : Nat) : Decidable (d.DisagreeOn d' n) :=
  inferInstanceAs (Decidable (_ ∨ _ ∨ _ ∨ _))

lemma Dialect.not_disagreeOn_self (d : Dialect) (n : Nat) : ¬ d.DisagreeOn d n := by
  simp [DisagreeOn]

namespace Instruction

variable {d d' : Dialect}

/-- The condition in terms of an instruction. -/
lemma disagreeOn_encode_iff (i : Instruction) :
    d.DisagreeOn d' i.encode.toNat ↔
      (d.shiftReadsVY ≠ d'.shiftReadsVY ∧ (i.template = "8XY6" ∨ i.template = "8XYE") ∧
          i.encode.x ≠ i.encode.y) ∨
        (d.transferMovesI ≠ d'.transferMovesI ∧ (i.template = "FX55" ∨ i.template = "FX65")) ∨
        (d.logicClearsVF ≠ d'.logicClearsVF ∧
          (i.template = "8XY1" ∨ i.template = "8XY2" ∨ i.template = "8XY3")) ∨
        (d.jumpReadsVX ≠ d'.jumpReadsVX ∧ i.template = "BNNN" ∧ i.encode.x ≠ 0) := by
  simp (disch := decide) only [Dialect.DisagreeOn, isInstance_encode, Word.ofNat_toNat]

/-- An operation depends on the dialect by the register that it reads first and by whether it sets
the flag. -/
lemma operate_congr {op : Operation} {x y : Fin 16}
    (hread : op.readsSecond d = op.readsSecond d' ∨ x = y) (hflag : op.setsFlag d = op.setsFlag d')
    (m : Machine) : m.operate d op x y = m.operate d' op x y := by
  have hfirst : (if op.readsSecond d then y else x) = if op.readsSecond d' then y else x := by
    rcases hread with hread | rfl
    · rw [hread]
    · rw [ite_self, ite_self]
  rw [Machine.operate, Machine.operate, hfirst, hflag]

/-- The first digit of the target decides whether a jump with offset depends on the dialect. -/
lemma offsetRegister_congr {a : Fin 4096}
    (h : d.jumpReadsVX = d'.jumpReadsVX ∨ (a : Nat) / 256 = 0) :
    d.offsetRegister a = d'.offsetRegister a := by
  rw [Dialect.offsetRegister, Dialect.offsetRegister]
  rcases h with h | h
  · rw [h]
  · have hzero : (⟨(a : Nat) / 256, by omega⟩ : Fin 16) = 0 := Fin.ext h
    rw [hzero, ite_self, ite_self]

/-- Two dialects that do not disagree on the word of an instruction come to the same. -/
theorem effect_congr {i : Instruction} (h : ¬ d.DisagreeOn d' i.encode.toNat) (m : Machine) :
    i.effect d m = i.effect d' m := by
  rw [disagreeOn_encode_iff, not_or, not_or, not_or] at h
  obtain ⟨hshift, htransfer, hlogic, hjump⟩ := h
  cases i with
  | operate op x y =>
    change m.operate d op x y = m.operate d' op x y
    cases op with
    | shiftRight | shiftLeft =>
      apply operate_congr
      · by_cases hxy : x = y
        · exact .inr hxy
        · left
          by_contra hs
          exact hshift ⟨hs, by simp [template], hxy⟩
      · rfl
    | or | and | xor =>
      apply operate_congr
      · exact .inl rfl
      · by_contra hl
        exact hlogic ⟨hl, by simp [template]⟩
    | _ => rfl
  | jumpOffset a =>
    have hoffset : d.offsetRegister a = d'.offsetRegister a := by
      apply offsetRegister_congr
      by_cases hx : Fin.ofNat 16 ((a : Nat) / 256) = 0
      · have hx : (a : Nat) / 256 % 16 = 0 := congrArg Fin.val hx
        exact .inr (by omega)
      · left
        by_contra hj
        exact hjump ⟨hj, rfl, hx⟩
    simp only [effect, hoffset]
  | storeRegisters x | loadRegisters x =>
    have ht : d.transferMovesI = d'.transferMovesI := by
      by_contra ht
      exact htransfer ⟨ht, by simp [template]⟩
    simp only [effect, Machine.moveIndex, ht]
  | _ => rfl

end Instruction

/-- A step reads the dialect only for the instruction that it runs. -/
theorem Machine.step_congr {d d' : Dialect} {m : Machine}
    (h : ∀ s, m.step d = .ok s → ¬ d.DisagreeOn d' s.word.toNat) : m.step d' = m.step d := by
  cases hs : m.step d with
  | error f => exact (SameChecks.refl m).step_eq_error hs
  | ok s =>
    obtain ⟨hr, heq⟩ := step_eq_ok_iff.mp hs
    have hw : s.word.toNat = s.instruction.encode.toNat := by
      rw [heq]
      exact hr.word_eq
    have hagree := h s hs
    rw [hw] at hagree
    rw [(SameChecks.refl m).step_eq_ok hs, ← Instruction.effect_congr hagree, heq]

end Chip8
