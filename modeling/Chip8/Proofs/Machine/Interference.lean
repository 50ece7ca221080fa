import Chip8.Proofs.Instruction.Grammar
import Chip8.Proofs.Machine.Checks
import Chip8.Proofs.Machine.Frame

/-!
# Ticks and keys during a program

A tick changes the timers and a key event changes one key. No check sees either of them, and few
instructions do: three that move timers (`Instruction.effect_tick`), the instruction that waits for
a key, and the skips by the key in question (`Instruction.effect_press`).
-/

namespace Chip8

namespace Keypad

/-- Settings of different keys can be done in any order. -/
lemma set_comm {k j : Fin 16} (h : k ≠ j) (p : Keypad) (a b : Bool) :
    (p.set k a).set j b = (p.set j b).set k a := by
  ext i
  simp only [isDown_set]
  by_cases hj : j = i
  · have hk : k ≠ i := by
      intro hk
      exact h (hk.trans hj.symm)
    rw [if_pos hj, if_neg hk, if_pos hj]
  · rw [if_neg hj, if_neg hj]

end Keypad

namespace Machine

variable {m : Machine}

/-- Put one key up or down. -/
def press (m : Machine) (k : Fin 16) (down : Bool) : Machine :=
  { m with keypad := m.keypad.set k down }

/-- An update that leaves alone what decides about the course of a step: whether the program waits,
and what the checks find. -/
structure KeepsCourse (u : Machine → Machine) : Prop where
  checks : ∀ m : Machine, m.SameChecks (u m)
  awaiting_eq : ∀ m : Machine, (u m).awaiting = m.awaiting

lemma keepsCourse_tick : KeepsCourse tick :=
  ⟨fun _ => ⟨rfl, rfl, fun _ _ => rfl⟩, fun _ => rfl⟩

lemma keepsCourse_press (k : Fin 16) (down : Bool) : KeepsCourse fun m => m.press k down :=
  ⟨fun _ => ⟨rfl, rfl, fun _ _ => rfl⟩, fun _ => rfl⟩

lemma awaitKey_tick (m : Machine) (x : Fin 16) : m.tick.awaitKey x = (m.awaitKey x).tick := by
  have hkeypad : m.tick.keypad = m.keypad := rfl
  unfold awaitKey
  rw [hkeypad]
  cases m.keypad.lowest? <;> rfl

/-- A tick during a wait does not matter for the wait. -/
lemma poll_tick (m : Machine) : m.tick.poll = m.poll.tick := by
  have hawaiting : m.tick.awaiting = m.awaiting := rfl
  have hkeypad : m.tick.keypad = m.keypad := rfl
  unfold poll
  rw [hawaiting, hkeypad]
  cases m.awaiting
  · rfl
  · cases m.keypad.lowest? <;> rfl

/-- A skip by a key does not see the other keys. -/
lemma keyDown_press {x k : Fin 16} (h : (m.registers.get x).toNat % 16 ≠ k) (down : Bool) :
    (m.press k down).keyDown x = m.keyDown x := by
  have hk : k ≠ Fin.ofNat 16 (m.registers.get x).toNat := by
    intro hk
    exact h (congrArg Fin.val hk).symm
  exact (Keypad.isDown_set _ _ _ _).trans (if_neg hk)

end Machine

namespace Instruction

open Machine

/-- A tick can come before or after an instruction that neither reads nor sets a timer. -/
theorem effect_tick {i : Instruction} (hread : i.template ≠ "FX07") (hdelay : i.template ≠ "FX15")
    (hsound : i.template ≠ "FX18") (d : Dialect) (m : Machine) :
    i.effect d m.tick = (i.effect d m).tick := by
  cases i with
  | readDelay x => exact absurd rfl hread
  | setDelay x => exact absurd rfl hdelay
  | setSound x => exact absurd rfl hsound
  | awaitKey x => exact awaitKey_tick m x
  | _ =>
    simp only [effect, storeRegisters_eq, skipIf_eq, moveIndex_eq]
    rfl

/-- A key can change before or after an instruction that does not read it. -/
theorem effect_press {i : Instruction} {k : Fin 16} {m : Machine} (hawait : i.template ≠ "FX0A")
    (hskip : i.template = "EX9E" ∨ i.template = "EXA1" →
      (m.registers.get i.encode.x).toNat % 16 ≠ k)
    (d : Dialect) (down : Bool) : i.effect d (m.press k down) = (i.effect d m).press k down := by
  cases i with
  | awaitKey x => exact absurd rfl hawait
  | skipIfPressed x =>
    have hx : (m.press k down).keyDown x = m.keyDown x := keyDown_press (hskip (.inl rfl)) down
    simp only [effect, skipIf_eq, hx]
    rfl
  | skipUnlessPressed x =>
    have hx : (m.press k down).keyDown x = m.keyDown x := keyDown_press (hskip (.inr rfl)) down
    simp only [effect, skipIf_eq, hx]
    rfl
  | _ =>
    simp only [effect, storeRegisters_eq, skipIf_eq, moveIndex_eq]
    rfl

end Instruction

end Chip8
