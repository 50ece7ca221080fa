import Chip8.Proofs.Instruction.Selection
import Chip8.Proofs.Machine.Frame
import Mathlib.Data.List.GetD

/-!
# Which words own which parts

The machine can be given any number to run, in any state, and nothing checks what it does. Even so
each part of the machine has its words, and no other number touches it
(`Machine.execute_confined`). Accesses out of range stay within these bounds too: addresses beyond
memory and pointers beyond the call stack touch nothing else.
-/

namespace Chip8

/-! ### Bytes and slots that are written -/

/-- A byte outside of the range that is written keeps its value. -/
lemma Memory.read_writeAll_of_not_mem {m : Memory} {a c : Nat} {bs : List UInt8} (hc : c < 4096)
    (h : ¬ (a ≤ c ∧ c < a + bs.length)) : (m.writeAll a bs).read c = m.read c := by
  rw [read_writeAll m a c bs hc]
  split
  next hle => rw [List.getD_eq_default _ _ (by omega)]
  · rfl

namespace CallStack

variable {s : CallStack}

/-- A write changes at most one slot, wherever the pointer is. -/
lemma exists_slot_write_eq (s : CallStack) (p : Int32) (a : UInt16) :
    ∃ k, ∀ j, j ≠ k → (s.write p a).slot j = s.slot j := by
  refine ⟨Fin.ofNat 16 (locate p).toNat, fun j hj => ?_⟩
  rw [slot_write_eq, if_neg]
  intro h
  exact hj (Fin.ext (by rw [Fin.val_ofNat, ← h]; omega))

end CallStack

namespace Machine

/-- What running the number `z` may do to a machine. Each part says which numbers can change it;
the dialect is no part of the machine. -/
structure Confined (d : Dialect) (z : Int) (m m' : Machine) : Prop where
  memory : ∀ a < 4096, m'.memory.read a ≠ m.memory.read a →
    Matches z "FX33" ∧ m.index.toNat ≤ a ∧ a ≤ m.index.toNat + 2 ∨
      Matches z "FX55" ∧ m.index.toNat ≤ a ∧ a ≤ m.index.toNat + (Word.ofInt z).x
  display : m'.display ≠ m.display → z = 0x00E0 ∨ Matches z "DXYN"
  stack : m'.stack ≠ m.stack → z = 0x00EE ∨ Matches z "2NNN"
  pointer_ret : z = 0x00EE → m'.stack.pointer = m.stack.pointer - 1
  pointer_call : Matches z "2NNN" → m'.stack.pointer = m.stack.pointer + 1
  slots : ∃ k, ∀ j, j ≠ k → m'.stack.slot j = m.stack.slot j
  random : m'.random ≠ m.random → Matches z "CXNN"
  delay : m'.delay ≠ m.delay → Matches z "FX15"
  sound : m'.sound ≠ m.sound → Matches z "FX18"
  wait : m'.awaiting ≠ m.awaiting ∨ m'.keyRegister ≠ m.keyRegister →
    Matches z "FX0A" ∧ ∀ k, m.keypad.isDown k = false
  index : m'.index ≠ m.index →
    Matches z "ANNN" ∨ Matches z "FX1E" ∨ Matches z "FX29" ∨
      d.transferMovesI = true ∧ (Matches z "FX55" ∨ Matches z "FX65")
  pc : m'.pc ≠ m.pc →
    z = 0x00EE ∨ Matches z "1NNN" ∨ Matches z "2NNN" ∨ Matches z "BNNN" ∨
      (Matches z "FX0A" ∧ ∀ k, m.keypad.isDown k = false) ∨
      (Word.ofInt z).kind ∈ [0x3, 0x4, 0x5, 0x9, 0xE]
  registers : ∀ k, m'.registers.get k ≠ m.registers.get k →
    k = (Word.ofInt z).x ∨ k = Registers.flag ∨ Matches z "FX65"
  keypad : m'.keypad = m.keypad

end Machine

/-! ### The parts one by one -/

namespace Instruction

variable {d : Dialect} {m : Machine} {z : Int} {i : Instruction}

/-- The slot that a push fills or a pop clears. -/
lemma slots_confined (d : Dialect) (i : Instruction) (m : Machine) :
    ∃ k, ∀ j, j ≠ k → (i.effect d m).stack.slot j = m.stack.slot j := by
  rw [stack_effect]
  cases i with
  | ret => exact m.stack.exists_slot_write_eq (m.stack.pointer - 1) 0
  | call a => exact m.stack.exists_slot_write_eq m.stack.pointer m.pc
  | _ => exact ⟨0, fun _ _ => rfl⟩

section

variable (h : dispatch? z = some i)
include h

/-- The bytes of the decimal digits and of the registers lie behind the index. -/
lemma memory_confined {a : Nat} (ha : a < 4096)
    (hne : (i.effect d m).memory.read a ≠ m.memory.read a) :
    Matches z "FX33" ∧ m.index.toNat ≤ a ∧ a ≤ m.index.toNat + 2 ∨
      Matches z "FX55" ∧ m.index.toNat ≤ a ∧ a ≤ m.index.toNat + (Word.ofInt z).x := by
  rw [x_of_dispatch? h]
  rw [memory_effect] at hne
  cases i with
  | storeDecimal x =>
    obtain ⟨hle, hlt⟩ := not_not.mp (mt (Memory.read_writeAll_of_not_mem ha) hne)
    exact .inl ⟨matches_template h rfl rfl, hle, Nat.le_of_lt_succ hlt⟩
  | storeRegisters x =>
    obtain ⟨hle, hlt⟩ := not_not.mp (mt (Memory.read_writeAll_of_not_mem ha) hne)
    rw [Registers.length_upTo] at hlt
    exact .inr ⟨matches_template h rfl rfl, hle, Nat.le_of_lt_succ hlt⟩
  | _ => exact absurd rfl hne

lemma display_confined (hne : (i.effect d m).display ≠ m.display) :
    z = 0x00E0 ∨ Matches z "DXYN" := by
  rw [display_effect] at hne
  cases i with
  | clearScreen => exact .inl (eq_of_dispatch? h rfl)
  | draw x y height => exact .inr (matches_template h rfl rfl)
  | _ => exact absurd rfl hne

lemma stack_confined (hne : (i.effect d m).stack ≠ m.stack) : z = 0x00EE ∨ Matches z "2NNN" := by
  rw [stack_effect] at hne
  cases i with
  | ret => exact .inl (eq_of_dispatch? h rfl)
  | call a => exact .inr (matches_template h rfl rfl)
  | _ => exact absurd rfl hne

lemma random_confined (hne : (i.effect d m).random ≠ m.random) : Matches z "CXNN" := by
  rw [random_effect] at hne
  cases i with
  | random x mask => exact matches_template h rfl rfl
  | _ => exact absurd rfl hne

lemma delay_confined (hne : (i.effect d m).delay ≠ m.delay) : Matches z "FX15" := by
  rw [delay_effect] at hne
  cases i with
  | setDelay x => exact matches_template h rfl rfl
  | _ => exact absurd rfl hne

lemma sound_confined (hne : (i.effect d m).sound ≠ m.sound) : Matches z "FX18" := by
  rw [sound_effect] at hne
  cases i with
  | setSound x => exact matches_template h rfl rfl
  | _ => exact absurd rfl hne

/-- A wait for a key that finds one down leaves what tells about waits alone. -/
lemma wait_confined
    (hne : (i.effect d m).awaiting ≠ m.awaiting ∨ (i.effect d m).keyRegister ≠ m.keyRegister) :
    Matches z "FX0A" ∧ ∀ k, m.keypad.isDown k = false := by
  rw [awaiting_effect, keyRegister_effect] at hne
  cases i with
  | awaitKey x =>
    refine ⟨matches_template h rfl rfl, Keypad.lowest?_eq_none_iff.mp ?_⟩
    cases hk : m.keypad.lowest? with
    | none => rfl
    | some k => simp [hk] at hne
  | _ => exact absurd hne (by simp)

lemma index_confined (hne : (i.effect d m).index ≠ m.index) :
    Matches z "ANNN" ∨ Matches z "FX1E" ∨ Matches z "FX29" ∨
      d.transferMovesI = true ∧ (Matches z "FX55" ∨ Matches z "FX65") := by
  rw [index_effect] at hne
  cases i with
  | setIndex a => exact .inl (matches_template h rfl rfl)
  | addIndex x => exact .inr (.inl (matches_template h rfl rfl))
  | glyph x => exact .inr (.inr (.inl (matches_template h rfl rfl)))
  | storeRegisters x =>
    refine .inr (.inr (.inr ⟨?_, .inl (matches_template h rfl rfl)⟩))
    by_contra hd
    exact hne (if_neg hd)
  | loadRegisters x =>
    refine .inr (.inr (.inr ⟨?_, .inr (matches_template h rfl rfl)⟩))
    by_contra hd
    exact hne (if_neg hd)
  | _ => exact absurd rfl hne

lemma pc_confined (hne : (i.effect d m).pc ≠ m.pc) :
    z = 0x00EE ∨ Matches z "1NNN" ∨ Matches z "2NNN" ∨ Matches z "BNNN" ∨
      (Matches z "FX0A" ∧ ∀ k, m.keypad.isDown k = false) ∨
      (Word.ofInt z).kind ∈ [0x3, 0x4, 0x5, 0x9, 0xE] := by
  rw [kind_of_dispatch? h]
  rw [pc_effect] at hne
  cases i with
  | ret => exact .inl (eq_of_dispatch? h rfl)
  | jump a => exact .inr (.inl (matches_template h rfl rfl))
  | call a => exact .inr (.inr (.inl (matches_template h rfl rfl)))
  | jumpOffset a => exact .inr (.inr (.inr (.inl (matches_template h rfl rfl))))
  | awaitKey x =>
    refine .inr (.inr (.inr (.inr (.inl ⟨matches_template h rfl rfl, ?_⟩))))
    rw [← Keypad.lowest?_eq_none_iff, ← Option.isNone_iff_eq_none]
    by_contra hk
    exact hne (if_neg hk)
  | skipIfByte | skipUnlessByte | skipIfSame | skipUnlessSame | skipIfPressed
  | skipUnlessPressed =>
    exact .inr (.inr (.inr (.inr (.inr (by simp [encode, Word.ofByte])))))
  | _ => exact absurd rfl hne

lemma registers_confined {k : Fin 16}
    (hne : (i.effect d m).registers.get k ≠ m.registers.get k) :
    k = (Word.ofInt z).x ∨ k = Registers.flag ∨ Matches z "FX65" := by
  rw [x_of_dispatch? h]
  by_cases hl : ∃ x, i = .loadRegisters x
  · obtain ⟨x, rfl⟩ := hl
    exact .inr (.inr (matches_template h rfl rfl))
  · by_contra hk
    simp only [not_or] at hk
    exact hne (registers_get_effect (not_exists.mp hl) (Ne.symm hk.1) (Ne.symm hk.2.1) d m)

end

end Instruction

namespace Machine

open Instruction

variable {d : Dialect} {m : Machine} {z : Int} {i : Instruction}

lemma execute_eq_effect (h : dispatch? z = some i) : m.execute d z = i.effect d m := by
  rw [execute, h]

lemma pointer_execute_call (h : Matches z "2NNN") :
    (m.execute d z).stack.pointer = m.stack.pointer + 1 := by
  rw [Matches, ← Word.toNat_ofInt_eq,
    Template.isInstance_toNat (p := .first 0x2) (by decide) (by decide),
    Pattern.fits_first_iff] at h
  have hcall : dispatch? z = some (.call (Word.ofInt z).address) := by
    unfold dispatch?
    simp only [h]
  rw [execute_eq_effect hcall, stack_effect, CallStack.pointer_push]

/-- Every number changes only the parts of the machine that it owns. -/
theorem execute_confined (d : Dialect) (z : Int) (m : Machine) :
    Confined d z m (m.execute d z) := by
  have hret : z = 0x00EE → (m.execute d z).stack.pointer = m.stack.pointer - 1 := by
    rintro rfl
    rfl
  have hcall : Matches z "2NNN" → (m.execute d z).stack.pointer = m.stack.pointer + 1 :=
    pointer_execute_call
  cases h : dispatch? z with
  | none =>
    have hsame : m.execute d z = m := by rw [execute, h]
    rw [hsame] at hret hcall ⊢
    constructor
    case pointer_ret => exact hret
    case pointer_call => exact hcall
    case slots => exact ⟨0, fun _ _ => rfl⟩
    all_goals simp
  | some i =>
    rw [execute_eq_effect h] at hret hcall ⊢
    exact {
      memory := fun _ ha hne => memory_confined h ha hne
      display := display_confined h
      stack := stack_confined h
      pointer_ret := hret
      pointer_call := hcall
      slots := slots_confined d i m
      random := random_confined h
      delay := delay_confined h
      sound := sound_confined h
      wait := wait_confined h
      index := index_confined h
      pc := pc_confined h
      registers := fun _ hne => registers_confined h hne
      keypad := keypad_effect d i m }

end Machine

end Chip8
