import Chip8.Machine.Effect
import Chip8.Proofs.Instruction.Encoding
import Chip8.Proofs.Machine.Bounds

/-!
# What instructions leave alone

Each part of the machine is changed by few instructions. Calls and returns alone change the call
stack (`Instruction.stack_effect`), two instructions write to memory
(`Instruction.memory_effect`), two change the display (`Instruction.display_effect`), one sets each
timer (`Instruction.delay_effect`, `Instruction.sound_effect`), one draws random bytes
(`Instruction.random_effect`), and only the instruction that waits for a key can begin a wait
(`Instruction.awaiting_effect`, `Instruction.keyRegister_effect`). No instruction changes a key, and
all but one keep to their register and VF (`Instruction.registers_get_effect`). The program counter
stays near memory (`Instruction.pc_effect_le`).
-/

namespace Chip8

variable {d : Dialect} {m : Machine}

namespace Machine

/-- Running the number of the word that an instruction is written as. -/
lemma execute_encode (d : Dialect) (i : Instruction) (m : Machine) :
    m.execute d i.encode.toNat = i.effect d m := by
  rw [execute, Instruction.dispatch?_of_ofWord? (Instruction.ofWord?_encode i)]

@[simp] lemma pc_setRegister (m : Machine) (x : Fin 16) (b : UInt8) :
    (m.setRegister x b).pc = m.pc := rfl

lemma skipIf_eq (m : Machine) (c : Bool) :
    m.skipIf c = { m with pc := if c then m.pc + 2 else m.pc } := by
  cases c <;> rfl

lemma moveIndex_eq (d : Dialect) (x : Fin 16) (m : Machine) :
    m.moveIndex d x =
      { m with index := if d.transferMovesI then m.index + UInt16.ofNat (x + 1) else m.index } := by
  unfold moveIndex
  split <;> rfl

lemma awaitKey_of_down {k : Fin 16} (h : m.keypad.lowest? = some k) (x : Fin 16) :
    m.awaitKey x = m.setRegister x (UInt8.ofNat k) := by
  simp only [awaitKey, h]

lemma awaitKey_of_released (h : m.keypad.lowest? = none) (x : Fin 16) :
    m.awaitKey x =
      { m with pc := m.pc - 2, awaiting := true, keyRegister := UInt8.ofNat x } := by
  simp only [awaitKey, h]

lemma poll_of_down {k : Fin 16} (ha : m.awaiting = true) (h : m.keypad.lowest? = some k) :
    m.poll =
      { m with
        registers := m.registers.set? m.keyRegister.toNat (UInt8.ofNat k)
        pc := m.pc + 2
        awaiting := false } := by
  rw [poll, ha, h]

/-- A wait for a key moves the registers, the counter and what tells about waits. -/
lemma awaitKey_eq (m : Machine) (x : Fin 16) :
    m.awaitKey x =
      { m with
        registers := (m.awaitKey x).registers
        pc := (m.awaitKey x).pc
        awaiting := (m.awaitKey x).awaiting
        keyRegister := (m.awaitKey x).keyRegister } := by
  unfold awaitKey
  split <;> rfl

/-- The look for a key during a wait moves the registers and the counter and can end the wait. -/
lemma poll_eq (m : Machine) :
    m.poll =
      { m with
        registers := m.poll.registers
        pc := m.poll.pc
        awaiting := m.poll.awaiting } := by
  unfold poll
  split <;> rfl

@[simp] lemma stack_poll (m : Machine) : m.poll.stack = m.stack := by
  rw [poll_eq]

@[simp] lemma memory_poll (m : Machine) : m.poll.memory = m.memory := by
  rw [poll_eq]

@[simp] lemma random_poll (m : Machine) : m.poll.random = m.random := by
  rw [poll_eq]

@[simp] lemma display_poll (m : Machine) : m.poll.display = m.display := by
  rw [poll_eq]

@[simp] lemma delay_poll (m : Machine) : m.poll.delay = m.delay := by
  rw [poll_eq]

@[simp] lemma sound_poll (m : Machine) : m.poll.sound = m.sound := by
  rw [poll_eq]

end Machine

namespace Instruction

open Machine

attribute [local simp] effect

/-! ### The call stack -/

/-- Only a call and a return change the stack. -/
theorem stack_effect (d : Dialect) (i : Instruction) (m : Machine) :
    (i.effect d m).stack =
      match i with
      | .ret => m.stack.pop
      | .call _ => m.stack.push m.pc
      | _ => m.stack := by
  cases i with
  | awaitKey x => rw [effect, awaitKey_eq]
  | _ =>
    simp only [effect, storeRegisters_eq, Machine.loadRegisters, skipIf_eq, moveIndex_eq] <;> rfl

/-! ### Memory -/

/-- Only the instructions that store decimal digits or registers write to memory. -/
theorem memory_effect (d : Dialect) (i : Instruction) (m : Machine) :
    (i.effect d m).memory =
      match i with
      | .storeDecimal x => m.memory.writeAll m.index.toNat (decimalDigits (m.registers.get x))
      | .storeRegisters x => m.memory.writeAll m.index.toNat (m.registers.upTo x)
      | _ => m.memory := by
  cases i with
  | awaitKey x => rw [effect, awaitKey_eq]
  | _ =>
    simp only [effect, storeRegisters_eq, Machine.loadRegisters, skipIf_eq, moveIndex_eq] <;> rfl

/-! ### The display and the timers -/

/-- Only clearing the screen and drawing change the display. -/
theorem display_effect (d : Dialect) (i : Instruction) (m : Machine) :
    (i.effect d m).display =
      match i with
      | .clearScreen => .blank
      | .draw x y height => m.display.draw (m.sprite x y height)
      | _ => m.display := by
  cases i with
  | awaitKey x => rw [effect, awaitKey_eq]
  | _ =>
    simp only [effect, storeRegisters_eq, Machine.loadRegisters, skipIf_eq, moveIndex_eq] <;> rfl

/-- Only the instruction that sets the delay timer changes it. -/
theorem delay_effect (d : Dialect) (i : Instruction) (m : Machine) :
    (i.effect d m).delay =
      match i with
      | .setDelay x => m.registers.get x
      | _ => m.delay := by
  cases i with
  | awaitKey x => rw [effect, awaitKey_eq]
  | _ =>
    simp only [effect, storeRegisters_eq, Machine.loadRegisters, skipIf_eq, moveIndex_eq] <;> rfl

/-- Only the instruction that sets the sound timer changes it. -/
theorem sound_effect (d : Dialect) (i : Instruction) (m : Machine) :
    (i.effect d m).sound =
      match i with
      | .setSound x => m.registers.get x
      | _ => m.sound := by
  cases i with
  | awaitKey x => rw [effect, awaitKey_eq]
  | _ =>
    simp only [effect, storeRegisters_eq, Machine.loadRegisters, skipIf_eq, moveIndex_eq] <;> rfl

/-! ### Random bytes -/

/-- Only the instruction that draws a random byte changes the key. -/
theorem random_effect (d : Dialect) (i : Instruction) (m : Machine) :
    (i.effect d m).random =
      match i with
      | .random _ _ => Random.next m.random
      | _ => m.random := by
  cases i with
  | awaitKey x => rw [effect, awaitKey_eq]
  | _ =>
    simp only [effect, storeRegisters_eq, Machine.loadRegisters, skipIf_eq, moveIndex_eq] <;> rfl

/-! ### Waits -/

/-- Only a wait for a key that finds no key down begins a wait. -/
theorem awaiting_effect (d : Dialect) (i : Instruction) (m : Machine) :
    (i.effect d m).awaiting =
      match i with
      | .awaitKey _ => m.keypad.lowest?.isNone || m.awaiting
      | _ => m.awaiting := by
  cases i with
  | awaitKey x =>
    cases h : m.keypad.lowest? with
    | none => simp [awaitKey_of_released h]
    | some k => simp [awaitKey_of_down h, setRegister]
  | _ =>
    simp only [effect, storeRegisters_eq, Machine.loadRegisters, skipIf_eq, moveIndex_eq] <;> rfl

/-- Only a wait for a key changes the register that receives the key. -/
theorem keyRegister_effect (d : Dialect) (i : Instruction) (m : Machine) :
    (i.effect d m).keyRegister =
      match i with
      | .awaitKey x => if m.keypad.lowest?.isNone then UInt8.ofNat x else m.keyRegister
      | _ => m.keyRegister := by
  cases i with
  | awaitKey x =>
    cases h : m.keypad.lowest? with
    | none => simp [awaitKey_of_released h]
    | some k => simp [awaitKey_of_down h, setRegister]
  | _ =>
    simp only [effect, storeRegisters_eq, Machine.loadRegisters, skipIf_eq, moveIndex_eq] <;> rfl

/-- No instruction presses a key. -/
theorem keypad_effect (d : Dialect) (i : Instruction) (m : Machine) :
    (i.effect d m).keypad = m.keypad := by
  cases i with
  | awaitKey x => rw [effect, awaitKey_eq]
  | _ =>
    simp only [effect, storeRegisters_eq, Machine.loadRegisters, skipIf_eq, moveIndex_eq] <;> rfl

/-! ### Registers and the index -/

/-- Loading registers aside, an instruction changes no register but the one that its second digit
names and VF. -/
theorem registers_get_effect {i : Instruction} {k : Fin 16} (hl : ∀ x, i ≠ .loadRegisters x)
    (hx : i.encode.x ≠ k) (hf : Registers.flag ≠ k) (d : Dialect) (m : Machine) :
    (i.effect d m).registers.get k = m.registers.get k := by
  cases i with
  | setByte x b | addByte x b | random x b | readDelay x =>
    exact Registers.get_set_of_ne hx _ _
  | operate op x y =>
    have hresult : ∀ b, (m.registers.set x b).get k = m.registers.get k :=
      Registers.get_set_of_ne hx m.registers
    simp only [effect, Machine.operate]
    split
    · rw [Registers.get_set_of_ne hf, hresult]
    · exact hresult _
  | draw x y height => exact Registers.get_set_of_ne hf _ _
  | awaitKey x =>
    simp only [effect, Machine.awaitKey]
    split
    · exact Registers.get_set_of_ne hx _ _
    · rfl
  | loadRegisters x => exact absurd rfl (hl x)
  | _ => simp only [effect, storeRegisters_eq, skipIf_eq, moveIndex_eq]

/-- Four instructions set the index, one of them and loading registers only if the dialect says
so. -/
theorem index_effect (d : Dialect) (i : Instruction) (m : Machine) :
    (i.effect d m).index =
      match i with
      | .setIndex a => UInt16.ofNat a
      | .addIndex x => m.index + (m.registers.get x).toUInt16
      | .glyph x => Font.glyph (Fin.ofNat 16 (m.registers.get x).toNat)
      | .storeRegisters x | .loadRegisters x =>
        if d.transferMovesI then m.index + UInt16.ofNat (x + 1) else m.index
      | _ => m.index := by
  cases i with
  | awaitKey x => rw [effect, awaitKey_eq]
  | _ =>
    simp only [effect, storeRegisters_eq, Machine.loadRegisters, skipIf_eq, moveIndex_eq] <;> rfl

/-! ### The program counter -/

/-- Whether the instruction leaves out the next one. -/
def skips (m : Machine) : Instruction → Bool
  | .skipIfByte x b => m.registers.get x == b
  | .skipUnlessByte x b => m.registers.get x != b
  | .skipIfSame x y => m.registers.get x == m.registers.get y
  | .skipUnlessSame x y => m.registers.get x != m.registers.get y
  | .skipIfPressed x => m.keyDown x
  | .skipUnlessPressed x => !m.keyDown x
  | _ => false

/-- Returns, jumps, calls and skips move the counter on, and a wait for a key that finds no key
down moves it back. -/
theorem pc_effect (d : Dialect) (i : Instruction) (m : Machine) :
    (i.effect d m).pc =
      match i with
      | .ret => m.stack.top
      | .jump a | .call a => UInt16.ofNat a
      | .jumpOffset a => UInt16.ofNat a + (m.registers.get (d.offsetRegister a)).toUInt16
      | .awaitKey _ => if m.keypad.lowest?.isNone then m.pc - 2 else m.pc
      | i => if i.skips m then m.pc + 2 else m.pc := by
  cases i with
  | awaitKey x =>
    cases h : m.keypad.lowest? with
    | none => simp [awaitKey_of_released h]
    | some k => simp [awaitKey_of_down h]
  | _ =>
    simp only [effect, storeRegisters_eq, Machine.loadRegisters, skipIf_eq, moveIndex_eq] <;> rfl

/-- After an instruction that passed its check the counter is at most 255 behind the highest
target of a jump. -/
theorem pc_effect_le {i : Instruction} {address : Int} (hs : m.stack.Regular)
    (h₂ : 2 ≤ m.pc.toNat) (hpc : m.pc.toNat ≤ 0x1000) (hp : m.fault? i address = none) :
    (i.effect d m).pc.toNat ≤ 0x10FE := by
  have hskip : ∀ c, (m.skipIf c).pc.toNat ≤ 0x10FE := by
    intro c
    cases c with
    | true => simp only [skipIf_true, UInt16.toNat_add, UInt16.reduceToNat]; omega
    | false => simp only [skipIf_false]; omega
  cases i with
  | ret =>
    have := hs.top_le (fault?_ret_eq_none_iff.mp hp)
    simp only [effect]
    omega
  | jump a | call a =>
    simp only [effect, UInt16.toNat_ofNat']
    omega
  | jumpOffset a =>
    have := (m.registers.get (d.offsetRegister a)).toNat_lt
    simp only [effect, UInt16.toNat_add, UInt16.toNat_ofNat', UInt8.toNat_toUInt16]
    omega
  | awaitKey x =>
    cases h : m.keypad.lowest? with
    | none =>
      have h₂' : 2 ≤ m.pc := UInt16.le_iff_toNat_le.mpr h₂
      simp only [effect, awaitKey_of_released h, UInt16.toNat_sub_of_le _ _ h₂']
      omega
    | some k =>
      simp only [effect, awaitKey_of_down h, setRegister]
      omega
  | skipIfByte | skipUnlessByte | skipIfSame | skipUnlessSame | skipIfPressed
  | skipUnlessPressed => exact hskip _
  | _ =>
    simp only [effect, storeRegisters_eq, Machine.loadRegisters, moveIndex_eq]
    exact Nat.le_trans hpc (by decide)

end Instruction

end Chip8
