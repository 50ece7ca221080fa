import Chip8.Instruction.Dispatch
import Chip8.Machine.Basic

/-!
# Effects of instructions

What each instruction does to the machine. The program counter has already moved behind the
instruction when it takes effect. Nothing is checked: addresses and pointers out of range follow
the rules of memory and of the call stack, and 16-bit numbers wrap.
-/

namespace Chip8

namespace Machine

def setRegister (m : Machine) (x : Fin 16) (b : UInt8) : Machine :=
  { m with registers := m.registers.set x b }

/-- Leave out the next instruction if `c` holds. -/
def skipIf (m : Machine) (c : Bool) : Machine :=
  if c then { m with pc := m.pc + 2 } else m

@[simp] theorem skipIf_true (m : Machine) : m.skipIf true = { m with pc := m.pc + 2 } := rfl

@[simp] theorem skipIf_false (m : Machine) : m.skipIf false = m := rfl

/-- Whether the key that VX names is down. Only the lower half of VX counts. -/
def keyDown (m : Machine) (x : Fin 16) : Bool :=
  m.keypad.isDown (Fin.ofNat 16 (m.registers.get x).toNat)

/-- The operation reads both registers before it writes. The flag is written last, so it
prevails if the result goes to VF too. -/
def operate (d : Dialect) (op : Operation) (x y : Fin 16) (m : Machine) : Machine :=
  let first := m.registers.get (if op.readsSecond d then y else x)
  let result := op.result first (m.registers.get y)
  let written := m.registers.set x result.value
  { m with registers := if op.setsFlag d then written.set Registers.flag result.flag else written }

/-- The sprite that a draw instruction reads from memory, with its origin on the screen. -/
def sprite (m : Machine) (x y height : Fin 16) : Sprite where
  y := Fin.ofNat 32 (m.registers.get y).toNat
  x := Fin.ofNat 64 (m.registers.get x).toNat
  rows := m.memory.readAll m.index.toNat height

/-- Draw a sprite. VF tells whether it covered a lit pixel. -/
def draw (m : Machine) (s : Sprite) : Machine :=
  { m with
    display := m.display.draw s
    registers := m.registers.set Registers.flag (if m.display.collides s then 1 else 0) }

/-- Take the lowest key that is down. If all are up, begin to wait and stay at the instruction. -/
def awaitKey (m : Machine) (x : Fin 16) : Machine :=
  match m.keypad.lowest? with
  | some k => m.setRegister x (UInt8.ofNat k)
  | none => { m with pc := m.pc - 2, awaiting := true, keyRegister := UInt8.ofNat x }

/-- The three decimal digits of a byte, the hundreds first. -/
def decimalDigits (b : UInt8) : List UInt8 :=
  [b / 100, b / 10 % 10, b % 10]

@[simp] theorem length_decimalDigits (b : UInt8) : (decimalDigits b).length = 3 := rfl

theorem lt_ten_of_mem_decimalDigits {b digit : UInt8} (h : digit ∈ decimalDigits b) :
    digit.toNat < 10 := by
  have hb := b.toNat_lt
  simp only [decimalDigits, List.mem_cons, List.not_mem_nil, or_false] at h
  rcases h with rfl | rfl | rfl <;>
    simp only [UInt8.toNat_div, UInt8.toNat_mod, UInt8.reduceToNat] <;> omega

/-- Read as a decimal number, the digits give the byte back. -/
theorem foldl_decimalDigits (b : UInt8) :
    (decimalDigits b).foldl (fun n digit => 10 * n + digit.toNat) 0 = b.toNat := by
  simp only [decimalDigits, List.foldl_cons, List.foldl_nil, UInt8.toNat_div, UInt8.toNat_mod,
    UInt8.reduceToNat]
  omega

/-- After a transfer of V0 to VX the index may stand behind the last byte. -/
def moveIndex (d : Dialect) (x : Fin 16) (m : Machine) : Machine :=
  if d.transferMovesI then { m with index := m.index + UInt16.ofNat (x + 1) } else m

/-- All sixteen bytes behind the index are written. Those behind the byte for VX keep what has been
read there. -/
def storeRegisters (m : Machine) (x : Fin 16) : Machine :=
  { m with memory := m.memory.writeAll m.index.toNat (.ofFn fun k : Fin 16 =>
      if k ≤ x then m.registers.get k else m.memory.read (m.index.toNat + k)) }

/-- The bytes that are written back change nothing. One that was read beyond memory is the last byte
of memory, but its write is dropped. -/
theorem storeRegisters_eq (m : Machine) (x : Fin 16) :
    m.storeRegisters x =
      { m with memory := m.memory.writeAll m.index.toNat (m.registers.upTo x) } := by
  refine congrArg (fun memory => { m with memory }) (Memory.ext fun a ha => ?_)
  rw [Memory.read_writeAll _ _ _ _ ha, Memory.read_writeAll _ _ _ _ ha]
  by_cases hbehind : m.index.toNat ≤ a
  · rw [if_pos hbehind, if_pos hbehind, List.getD_eq_getElem?_getD, List.getD_eq_getElem?_getD,
      List.getElem?_ofFn]
    by_cases hstored : a - m.index.toNat ≤ x
    · have hlane : a - m.index.toNat < 16 := by omega
      rw [dif_pos hlane, m.registers.getElem?_upTo x ⟨_, hlane⟩ hstored]
      exact congrArg (Option.getD · _) (congrArg some (if_pos hstored))
    · rw [List.getElem?_eq_none (by rw [Registers.length_upTo]; omega)]
      split
      next hlane =>
        -- The lane has read the byte at its own address.
        have hread : m.index.toNat + (a - m.index.toNat) = a := by omega
        exact (if_neg hstored).trans (congrArg m.memory.read hread)
      next => rfl
  · rw [if_neg hbehind, if_neg hbehind]

def loadRegisters (m : Machine) (x : Fin 16) : Machine :=
  { m with registers := .ofFn fun k =>
      if k ≤ x then m.memory.read (m.index.toNat + k) else m.registers.get k }

end Machine

/-- The register whose value a jump with offset adds. -/
def Dialect.offsetRegister (d : Dialect) (target : Fin 4096) : Fin 16 :=
  if d.jumpReadsVX then ⟨target / 256, by omega⟩ else 0

namespace Instruction

open Machine

def effect (d : Dialect) (i : Instruction) (m : Machine) : Machine :=
  match i with
  | .clearScreen => { m with display := .blank }
  | .ret => { m with stack := m.stack.pop, pc := m.stack.top }
  | .jump a => { m with pc := UInt16.ofNat a }
  | .call a => { m with stack := m.stack.push m.pc, pc := UInt16.ofNat a }
  | .skipIfByte x b => m.skipIf (m.registers.get x == b)
  | .skipUnlessByte x b => m.skipIf (m.registers.get x != b)
  | .skipIfSame x y => m.skipIf (m.registers.get x == m.registers.get y)
  | .skipUnlessSame x y => m.skipIf (m.registers.get x != m.registers.get y)
  | .setByte x b => m.setRegister x b
  | .addByte x b => m.setRegister x (m.registers.get x + b)
  | .operate op x y => m.operate d op x y
  | .setIndex a => { m with index := UInt16.ofNat a }
  | .jumpOffset a =>
    { m with pc := UInt16.ofNat a + (m.registers.get (d.offsetRegister a)).toUInt16 }
  | .random x mask =>
    { m.setRegister x (Random.byte m.random &&& mask) with random := Random.next m.random }
  | .draw x y height => m.draw (m.sprite x y height)
  | .skipIfPressed x => m.skipIf (m.keyDown x)
  | .skipUnlessPressed x => m.skipIf (!m.keyDown x)
  | .readDelay x => m.setRegister x m.delay
  | .awaitKey x => m.awaitKey x
  | .setDelay x => { m with delay := m.registers.get x }
  | .setSound x => { m with sound := m.registers.get x }
  | .addIndex x => { m with index := m.index + (m.registers.get x).toUInt16 }
  | .glyph x => { m with index := Font.glyph (Fin.ofNat 16 (m.registers.get x).toNat) }
  | .storeDecimal x =>
    { m with memory := m.memory.writeAll m.index.toNat (decimalDigits (m.registers.get x)) }
  | .storeRegisters x => (m.storeRegisters x).moveIndex d x
  | .loadRegisters x => (m.loadRegisters x).moveIndex d x

end Instruction

namespace Machine

/-- Run the instruction that a number stands for. A number without one changes nothing. -/
def execute (d : Dialect) (z : Int) (m : Machine) : Machine :=
  match Instruction.dispatch? z with
  | some i => i.effect d m
  | none => m

end Machine

end Chip8
