import Chip8.Instruction.Pattern
import Chip8.Machine.Effect

/-!
# The strict machine

The strict machine has no rules for what lies out of range. It runs the same instructions, but it
is undefined as soon as it would touch a byte of memory, a slot of the stack, a register or a key
that does not exist. Its program counter and its index are computed as whole numbers, and it is
undefined if one of them leaves the sixteen bits that hold it.

An instruction of the strict machine touches only what it needs: a sprite its own rows, a
transfer of registers one byte for each register.
-/

namespace Chip8

/-! ### Parts that may be missing

What reads or replaces a part takes its number and is undefined if there is no such part. -/

/-- A whole number as a counter of sixteen bits. -/
def counter? (z : Int) : Option UInt16 :=
  if 0 ≤ z ∧ z ≤ 65535 then some (UInt16.ofNat z.toNat) else none

namespace Memory

def get? (m : Memory) (a : Nat) : Option UInt8 :=
  m.bytes[a]?

def put? (m : Memory) (a : Nat) (b : UInt8) : Option Memory :=
  if h : a < 4096 then some ⟨m.bytes.set a b⟩ else none

def getAll? (m : Memory) (a n : Nat) : Option (List UInt8) :=
  (List.range n).mapM fun k => m.get? (a + k)

def putAll? (m : Memory) (a : Nat) : List UInt8 → Option Memory
  | [] => some m
  | b :: bs => (m.put? a b).bind fun m => m.putAll? (a + 1) bs

end Memory

namespace Registers

def get? (r : Registers) (x : Nat) : Option UInt8 :=
  r.values[x]?

def put? (r : Registers) (x : Nat) (b : UInt8) : Option Registers :=
  if h : x < 16 then some ⟨r.values.set x b⟩ else none

def getAll? (r : Registers) (n : Nat) : Option (List UInt8) :=
  (List.range n).mapM r.get?

def putAll? (r : Registers) (x : Nat) : List UInt8 → Option Registers
  | [] => some r
  | b :: bs => (r.put? x b).bind fun r => r.putAll? (x + 1) bs

end Registers

namespace Keypad

def get? (p : Keypad) (k : Nat) : Option Bool :=
  p.keys[k]?

end Keypad

namespace CallStack

def get? (s : CallStack) (k : Int) : Option UInt16 :=
  if 0 ≤ k then s.slots[k.toNat]? else none

def put? (s : CallStack) (k : Int) (a : UInt16) : Option CallStack :=
  if h : 0 ≤ k ∧ k < 16 then some { s with slots := s.slots.set k.toNat a (toNat_lt_sixteen h) }
  else none

/-- Fill the slot at the pointer and move the pointer behind it. -/
def push? (s : CallStack) (a : UInt16) : Option CallStack := do
  let p := s.pointer.toInt
  let s ← s.put? p a
  return { s with pointer := Int32.ofInt (p + 1) }

/-- Take the address from the slot before the pointer, clear this slot and move the pointer to
it. -/
def pop? (s : CallStack) : Option (UInt16 × CallStack) := do
  let p := s.pointer.toInt - 1
  let a ← s.get? p
  let s ← s.put? p 0
  return (a, { s with pointer := Int32.ofInt p })

end CallStack

/-! ### Instructions -/

namespace Machine

def putRegister? (m : Machine) (x : Nat) (b : UInt8) : Option Machine := do
  let registers ← m.registers.put? x b
  return { m with registers }

def jump? (m : Machine) (a : Int) : Option Machine := do
  let pc ← counter? a
  return { m with pc }

def pointTo? (m : Machine) (a : Int) : Option Machine := do
  let index ← counter? a
  return { m with index }

def strictSkip? (m : Machine) (c : Bool) : Option Machine :=
  if c then m.jump? (m.pc.toNat + 2) else some m

/-- Whether the key that the lower half of VX names is down. -/
def strictKeyDown? (m : Machine) (x : Nat) : Option Bool := do
  let v ← m.registers.get? x
  m.keypad.get? (v.toNat % 16)

/-- Combine two registers. The flag is written last. -/
def strictOperate? (d : Dialect) (op : Operation) (x y : Fin 16) (m : Machine) :
    Option Machine := do
  let first ← m.registers.get? (if op.readsSecond d then y else x)
  let second ← m.registers.get? y
  let result := op.result first second
  let m ← m.putRegister? x result.value
  if op.setsFlag d then m.putRegister? Registers.flag result.flag else return m

/-- Draw the rows that a sprite has in memory. -/
def strictDraw? (m : Machine) (x y height : Fin 16) : Option Machine := do
  let left ← m.registers.get? x
  let top ← m.registers.get? y
  let rows ← m.memory.getAll? m.index.toNat height
  let sprite : Sprite := ⟨Fin.ofNat 32 top.toNat, Fin.ofNat 64 left.toNat, rows⟩
  let m' ← m.putRegister? Registers.flag (if m.display.collides sprite then 1 else 0)
  return { m' with display := m.display.draw sprite }

/-- Take the lowest key that is down, or begin to wait at the instruction. -/
def strictAwaitKey? (m : Machine) (x : Fin 16) : Option Machine :=
  match m.keypad.lowest? with
  | some k => m.putRegister? x (UInt8.ofNat k)
  | none => do
    let m ← m.jump? (m.pc.toNat - 2)
    return { m with awaiting := true, keyRegister := UInt8.ofNat x }

/-- After a transfer of V0 to VX the index may move behind the last byte. -/
def strictMoveIndex? (d : Dialect) (x : Fin 16) (m : Machine) : Option Machine :=
  if d.transferMovesI then m.pointTo? (m.index.toNat + (x + 1)) else some m

end Machine

/-- What an instruction does to the strict machine, whose counter is behind the instruction. -/
def Instruction.strictEffect? (d : Dialect) (i : Instruction) (m : Machine) : Option Machine :=
  match i with
  | .clearScreen => some { m with display := .blank }
  | .ret => do
    let (a, stack) ← m.stack.pop?
    return { m with stack, pc := a }
  | .jump a => m.jump? a
  | .call a => do
    let stack ← m.stack.push? m.pc
    { m with stack }.jump? a
  | .skipIfByte x b => do
    m.strictSkip? ((← m.registers.get? x) == b)
  | .skipUnlessByte x b => do
    m.strictSkip? ((← m.registers.get? x) != b)
  | .skipIfSame x y => do
    m.strictSkip? ((← m.registers.get? x) == (← m.registers.get? y))
  | .skipUnlessSame x y => do
    m.strictSkip? ((← m.registers.get? x) != (← m.registers.get? y))
  | .setByte x b => m.putRegister? x b
  | .addByte x b => do
    m.putRegister? x ((← m.registers.get? x) + b)
  | .operate op x y => m.strictOperate? d op x y
  | .setIndex a => m.pointTo? a
  | .jumpOffset a => do
    let v ← m.registers.get? (if d.jumpReadsVX then a / 256 else 0)
    m.jump? (a + v.toNat)
  | .random x mask => do
    let m' ← m.putRegister? x (Random.byte m.random &&& mask)
    return { m' with random := Random.next m.random }
  | .draw x y height => m.strictDraw? x y height
  | .skipIfPressed x => do
    m.strictSkip? (← m.strictKeyDown? x)
  | .skipUnlessPressed x => do
    m.strictSkip? !(← m.strictKeyDown? x)
  | .readDelay x => m.putRegister? x m.delay
  | .awaitKey x => m.strictAwaitKey? x
  | .setDelay x => do
    return { m with delay := ← m.registers.get? x }
  | .setSound x => do
    return { m with sound := ← m.registers.get? x }
  | .addIndex x => do
    let v ← m.registers.get? x
    m.pointTo? (m.index.toNat + v.toNat)
  | .glyph x => do
    let v ← m.registers.get? x
    m.pointTo? (Font.start + Font.glyphSize * (v.toNat % 16))
  | .storeDecimal x => do
    let v ← m.registers.get? x
    let memory ← m.memory.putAll? m.index.toNat (Machine.decimalDigits v)
    return { m with memory }
  | .storeRegisters x => do
    let bytes ← m.registers.getAll? (x + 1)
    let memory ← m.memory.putAll? m.index.toNat bytes
    { m with memory }.strictMoveIndex? d x
  | .loadRegisters x => do
    let bytes ← m.memory.getAll? m.index.toNat (x + 1)
    let registers ← m.registers.putAll? 0 bytes
    { m with registers }.strictMoveIndex? d x

/-! ### Cycles and waits -/

namespace Machine

/-- The word at the program counter, its first byte the higher one. -/
def strictWord? (m : Machine) : Option Word := do
  let high ← m.memory.get? m.pc.toNat
  let low ← m.memory.get? (m.pc.toNat + 1)
  return .ofNat (256 * high.toNat + low.toNat)

def strictCycle? (d : Dialect) (m : Machine) : Option Machine := do
  let w ← m.strictWord?
  let i ← Instruction.ofWord? w
  let m ← m.jump? (m.pc.toNat + 2)
  i.strictEffect? d m

def strictPoll? (m : Machine) : Option Machine :=
  match m.keypad.lowest? with
  | none => some m
  | some k => do
    let m ← m.putRegister? m.keyRegister.toNat (UInt8.ofNat k)
    let m ← m.jump? (m.pc.toNat + 2)
    return { m with awaiting := false }

/-- One step of the strict machine: a poll during a wait and a cycle otherwise. -/
def strictStep? (d : Dialect) (m : Machine) : Option Machine :=
  if m.awaiting then m.strictPoll? else m.strictCycle? d

end Machine

end Chip8
