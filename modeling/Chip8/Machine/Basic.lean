import Chip8.Fault
import Chip8.Machine.CallStack
import Chip8.Machine.Display
import Chip8.Machine.Font
import Chip8.Machine.Keypad
import Chip8.Machine.Memory
import Chip8.Machine.Random
import Chip8.Machine.Registers

/-!
# The machine

The state of the machine, its state when it is switched on, and the events that come from
outside a program: a program image, a tick of the timers and a key that ends a wait.
-/

namespace Chip8

structure Machine where
  memory : Memory
  pc : UInt16
  /-- The address register I. -/
  index : UInt16
  registers : Registers
  display : Display
  stack : CallStack
  delay : UInt8
  sound : UInt8
  keypad : Keypad
  /-- Whether the program waits for a key. -/
  awaiting : Bool
  /-- The register that receives the key of a wait. It stays when the wait is over. -/
  keyRegister : UInt8
  random : Random.Pair
deriving DecidableEq

namespace Machine

/-- A machine whose parts are all zero, dark, up or empty. -/
def zero : Machine where
  memory := .zero
  pc := 0
  index := 0
  registers := .zero
  display := .blank
  stack := .empty
  delay := 0
  sound := 0
  keypad := .released
  awaiting := false
  keyRegister := 0
  random := ⟨0, 0⟩

/-- The machine when it is switched on, with the glyphs in memory. -/
def fresh (seed : Int64) : Machine :=
  { zero with
    memory := Memory.zero.writeAll Font.start Font.bytes
    pc := UInt16.ofNat Memory.programStart
    random := Random.ofSeed seed }

def load (image : List UInt8) (m : Machine) : Except Fault Machine :=
  if Memory.programSpace < image.length then
    .error (.imageTooLarge image.length Memory.programSpace)
  else
    .ok { m with memory := m.memory.writeAll Memory.programStart image }

/-- A timer counts down to zero. -/
def countDown (t : UInt8) : UInt8 :=
  if 0 < t then t - 1 else t

def tick (m : Machine) : Machine :=
  { m with delay := countDown m.delay, sound := countDown m.sound }

def soundActive (m : Machine) : Bool :=
  0 < m.sound

/-- End a wait if a key is down: the lowest one goes into the register that waits for it, and
the program continues behind the waiting instruction. -/
def poll (m : Machine) : Machine :=
  match m.awaiting, m.keypad.lowest? with
  | true, some k =>
    { m with
      registers := m.registers.set? m.keyRegister.toNat (UInt8.ofNat k)
      pc := m.pc + 2
      awaiting := false }
  | _, _ => m

theorem poll_of_not_awaiting {m : Machine} (h : m.awaiting = false) : m.poll = m := by
  simp [poll, h]

theorem poll_of_released {m : Machine} (h : m.keypad.lowest? = none) : m.poll = m := by
  cases ha : m.awaiting <;> simp [poll, h, ha]

end Machine

end Chip8
