import Chip8.Machine.Basic
import Chip8.Text.Hex

/-!
# Reports

A report shows the state of the processor in four lines: the counters, two rows of registers
and the addresses on the call stack. A fifth line stands there while the program waits for a
key.
-/

namespace Chip8.Machine

/-- Program counter, index and timers. -/
def counterLine (m : Machine) : String :=
  "PC: 0x" ++ Hex.ofNat 3 m.pc.toNat ++ "  I: 0x" ++ Hex.ofNat 3 m.index.toNat ++
    "  DT: " ++ m.delay.toNat.repr ++ "  ST: " ++ m.sound.toNat.repr

def registerText (m : Machine) (x : Fin 16) : String :=
  "V" ++ Hex.ofNat 1 x ++ ":" ++ Hex.ofNat 2 (m.registers.get x).toNat

def registerLine (m : Machine) (xs : List (Fin 16)) : String :=
  " ".intercalate (xs.map m.registerText)

/-- The addresses on the call stack, or a dash if there are none. -/
def stackLine (m : Machine) : String :=
  "Stack: " ++
    match m.stack.visible with
    | [] => "-"
    | addresses => " ".intercalate (addresses.map fun a => Hex.ofNat 3 a.toNat)

/-- The register that waits for a key. -/
def waitLine (x : Nat) : String :=
  "Waiting for key -> V" ++ Hex.ofNat 1 x

def report (m : Machine) : List String :=
  [m.counterLine,
   m.registerLine [0, 1, 2, 3, 4, 5, 6, 7],
   m.registerLine [8, 9, 10, 11, 12, 13, 14, 15],
   m.stackLine] ++
  if m.awaiting then [waitLine m.keyRegister.toNat] else []

def reportText (m : Machine) : String :=
  "\n".intercalate m.report

end Chip8.Machine
