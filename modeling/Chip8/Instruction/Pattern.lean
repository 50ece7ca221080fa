import Chip8.Fault
import Chip8.Instruction.Basic
import Chip8.Word

/-!
# Instruction patterns

Every instruction has one pattern of four places, each a fixed digit or free for an operand.
`Instruction.forms` lists the patterns together with the instruction that each one reads from a
word, and a word is an instruction if it fits one of them. No word fits two.
-/

namespace Chip8

/-- Four places of a word, each with the digit it must hold, or free. -/
structure Pattern where
  kind : Option (Fin 16)
  x : Option (Fin 16)
  y : Option (Fin 16)
  n : Option (Fin 16)
deriving DecidableEq, Repr

namespace Pattern

def exact (kind x y n : Fin 16) : Pattern :=
  ⟨some kind, some x, some y, some n⟩

/-- Only the first digit is fixed. -/
def first (kind : Fin 16) : Pattern :=
  ⟨some kind, none, none, none⟩

/-- The first and the last digit are fixed. -/
def firstLast (kind n : Fin 16) : Pattern :=
  ⟨some kind, none, none, some n⟩

/-- All digits but the second are fixed. -/
def firstByte (kind y n : Fin 16) : Pattern :=
  ⟨some kind, none, some y, some n⟩

/-- Whether a digit may stand at a place. -/
def allows (place : Option (Fin 16)) (digit : Fin 16) : Bool :=
  place.all (· == digit)

/-- Whether each digit of the word may stand at its place. -/
def fits (p : Pattern) (w : Word) : Bool :=
  allows p.kind w.kind && allows p.x w.x && allows p.y w.y && allows p.n w.n

end Pattern

/-- A pattern and the instruction that a word of this pattern is. -/
structure Form where
  pattern : Pattern
  read : Word → Instruction

namespace Instruction

def operationForm (op : Operation) : Form :=
  ⟨.firstLast 0x8 op.code, fun w => .operate op w.x w.y⟩

def forms : List Form :=
  [⟨.exact 0x0 0x0 0xE 0x0, fun _ => .clearScreen⟩,
   ⟨.exact 0x0 0x0 0xE 0xE, fun _ => .ret⟩,
   ⟨.first 0x1, fun w => .jump w.address⟩,
   ⟨.first 0x2, fun w => .call w.address⟩,
   ⟨.first 0x3, fun w => .skipIfByte w.x w.byte⟩,
   ⟨.first 0x4, fun w => .skipUnlessByte w.x w.byte⟩,
   ⟨.firstLast 0x5 0x0, fun w => .skipIfSame w.x w.y⟩,
   ⟨.first 0x6, fun w => .setByte w.x w.byte⟩,
   ⟨.first 0x7, fun w => .addByte w.x w.byte⟩,
   operationForm .copy,
   operationForm .or,
   operationForm .and,
   operationForm .xor,
   operationForm .add,
   operationForm .sub,
   operationForm .shiftRight,
   operationForm .subFrom,
   operationForm .shiftLeft,
   ⟨.firstLast 0x9 0x0, fun w => .skipUnlessSame w.x w.y⟩,
   ⟨.first 0xA, fun w => .setIndex w.address⟩,
   ⟨.first 0xB, fun w => .jumpOffset w.address⟩,
   ⟨.first 0xC, fun w => .random w.x w.byte⟩,
   ⟨.first 0xD, fun w => .draw w.x w.y w.n⟩,
   ⟨.firstByte 0xE 0x9 0xE, fun w => .skipIfPressed w.x⟩,
   ⟨.firstByte 0xE 0xA 0x1, fun w => .skipUnlessPressed w.x⟩,
   ⟨.firstByte 0xF 0x0 0x7, fun w => .readDelay w.x⟩,
   ⟨.firstByte 0xF 0x0 0xA, fun w => .awaitKey w.x⟩,
   ⟨.firstByte 0xF 0x1 0x5, fun w => .setDelay w.x⟩,
   ⟨.firstByte 0xF 0x1 0x8, fun w => .setSound w.x⟩,
   ⟨.firstByte 0xF 0x1 0xE, fun w => .addIndex w.x⟩,
   ⟨.firstByte 0xF 0x2 0x9, fun w => .glyph w.x⟩,
   ⟨.firstByte 0xF 0x3 0x3, fun w => .storeDecimal w.x⟩,
   ⟨.firstByte 0xF 0x5 0x5, fun w => .storeRegisters w.x⟩,
   ⟨.firstByte 0xF 0x6 0x5, fun w => .loadRegisters w.x⟩]

/-- What a word is by the first form in a table that it fits. -/
def find? (table : List Form) (w : Word) : Option Instruction :=
  (table.find? (·.pattern.fits w)).map (·.read w)

/-- The instruction that a word is, if it is one. -/
def ofWord? (w : Word) : Option Instruction :=
  find? forms w

/-- The instruction in the lowest sixteen bits of a number, or the fault of running it. -/
def identify (z : Int) (address : Option Int) : Except Fault Instruction :=
  match ofWord? (.ofInt z) with
  | some i => .ok i
  | none => .error (.unknownWord z address)

end Instruction

end Chip8
