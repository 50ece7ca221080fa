import Chip8.Instruction.Pattern

/-!
# Assembly text

A word is shown as one line of assembly: a name and its operands, which are separated by
commas. Each kind of operand is written in its own way, so that the text tells it apart from
every other. A word that is no instruction is shown as data.
-/

namespace Chip8

/-- What can stand behind the name in a line of assembly. -/
inductive Operand where
  | register (x : Fin 16)
  | byte (b : UInt8)
  | address (a : Fin 4096)
  | word (z : Int)
  | height (n : Fin 16)
  | index
  /-- The memory that the index points to. -/
  | memory
  | delay
  | sound
  | key
  | glyph
  | decimal
deriving DecidableEq, Repr

namespace Operand

def text : Operand → String
  | .register x => "V" ++ Hex.ofNat 1 x
  | .byte b => "0x" ++ Hex.ofNat 2 b.toNat
  | .address a => "0x" ++ Hex.ofNat 3 a
  | .word z => "0x" ++ Hex.ofInt 4 z
  | .height n => n.val.repr
  | .index => "I"
  | .memory => "[I]"
  | .delay => "DT"
  | .sound => "ST"
  | .key => "K"
  | .glyph => "F"
  | .decimal => "B"

end Operand

structure AssemblyLine where
  name : String
  operands : List Operand
deriving DecidableEq, Repr

namespace AssemblyLine

/-- A blank follows the name if there are operands. -/
def text (l : AssemblyLine) : String :=
  match l.operands with
  | [] => l.name
  | os => l.name ++ " " ++ ", ".intercalate (os.map Operand.text)

end AssemblyLine

namespace Instruction

def line : Instruction → AssemblyLine
  | .clearScreen => ⟨"CLS", []⟩
  | .ret => ⟨"RET", []⟩
  | .jump a => ⟨"JP", [.address a]⟩
  | .call a => ⟨"CALL", [.address a]⟩
  | .skipIfByte x b => ⟨"SE", [.register x, .byte b]⟩
  | .skipUnlessByte x b => ⟨"SNE", [.register x, .byte b]⟩
  | .skipIfSame x y => ⟨"SE", [.register x, .register y]⟩
  | .skipUnlessSame x y => ⟨"SNE", [.register x, .register y]⟩
  | .setByte x b => ⟨"LD", [.register x, .byte b]⟩
  | .addByte x b => ⟨"ADD", [.register x, .byte b]⟩
  | .operate op x y => ⟨op.mnemonic, [.register x, .register y]⟩
  | .setIndex a => ⟨"LD", [.index, .address a]⟩
  | .jumpOffset a => ⟨"JP", [.register 0, .address a]⟩
  | .random x b => ⟨"RND", [.register x, .byte b]⟩
  | .draw x y n => ⟨"DRW", [.register x, .register y, .height n]⟩
  | .skipIfPressed x => ⟨"SKP", [.register x]⟩
  | .skipUnlessPressed x => ⟨"SKNP", [.register x]⟩
  | .readDelay x => ⟨"LD", [.register x, .delay]⟩
  | .awaitKey x => ⟨"LD", [.register x, .key]⟩
  | .setDelay x => ⟨"LD", [.delay, .register x]⟩
  | .setSound x => ⟨"LD", [.sound, .register x]⟩
  | .addIndex x => ⟨"ADD", [.index, .register x]⟩
  | .glyph x => ⟨"LD", [.glyph, .register x]⟩
  | .storeDecimal x => ⟨"LD", [.decimal, .register x]⟩
  | .storeRegisters x => ⟨"LD", [.memory, .register x]⟩
  | .loadRegisters x => ⟨"LD", [.register x, .memory]⟩

end Instruction

/-- The line of a number: its instruction, or the whole number as data. -/
def AssemblyLine.ofInt (z : Int) : AssemblyLine :=
  match Instruction.ofWord? (.ofInt z) with
  | some i => i.line
  | none => ⟨"DW", [.word z]⟩

def disassemble (z : Int) : String :=
  (AssemblyLine.ofInt z).text

end Chip8
