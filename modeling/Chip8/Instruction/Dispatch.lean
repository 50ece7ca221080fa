import Chip8.Instruction.Basic
import Chip8.Word

/-!
# Dispatch on digits

The machine itself does not look for a pattern. It selects by the first digit of a word, and
within a kind by the other digits that it needs, so some words that are no instruction still
run as one: the last digit of a comparison of two registers is not looked at, and every key
skip that is not the negative one is the positive one. Words without an instruction are idle.
-/

namespace Chip8.Instruction

/-- The instructions of kind F, by the last two digits. -/
def ofByte? (x : Fin 16) (b : UInt8) : Option Instruction :=
  match b with
  | 0x07 => some (.readDelay x)
  | 0x0A => some (.awaitKey x)
  | 0x15 => some (.setDelay x)
  | 0x18 => some (.setSound x)
  | 0x1E => some (.addIndex x)
  | 0x29 => some (.glyph x)
  | 0x33 => some (.storeDecimal x)
  | 0x55 => some (.storeRegisters x)
  | 0x65 => some (.loadRegisters x)
  | _ => none

/-- The instructions of kind 0. They have no operand and are compared as whole numbers. -/
def ofNumber? (z : Int) : Option Instruction :=
  if z = 0x00E0 then some .clearScreen
  else if z = 0x00EE then some .ret
  else none

/-- The instruction that the machine runs for a number. -/
def dispatch? (z : Int) : Option Instruction :=
  let w := Word.ofInt z
  match w.kind with
  | 0x0 => ofNumber? z
  | 0x1 => some (.jump w.address)
  | 0x2 => some (.call w.address)
  | 0x3 => some (.skipIfByte w.x w.byte)
  | 0x4 => some (.skipUnlessByte w.x w.byte)
  | 0x5 => some (.skipIfSame w.x w.y)
  | 0x6 => some (.setByte w.x w.byte)
  | 0x7 => some (.addByte w.x w.byte)
  | 0x8 => (Operation.ofCode? w.n).map (.operate · w.x w.y)
  | 0x9 => some (.skipUnlessSame w.x w.y)
  | 0xA => some (.setIndex w.address)
  | 0xB => some (.jumpOffset w.address)
  | 0xC => some (.random w.x w.byte)
  | 0xD => some (.draw w.x w.y w.n)
  | 0xE => some (if w.byte = 0xA1 then .skipUnlessPressed w.x else .skipIfPressed w.x)
  | _ => ofByte? w.x w.byte

end Chip8.Instruction
