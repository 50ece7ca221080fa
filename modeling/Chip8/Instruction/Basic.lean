import Chip8.Instruction.Operation

/-!
# Instructions

The instructions of the machine with their operands. Registers are given by number, targets of
jumps are 12-bit addresses.
-/

namespace Chip8

inductive Instruction where
  | clearScreen
  | ret
  | jump (target : Fin 4096)
  | call (target : Fin 4096)
  | skipIfByte (x : Fin 16) (b : UInt8)
  | skipUnlessByte (x : Fin 16) (b : UInt8)
  | skipIfSame (x y : Fin 16)
  | skipUnlessSame (x y : Fin 16)
  | setByte (x : Fin 16) (b : UInt8)
  | addByte (x : Fin 16) (b : UInt8)
  | operate (op : Operation) (x y : Fin 16)
  | setIndex (target : Fin 4096)
  | jumpOffset (target : Fin 4096)
  | random (x : Fin 16) (mask : UInt8)
  | draw (x y height : Fin 16)
  | skipIfPressed (x : Fin 16)
  | skipUnlessPressed (x : Fin 16)
  | readDelay (x : Fin 16)
  | awaitKey (x : Fin 16)
  | setDelay (x : Fin 16)
  | setSound (x : Fin 16)
  | addIndex (x : Fin 16)
  | glyph (x : Fin 16)
  | storeDecimal (x : Fin 16)
  | storeRegisters (x : Fin 16)
  | loadRegisters (x : Fin 16)
deriving DecidableEq, Repr

namespace Instruction

/-- The name that tells the instruction from every other kind of instruction. -/
def mnemonic : Instruction → String
  | .clearScreen => "CLS"
  | .ret => "RET"
  | .jump _ => "JP"
  | .call _ => "CALL"
  | .skipIfByte _ _ => "SE_VX_NN"
  | .skipUnlessByte _ _ => "SNE_VX_NN"
  | .skipIfSame _ _ => "SE_VX_VY"
  | .skipUnlessSame _ _ => "SNE_VX_VY"
  | .setByte _ _ => "LD_VX_NN"
  | .addByte _ _ => "ADD_VX_NN"
  | .operate .copy _ _ => "LD_VX_VY"
  | .operate .add _ _ => "ADD_VX_VY"
  | .operate op _ _ => op.mnemonic
  | .setIndex _ => "LD_I"
  | .jumpOffset _ => "JP_OFFSET"
  | .random _ _ => "RND"
  | .draw _ _ _ => "DRW"
  | .skipIfPressed _ => "SKP"
  | .skipUnlessPressed _ => "SKNP"
  | .readDelay _ => "LD_VX_DT"
  | .awaitKey _ => "LD_VX_K"
  | .setDelay _ => "LD_DT_VX"
  | .setSound _ => "LD_ST_VX"
  | .addIndex _ => "ADD_I_VX"
  | .glyph _ => "LD_F_VX"
  | .storeDecimal _ => "LD_B_VX"
  | .storeRegisters _ => "LD_MEM_VX"
  | .loadRegisters _ => "LD_VX_MEM"

end Instruction

end Chip8
