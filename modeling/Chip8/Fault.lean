import Chip8.Text.Hex

/-!
# Faults

A fault ends the run of a program. It records what went wrong and where, and `Fault.message`
says it in words.
-/

namespace Chip8

/-- The ways in which a program image or a running program can fail. -/
inductive Fault where
  /-- The image has more bytes than fit behind the start of programs. -/
  | imageTooLarge (size limit : Nat)
  /-- The word is no instruction. The address is known if it was fetched. -/
  | unknownWord (word : Int) (address : Option Int)
  /-- A call found every slot of the stack in use. -/
  | stackOverflow (address depth : Int)
  /-- A return found the stack empty. -/
  | stackUnderflow (address : Int)
  /-- Not all of the `length` bytes from `address` on lie in memory. -/
  | outOfBounds (address length : Int)
deriving DecidableEq, Repr

namespace Fault

def message : Fault → String
  | .imageTooLarge size limit =>
    "ROM is " ++ size.repr ++ " bytes, program space holds " ++ limit.repr
  | .unknownWord word none => "Unknown opcode 0x" ++ Hex.ofInt 4 word
  | .unknownWord word (some address) =>
    "Unknown opcode 0x" ++ Hex.ofInt 4 word ++ " at 0x" ++ Hex.ofInt 3 address
  | .stackOverflow address depth =>
    "Stack overflow at 0x" ++ Hex.ofInt 3 address ++ " (depth " ++ depth.repr ++ ")"
  | .stackUnderflow address => "Stack underflow at 0x" ++ Hex.ofInt 3 address
  | .outOfBounds address length =>
    "Memory access out of bounds: 0x" ++ Hex.ofInt 4 address ++
      if length = 1 then "" else "-0x" ++ Hex.ofInt 4 (address + length - 1)

end Fault

end Chip8
