import Chip8.Dialect
import Chip8.Fault
import Chip8.Host.Value

/-!
# Host errors

An operation of the host fails by a fault of the machine or by its misuse: an argument of the
wrong kind or out of range, or an operation that comes too early.
-/

namespace Chip8.Host

/-- The ways to misuse the machine. -/
inductive Misuse where
  | unknownDialect (name : String)
  | stepBeforeLoad
  | resetBeforeLoad
  /-- A value of this kind is no whole number. -/
  | notInteger (kind : Kind)
  | keyOutOfRange (key : Int)
  /-- The number to be written to memory is no byte. -/
  | byteOutOfRange (value : Int)
  /-- A value of this kind is refused as a program image. -/
  | imageRefused (kind : Kind)
  /-- A value of this kind has no items that could be the bytes of a program image. -/
  | imageWithoutItems (kind : Kind)
  /-- An item of a program image is no byte. -/
  | itemOutOfRange
deriving DecidableEq, Repr

namespace Misuse

/-- The names of the dialects as a list in quotes. -/
def dialectNames : String :=
  "[" ++ ", ".intercalate (Dialect.presets.map fun p => "'" ++ p.1 ++ "'") ++ "]"

def message : Misuse → String
  | .unknownDialect name => "Unknown quirks preset '" ++ name ++ "'. Available: " ++ dialectNames
  | .stepBeforeLoad => "step() called before load()"
  | .resetBeforeLoad => "No ROM loaded"
  | .notInteger kind => "'" ++ kind.name ++ "' object cannot be interpreted as an integer"
  | .keyOutOfRange key => "Key must be in 0x0-0xF, got " ++ key.repr
  | .byteOutOfRange value => "Byte value must be in 0-255, got " ++ value.repr
  | .imageRefused kind => "ROM image must be bytes, got " ++ kind.name
  | .imageWithoutItems kind => "cannot convert '" ++ kind.name ++ "' object to bytes"
  | .itemOutOfRange => "bytes must be in range(0, 256)"

end Misuse

/-- Why an operation of the host failed. -/
inductive Error where
  | fault (f : Fault)
  | misuse (m : Misuse)
deriving DecidableEq, Repr

def Error.message : Error → String
  | .fault f => f.message
  | .misuse m => m.message

/-- The dialect with a name. -/
def dialect (name : String) : Except Misuse Dialect :=
  match Dialect.preset? name with
  | some d => .ok d
  | none => .error (.unknownDialect name)

end Chip8.Host
