import Chip8.Host.Error

/-!
# Program images

A program image is a list of bytes. The host may offer any value as an image: the items of a
sequence become its bytes, and the first item that is no byte decides the error. A record
offers the names of its fields.
-/

namespace Chip8.Host.Value

/-- The byte that a value stands for. -/
def byte (v : Value) : Except Misuse UInt8 :=
  match v.index? with
  | none => .error (.notInteger v.kind)
  | some z => if 0 ≤ z ∧ z < 256 then .ok (UInt8.ofNat z.toNat) else .error .itemOutOfRange

/-- The program image that a value stands for. -/
def image : Value → Except Misuse (List UInt8)
  | .sequence items => items.mapM byte
  | .record fields => (fields.map fun f => text f.1).mapM byte
  | .flag _ => .error (.imageRefused .flag)
  | .integer _ => .error (.imageRefused .integer)
  | .text _ => .error (.imageRefused .text)
  | .nothing => .error (.imageWithoutItems .nothing)
  | .real _ => .error (.imageWithoutItems .real)

end Chip8.Host.Value
