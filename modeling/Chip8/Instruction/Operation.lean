import Chip8.Dialect

/-!
# Operations on two registers

An operation takes the values of two registers and yields a value and a flag. Sums and
differences wrap at 256. The flag of a sum is its carry, the flag of a difference is set unless
it had to borrow. A shift works on its first operand alone, and its flag is the bit that leaves
the byte.
-/

namespace Chip8

inductive Operation where
  /-- The second operand. -/
  | copy
  | or
  | and
  | xor
  | add
  /-- The first operand less the second. -/
  | sub
  | shiftRight
  /-- The second operand less the first. -/
  | subFrom
  | shiftLeft
deriving DecidableEq, Repr

namespace Operation

/-- The digit by which an instruction word selects the operation. -/
def code : Operation → Fin 16
  | .copy => 0
  | .or => 1
  | .and => 2
  | .xor => 3
  | .add => 4
  | .sub => 5
  | .shiftRight => 6
  | .subFrom => 7
  | .shiftLeft => 14

/-- The operation that a digit selects. Seven digits select none. -/
def ofCode? : Fin 16 → Option Operation
  | 0 => some .copy
  | 1 => some .or
  | 2 => some .and
  | 3 => some .xor
  | 4 => some .add
  | 5 => some .sub
  | 6 => some .shiftRight
  | 7 => some .subFrom
  | 14 => some .shiftLeft
  | _ => none

@[simp] theorem ofCode?_code (op : Operation) : ofCode? op.code = some op := by
  cases op <;> rfl

theorem ofCode?_eq_some_iff {c : Fin 16} {op : Operation} :
    ofCode? c = some op ↔ c = op.code := by
  revert c; cases op <;> decide

/-- The name of the operation in assembly text. -/
def mnemonic : Operation → String
  | .copy => "LD"
  | .or => "OR"
  | .and => "AND"
  | .xor => "XOR"
  | .add => "ADD"
  | .sub => "SUB"
  | .shiftRight => "SHR"
  | .subFrom => "SUBN"
  | .shiftLeft => "SHL"

structure Result where
  value : UInt8
  flag : UInt8
deriving DecidableEq, Repr

/-- The result on a first operand `a` and a second operand `b`. -/
def result (a b : UInt8) : Operation → Result
  | .copy => ⟨b, 0⟩
  | .or => ⟨a ||| b, 0⟩
  | .and => ⟨a &&& b, 0⟩
  | .xor => ⟨a ^^^ b, 0⟩
  | .add => ⟨a + b, if 255 < a.toNat + b.toNat then 1 else 0⟩
  | .sub => ⟨a - b, if b ≤ a then 1 else 0⟩
  | .shiftRight => ⟨a >>> 1, a &&& 1⟩
  | .subFrom => ⟨b - a, if a ≤ b then 1 else 0⟩
  | .shiftLeft => ⟨a <<< 1, a >>> 7⟩

/-- The result of a code. One that selects no operation keeps the first operand. -/
def codeResult (a b : UInt8) : Option Operation → Result
  | some op => op.result a b
  | none => ⟨a, 0⟩

/-- Whether the operation moves the bits of its first operand. -/
def isShift : Operation → Bool
  | .shiftRight | .shiftLeft => true
  | _ => false

/-- Whether the flag goes to VF: always after arithmetic, never after copying, and after a
logical operation if the dialect says so. -/
def setsFlag (d : Dialect) : Operation → Bool
  | .copy => false
  | .or | .and | .xor => d.logicClearsVF
  | .add | .sub | .shiftRight | .subFrom | .shiftLeft => true

/-- Whether the first operand is read from VY. -/
def readsSecond (d : Dialect) (op : Operation) : Bool :=
  op.isShift && d.shiftReadsVY

end Operation

end Chip8
