import Chip8.Machine.Effect
import Chip8.Proofs.Instruction.Encoding
import Mathlib.Logic.Function.Basic

/-!
# Operations on registers in numbers

An operation reads VX and VY and computes a number for VX, and most operations one for VF too. What
they compute is given here by arithmetic on numbers below 256, for each code of an operation, and so
is what the registers hold afterwards. The machine does just this for every code and all registers,
whether or not VX, VY and VF are the same (`Machine.execute_operation_computes`).
-/

namespace Chip8

/-- What an operation computes: a number for VX, and one for VF if it is set. -/
structure Computed where
  value : Nat
  flag? : Option Nat

namespace Computed

/-- What the operation with a code computes from the numbers in VX and VY. -/
def ofCode? (d : Dialect) (vx vy : Nat) (code : Fin 16) : Option Computed :=
  let cleared := if d.logicClearsVF then some 0 else none
  let shifted := if d.shiftReadsVY then vy else vx
  match code with
  | 0x0 => some ⟨vy, none⟩
  | 0x1 => some ⟨vx ||| vy, cleared⟩
  | 0x2 => some ⟨vx &&& vy, cleared⟩
  | 0x3 => some ⟨vx ^^^ vy, cleared⟩
  | 0x4 => some ⟨(vx + vy) % 256, some (if 255 < vx + vy then 1 else 0)⟩
  | 0x5 => some ⟨((vx - vy : Int) % 256).toNat, some (if vy ≤ vx then 1 else 0)⟩
  | 0x6 => some ⟨shifted / 2, some (shifted % 2)⟩
  | 0x7 => some ⟨((vy - vx : Int) % 256).toNat, some (if vx ≤ vy then 1 else 0)⟩
  | 0xE => some ⟨2 * shifted % 256, some (shifted / 128)⟩
  | _ => none

/-- The numbers in the registers after the result has gone to VX and then the flag to VF. -/
def store (r : Computed) (x : Fin 16) (v : Fin 16 → Nat) : Fin 16 → Nat :=
  let written := Function.update v x r.value
  match r.flag? with
  | some flag => Function.update written 0xF flag
  | none => written

end Computed

/-! ### Bytes as numbers -/

namespace Operation

variable (d : Dialect) (a b : UInt8)

lemma toNat_shiftRight_one : (a >>> 1).toNat = a.toNat / 2 := by
  rw [UInt8.toNat_shiftRight, Nat.shiftRight_eq_div_pow]
  rfl

lemma toNat_shiftRight_seven : (a >>> 7).toNat = a.toNat / 128 := by
  rw [UInt8.toNat_shiftRight, Nat.shiftRight_eq_div_pow]
  rfl

lemma toNat_shiftLeft_one : (a <<< 1).toNat = 2 * a.toNat % 256 := by
  rw [UInt8.toNat_shiftLeft, Nat.shiftLeft_eq, Nat.mul_comm]
  rfl

lemma toNat_and_one : (a &&& 1).toNat = a.toNat % 2 := by
  rw [UInt8.toNat_and]
  exact Nat.and_one_is_mod _

lemma toNat_sub_eq : (a - b).toNat = (((a.toNat : Int) - b.toNat) % 256).toNat := by
  have ha := a.toNat_lt
  have hb := b.toNat_lt
  rw [UInt8.toNat_sub]
  omega

lemma toNat_ite (p : Prop) [Decidable p] :
    (if p then 1 else 0 : UInt8).toNat = if p then 1 else 0 := by
  split <;> rfl

/-- What the code of an operation computes is what the operation yields on the bytes. -/
lemma ofCode?_code_eq (op : Operation) :
    let r := op.result (if op.readsSecond d then b else a) b
    Computed.ofCode? d a.toNat b.toNat op.code =
      some ⟨r.value.toNat, if op.setsFlag d then some r.flag.toNat else none⟩ := by
  have hshifted : (if d.shiftReadsVY then b.toNat else a.toNat) =
      (if d.shiftReadsVY then b else a).toNat := (apply_ite UInt8.toNat _ _ _).symm
  cases op with
  | copy => rfl
  | or | and | xor => simp [Computed.ofCode?, code, result, readsSecond, isShift, setsFlag]
  | add => simp [Computed.ofCode?, code, result, readsSecond, isShift, setsFlag, toNat_ite]
  | sub | subFrom =>
    simp [Computed.ofCode?, code, result, readsSecond, isShift, setsFlag, toNat_ite, toNat_sub_eq,
      UInt8.le_iff_toNat_le]
  | shiftRight =>
    simp only [Computed.ofCode?, code, result, readsSecond, isShift, setsFlag, hshifted,
      toNat_shiftRight_one, toNat_and_one, Bool.true_and, if_true]
  | shiftLeft =>
    simp only [Computed.ofCode?, code, result, readsSecond, isShift, setsFlag, hshifted,
      toNat_shiftLeft_one, toNat_shiftRight_seven, Bool.true_and, if_true]

/-- A digit that selects no operation computes nothing. -/
lemma ofCode?_eq_none {n : Fin 16} (h : Operation.ofCode? n = none) (vx vy : Nat) :
    Computed.ofCode? d vx vy n = none := by
  simp only [Computed.ofCode?]
  split
  case h_10 => rfl
  all_goals cases h

end Operation

/-! ### The registers afterwards -/

namespace Registers

/-- The numbers in the registers. -/
def numbers (r : Registers) (z : Fin 16) : Nat :=
  (r.get z).toNat

lemma numbers_set (r : Registers) (x : Fin 16) (b : UInt8) :
    (r.set x b).numbers = Function.update r.numbers x b.toNat := by
  funext z
  rw [numbers, get_set, Function.update_apply, apply_ite UInt8.toNat]
  exact if_congr eq_comm rfl rfl

end Registers

/-- What the registers hold after the operation with a code on VX and VY. -/
def Computed.after (d : Dialect) (v : Fin 16 → Nat) (x y code : Fin 16) : Fin 16 → Nat :=
  match ofCode? d (v x) (v y) code with
  | some r => r.store x v
  | none => v

namespace Machine

/-- The operation stores what its code computes. -/
lemma numbers_operate (d : Dialect) (op : Operation) (x y : Fin 16) (m : Machine) :
    (m.operate d op x y).registers.numbers =
      Computed.after d m.registers.numbers x y op.code := by
  -- The operation chooses a register to read, the table chooses between two numbers.
  have hfirst : m.registers.get (if op.readsSecond d then y else x) =
      if op.readsSecond d then m.registers.get y else m.registers.get x :=
    apply_ite m.registers.get _ _ _
  have hcomputed := Operation.ofCode?_code_eq d (m.registers.get x) (m.registers.get y) op
  rw [Computed.after, Registers.numbers, Registers.numbers, hcomputed, operate, hfirst]
  cases hflag : op.setsFlag d with
  | false =>
    simp only [Bool.false_eq_true, if_false, Registers.numbers_set]
    rfl
  | true =>
    simp only [if_true, Registers.numbers_set]
    rfl

/-- The last digit of a word of the eighth kind selects an operation, or the word does nothing. -/
lemma execute_operation (d : Dialect) (m : Machine) (x y n : Fin 16) :
    m.execute d (Word.toNat ⟨0x8, x, y, n⟩) =
      (Operation.ofCode? n).elim m fun op => m.operate d op x y := by
  have hdispatch : Instruction.dispatch? (Word.toNat ⟨0x8, x, y, n⟩) =
      (Operation.ofCode? n).map (.operate · x y) := by
    rw [Instruction.dispatch?, Word.ofInt_natCast, Word.ofNat_toNat]
    rfl
  rw [execute, hdispatch]
  cases Operation.ofCode? n <;> rfl

/-- A word of the eighth kind does to the registers what its last digit computes from the numbers in
them, and nothing else. -/
theorem execute_operation_computes (d : Dialect) (m : Machine) (x y n : Fin 16) :
    let m' := m.execute d (Word.toNat ⟨0x8, x, y, n⟩)
    m' = { m with registers := m'.registers } ∧
      m'.registers.numbers = Computed.after d m.registers.numbers x y n := by
  dsimp only
  rw [execute_operation]
  cases hop : Operation.ofCode? n with
  | some op =>
    obtain rfl := Operation.ofCode?_eq_some_iff.mp hop
    exact ⟨rfl, numbers_operate d op x y m⟩
  | none =>
    rw [Computed.after, Operation.ofCode?_eq_none d hop]
    exact ⟨rfl, rfl⟩

end Machine

end Chip8
