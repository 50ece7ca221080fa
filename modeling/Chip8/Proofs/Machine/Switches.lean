import Chip8.Proofs.Machine.Frame

/-!
# Switches as rewritings

A switch of a dialect adds nothing that a program could not do without it. A shift that reads VY is
a copy and a shift in place, a logical operation that clears VF has the instruction behind it that
does so, a transfer that moves the index is followed by an addition to it, and a jump that adds VX
finds VX in V0 (`Machine.execute_switched`). This holds for all registers, also where the copy
overwrites an operand or VF.
-/

namespace Chip8

namespace Operation

/-- The operations that work bit by bit. -/
def isLogic : Operation → Bool
  | .or | .and | .xor => true
  | _ => false

variable {op : Operation}

lemma setsFlag_of_isShift (h : op.isShift = true) (d : Dialect) : op.setsFlag d = true := by
  cases op with
  | shiftRight | shiftLeft => rfl
  | _ => cases h

lemma setsFlag_of_isLogic (h : op.isLogic = true) (d : Dialect) :
    op.setsFlag d = d.logicClearsVF := by
  cases op with
  | or | and | xor => rfl
  | _ => cases h

lemma flag_result_of_isLogic (h : op.isLogic = true) (a b : UInt8) : (op.result a b).flag = 0 := by
  cases op with
  | or | and | xor => rfl
  | _ => cases h

end Operation

/-- The first digit of the target names the register. -/
lemma Dialect.offsetRegister_address (d : Dialect) (kind x y n : Fin 16) :
    d.offsetRegister (Word.address ⟨kind, x, y, n⟩) = if d.jumpReadsVX then x else 0 := by
  have hx : (256 * (x : Nat) + 16 * y + n) / 256 = x := by omega
  simp only [offsetRegister, Word.val_address, hx]

namespace Machine

/-! ### Operations -/

section

variable {op : Operation}

/-- The shift in place finds VY where the copy has put it, and overwrites it there. The flag goes to
VF last on both sides. -/
lemma operate_shift (h : op.isShift = true) (d : Dialect) (x y : Fin 16) (m : Machine) :
    m.operate { d with shiftReadsVY := true } op x y =
      (m.operate d .copy x y).operate { d with shiftReadsVY := false } op x x := by
  have hcopy : m.operate d .copy x y = m.setRegister x (m.registers.get y) := rfl
  rw [hcopy, setRegister, operate, operate]
  simp only [Operation.readsSecond, h, Operation.setsFlag_of_isShift h, Registers.get_set_self,
    Registers.set_set, Bool.and_self, ite_self, if_true]

/-- Clearing VF overwrites a result that has gone there. -/
lemma operate_logic (h : op.isLogic = true) (d : Dialect) (x y : Fin 16) (m : Machine) :
    m.operate { d with logicClearsVF := true } op x y =
      (m.operate { d with logicClearsVF := false } op x y).setRegister Registers.flag 0 := by
  have hread : op.readsSecond { d with logicClearsVF := true } =
      op.readsSecond { d with logicClearsVF := false } := rfl
  rw [operate, operate, hread]
  simp only [Operation.setsFlag_of_isLogic h, Operation.flag_result_of_isLogic h, setRegister,
    if_true, Bool.false_eq_true, if_false]

lemma execute_code (d : Dialect) (op : Operation) (x y : Fin 16) (m : Machine) :
    m.execute d (Word.toNat ⟨0x8, x, y, op.code⟩) = m.operate d op x y :=
  execute_encode d (.operate op x y) m

lemma execute_shift (d : Dialect) (op : Operation) (h : op.isShift = true) (x y : Fin 16)
    (m : Machine) :
    m.execute { d with shiftReadsVY := true } (Word.toNat ⟨0x8, x, y, op.code⟩) =
      (m.execute d (Word.toNat ⟨0x8, x, y, 0x0⟩)).execute { d with shiftReadsVY := false }
        (Word.toNat ⟨0x8, x, x, op.code⟩) := by
  rw [execute_code, execute_code, operate_shift h]
  exact congrArg _ (execute_code d .copy x y m).symm

lemma execute_logic (d : Dialect) (op : Operation) (h : op.isLogic = true) (x y : Fin 16)
    (m : Machine) :
    m.execute { d with logicClearsVF := true } (Word.toNat ⟨0x8, x, y, op.code⟩) =
      (m.execute { d with logicClearsVF := false } (Word.toNat ⟨0x8, x, y, op.code⟩)).execute d
        (Word.toNat ⟨0x6, 0xF, 0x0, 0x0⟩) := by
  rw [execute_code, execute_code, operate_logic h]
  exact (execute_encode d (.setByte Registers.flag 0) _).symm

end

/-! ### Transfers and jumps -/

lemma moveIndex_switched (d : Dialect) (x : Fin 16) (m : Machine) :
    m.moveIndex { d with transferMovesI := true } x =
      let plain := m.moveIndex { d with transferMovesI := false } x
      { plain with index := UInt16.ofNat ((plain.index.toNat + x + 1) % 65536) } := by
  have hindex : m.index + UInt16.ofNat (x + 1) =
      UInt16.ofNat ((m.index.toNat + x + 1) % 65536) := by
    rw [← UInt16.toNat_inj, UInt16.toNat_add, UInt16.toNat_ofNat', UInt16.toNat_ofNat']
    omega
  rw [moveIndex_eq, moveIndex_eq]
  simp only [if_true, Bool.false_eq_true, if_false, hindex]

lemma execute_jumpOffset (d : Dialect) (x y n : Fin 16) (m : Machine) :
    let w : Word := ⟨0xB, x, y, n⟩
    m.execute d w.toNat =
      { m with pc := UInt16.ofNat w.address +
          (m.registers.get (if d.jumpReadsVX then x else 0)).toUInt16 } := by
  intro w
  have heffect := execute_encode d (.jumpOffset w.address) m
  rw [Instruction.encode, Word.ofAddress_address] at heffect
  rw [heffect, Instruction.effect, Dialect.offsetRegister_address]

/-- Each instruction that a switch changes is the same instruction without the switch, with another
one before or behind it, an addition to the index behind it, or VX in the place of V0 meanwhile. -/
theorem execute_switched (d : Dialect) (m : Machine) (x y n : Fin 16) :
    (∀ shift ∈ [0x6, 0xE],
      m.execute { d with shiftReadsVY := true } (Word.toNat ⟨0x8, x, y, shift⟩) =
        (m.execute d (Word.toNat ⟨0x8, x, y, 0x0⟩)).execute { d with shiftReadsVY := false }
          (Word.toNat ⟨0x8, x, x, shift⟩)) ∧
    (∀ logic ∈ [0x1, 0x2, 0x3],
      m.execute { d with logicClearsVF := true } (Word.toNat ⟨0x8, x, y, logic⟩) =
        (m.execute { d with logicClearsVF := false } (Word.toNat ⟨0x8, x, y, logic⟩)).execute d
          (Word.toNat ⟨0x6, 0xF, 0x0, 0x0⟩)) ∧
    (∀ transfer ∈ [0x5, 0x6],
      let plain :=
        m.execute { d with transferMovesI := false } (Word.toNat ⟨0xF, x, transfer, 0x5⟩)
      m.execute { d with transferMovesI := true } (Word.toNat ⟨0xF, x, transfer, 0x5⟩) =
        { plain with index := UInt16.ofNat ((plain.index.toNat + x + 1) % 65536) }) ∧
    m.execute { d with jumpReadsVX := true } (Word.toNat ⟨0xB, x, y, n⟩) =
      ((m.setRegister 0x0 (m.registers.get x)).execute { d with jumpReadsVX := false }
        (Word.toNat ⟨0xB, x, y, n⟩)).setRegister 0x0 (m.registers.get 0x0) := by
  refine ⟨?shift, ?logic, ?transfer, ?jump⟩
  case shift =>
    rw [List.forall_mem_cons, List.forall_mem_singleton]
    exact ⟨execute_shift d .shiftRight rfl x y m, execute_shift d .shiftLeft rfl x y m⟩
  case logic =>
    rw [List.forall_mem_cons, List.forall_mem_cons, List.forall_mem_singleton]
    exact ⟨execute_logic d .or rfl x y m, execute_logic d .and rfl x y m,
      execute_logic d .xor rfl x y m⟩
  case transfer =>
    have hstore (e : Dialect) : m.execute e (Word.toNat ⟨0xF, x, 0x5, 0x5⟩) =
        (m.storeRegisters x).moveIndex e x := execute_encode e (.storeRegisters x) m
    have hload (e : Dialect) : m.execute e (Word.toNat ⟨0xF, x, 0x6, 0x5⟩) =
        (m.loadRegisters x).moveIndex e x := execute_encode e (.loadRegisters x) m
    rw [List.forall_mem_cons, List.forall_mem_singleton, hstore, hstore, hload, hload]
    exact ⟨moveIndex_switched d x _, moveIndex_switched d x _⟩
  case jump =>
    -- VX is in V0 when the jump reads it, and V0 is back afterwards.
    have hrestored : (m.registers.set 0x0 (m.registers.get x)).set 0x0 (m.registers.get 0x0) =
        m.registers := by
      rw [Registers.set_set, Registers.set_get]
    rw [execute_jumpOffset, execute_jumpOffset]
    simp only [setRegister, Registers.get_set_self, hrestored, if_true, Bool.false_eq_true,
      if_false]

/-- VF is the target of a shift and of a logical operation, and the index wraps when all registers
are stored from the last address on. -/
theorem execute_switched_of_flag :
    let m : Machine :=
      { zero with index := 0xFFFF, registers := .ofFn fun k => UInt8.ofNat (0xC0 + k) }
    let shifted := m.execute .legacy (Word.toNat ⟨0x8, 0xF, 0x1, 0x6⟩)
    let combined := m.execute .legacy (Word.toNat ⟨0x8, 0xF, 0x1, 0x1⟩)
    let stored := m.execute .legacy (Word.toNat ⟨0xF, 0xF, 0x5, 0x5⟩)
    let plain :=
      m.execute { Dialect.legacy with transferMovesI := false } (Word.toNat ⟨0xF, 0xF, 0x5, 0x5⟩)
    (shifted =
        (m.execute .legacy (Word.toNat ⟨0x8, 0xF, 0x1, 0x0⟩)).execute
          { Dialect.legacy with shiftReadsVY := false } (Word.toNat ⟨0x8, 0xF, 0xF, 0x6⟩) ∧
        shifted.registers.get 0xF = 1) ∧
      (combined =
        (m.execute { Dialect.legacy with logicClearsVF := false }
          (Word.toNat ⟨0x8, 0xF, 0x1, 0x1⟩)).execute .legacy (Word.toNat ⟨0x6, 0xF, 0x0, 0x0⟩) ∧
        combined.registers.get 0xF = 0) ∧
      (stored = { plain with index := UInt16.ofNat ((plain.index.toNat + 0xF + 1) % 65536) } ∧
        stored.index = 0xF) := by
  intro m shifted combined stored plain
  obtain ⟨hshift, hlogic, htransfer, -⟩ := execute_switched .legacy m 0xF 0x1 0x0
  exact ⟨⟨hshift 0x6 (by decide), by decide +kernel⟩, ⟨hlogic 0x1 (by decide), by decide +kernel⟩,
    ⟨htransfer 0x5 (by decide), by decide +kernel⟩⟩

end Machine

end Chip8
