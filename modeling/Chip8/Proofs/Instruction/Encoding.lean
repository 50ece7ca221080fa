import Chip8.Instruction.Dispatch
import Chip8.Instruction.Pattern
import Mathlib.Tactic.Common

/-!
# Encoding of instructions

Every instruction is written as one word, and the table of forms reads exactly this word as the
instruction (`Instruction.ofWord?_eq_some_iff`). Selecting by digits gives the same instruction
(`Instruction.dispatch?_of_ofWord?`), although it looks at fewer digits than the table does.
-/

namespace Chip8

/-! ### Words from their parts -/

namespace Word

/-- The word with a first digit and an address behind it. -/
def ofAddress (kind : Fin 16) (a : Fin 4096) : Word :=
  ⟨kind, Fin.ofNat 16 (a / 256), Fin.ofNat 16 (a / 16), Fin.ofNat 16 a⟩

/-- The word with two digits and a byte behind them. -/
def ofByte (kind x : Fin 16) (b : UInt8) : Word :=
  ⟨kind, x, Fin.ofNat 16 (b.toNat / 16), Fin.ofNat 16 b.toNat⟩

@[simp] lemma address_ofAddress (kind : Fin 16) (a : Fin 4096) :
    (ofAddress kind a).address = a := by
  simp only [ofAddress, address, Fin.val_ofNat, Fin.ext_iff]
  omega

@[simp] lemma ofAddress_address (kind x y n : Fin 16) :
    ofAddress kind (address ⟨kind, x, y, n⟩) = ⟨kind, x, y, n⟩ := by
  simp only [ofAddress, address, mk.injEq, Fin.val_ofNat, Fin.ext_iff, true_and]
  omega

@[simp] lemma byte_ofByte (kind x : Fin 16) (b : UInt8) : (ofByte kind x b).byte = b := by
  have hb := b.toNat_lt
  rw [← UInt8.toNat_inj, toNat_byte]
  simp only [ofByte, Fin.val_ofNat]
  omega

@[simp] lemma ofByte_byte (kind x y n : Fin 16) :
    ofByte kind x (byte ⟨kind, x, y, n⟩) = ⟨kind, x, y, n⟩ := by
  simp only [ofByte, toNat_byte, mk.injEq, Fin.val_ofNat, Fin.ext_iff, true_and]
  omega

lemma toNat_ofAddress (kind : Fin 16) (a : Fin 4096) :
    (ofAddress kind a).toNat = 4096 * kind + a := by
  simp only [ofAddress, toNat, Fin.val_ofNat]
  omega

end Word

/-! ### Patterns -/

namespace Pattern

variable {kind x y n : Fin 16} {w : Word}

@[simp] lemma allows_none (digit : Fin 16) : allows none digit = true := rfl

@[simp] lemma allows_some_iff {place digit : Fin 16} :
    allows (some place) digit = true ↔ digit = place := by
  simp only [allows, Option.all_some, beq_iff_eq]
  exact eq_comm

lemma fits_exact_iff : (exact kind x y n).fits w = true ↔ w = ⟨kind, x, y, n⟩ := by
  obtain ⟨k, a, b, c⟩ := w
  simp [fits, exact, and_assoc]

lemma fits_first_iff : (first kind).fits w = true ↔ w.kind = kind := by
  simp [fits, first]

lemma fits_firstLast_iff : (firstLast kind n).fits w = true ↔ w.kind = kind ∧ w.n = n := by
  simp [fits, firstLast]

lemma fits_firstByte_iff :
    (firstByte kind y n).fits w = true ↔ w.kind = kind ∧ w.y = y ∧ w.n = n := by
  simp [fits, firstByte, and_assoc]

end Pattern

/-! ### Instructions -/

namespace Instruction

open Pattern

/-- The word that an instruction is written as. -/
def encode : Instruction → Word
  | .clearScreen => ⟨0x0, 0x0, 0xE, 0x0⟩
  | .ret => ⟨0x0, 0x0, 0xE, 0xE⟩
  | .jump a => .ofAddress 0x1 a
  | .call a => .ofAddress 0x2 a
  | .skipIfByte x b => .ofByte 0x3 x b
  | .skipUnlessByte x b => .ofByte 0x4 x b
  | .skipIfSame x y => ⟨0x5, x, y, 0x0⟩
  | .setByte x b => .ofByte 0x6 x b
  | .addByte x b => .ofByte 0x7 x b
  | .operate op x y => ⟨0x8, x, y, op.code⟩
  | .skipUnlessSame x y => ⟨0x9, x, y, 0x0⟩
  | .setIndex a => .ofAddress 0xA a
  | .jumpOffset a => .ofAddress 0xB a
  | .random x mask => .ofByte 0xC x mask
  | .draw x y height => ⟨0xD, x, y, height⟩
  | .skipIfPressed x => ⟨0xE, x, 0x9, 0xE⟩
  | .skipUnlessPressed x => ⟨0xE, x, 0xA, 0x1⟩
  | .readDelay x => ⟨0xF, x, 0x0, 0x7⟩
  | .awaitKey x => ⟨0xF, x, 0x0, 0xA⟩
  | .setDelay x => ⟨0xF, x, 0x1, 0x5⟩
  | .setSound x => ⟨0xF, x, 0x1, 0x8⟩
  | .addIndex x => ⟨0xF, x, 0x1, 0xE⟩
  | .glyph x => ⟨0xF, x, 0x2, 0x9⟩
  | .storeDecimal x => ⟨0xF, x, 0x3, 0x3⟩
  | .storeRegisters x => ⟨0xF, x, 0x5, 0x5⟩
  | .loadRegisters x => ⟨0xF, x, 0x6, 0x5⟩

/-- The table reads the word of an instruction as this instruction. -/
@[simp] lemma ofWord?_encode (i : Instruction) : ofWord? i.encode = some i := by
  cases i with
  | jump a => exact congrArg (fun t => some (Instruction.jump t)) (Word.address_ofAddress 0x1 a)
  | call a => exact congrArg (fun t => some (Instruction.call t)) (Word.address_ofAddress 0x2 a)
  | setIndex a =>
    exact congrArg (fun t => some (Instruction.setIndex t)) (Word.address_ofAddress 0xA a)
  | jumpOffset a =>
    exact congrArg (fun t => some (Instruction.jumpOffset t)) (Word.address_ofAddress 0xB a)
  | skipIfByte x b =>
    exact congrArg (fun t => some (Instruction.skipIfByte x t)) (Word.byte_ofByte 0x3 x b)
  | skipUnlessByte x b =>
    exact congrArg (fun t => some (Instruction.skipUnlessByte x t)) (Word.byte_ofByte 0x4 x b)
  | setByte x b =>
    exact congrArg (fun t => some (Instruction.setByte x t)) (Word.byte_ofByte 0x6 x b)
  | addByte x b =>
    exact congrArg (fun t => some (Instruction.addByte x t)) (Word.byte_ofByte 0x7 x b)
  | random x mask =>
    exact congrArg (fun t => some (Instruction.random x t)) (Word.byte_ofByte 0xC x mask)
  | operate op x y => cases op <;> rfl
  | _ => rfl

lemma encode_injective {i j : Instruction} (h : i.encode = j.encode) : i = j := by
  have hi := ofWord?_encode i
  rw [h, ofWord?_encode] at hi
  exact (Option.some.inj hi).symm

/-- A form reads only the word of the instruction that it gives. -/
lemma encode_read_of_fits : ∀ f ∈ forms, ∀ w : Word, f.pattern.fits w = true →
    (f.read w).encode = w := by
  simp only [forms, operationForm, List.forall_mem_cons, fits_exact_iff, fits_first_iff,
    fits_firstLast_iff, fits_firstByte_iff, List.not_mem_nil, false_imp_iff, implies_true,
    and_true]
  and_intros
  all_goals
    rintro ⟨k, x, y, n⟩ h
    simp only [Word.mk.injEq] at h
    simp only [h, encode, Operation.code, Word.ofAddress_address, Word.ofByte_byte]

/-- A word that fits a form selects the instruction that the form gives. -/
lemma dispatch?_of_fits : ∀ f ∈ forms, ∀ w : Word, f.pattern.fits w = true →
    dispatch? w.toNat = some (f.read w) := by
  simp only [forms, operationForm, List.forall_mem_cons, fits_exact_iff, fits_first_iff,
    fits_firstLast_iff, fits_firstByte_iff, List.not_mem_nil, false_imp_iff, implies_true,
    and_true]
  and_intros
  all_goals
    rintro ⟨k, x, y, n⟩ h
    simp only [Word.mk.injEq] at h
    simp only [dispatch?, Word.ofInt_natCast, Word.ofNat_toNat, h] <;> rfl

/-- An instruction is read by a form of the table. -/
lemma exists_form_of_ofWord? {w : Word} {i : Instruction} (h : ofWord? w = some i) :
    ∃ f ∈ forms, f.pattern.fits w = true ∧ f.read w = i := by
  obtain ⟨f, hf, hi⟩ := Option.map_eq_some_iff.mp h
  exact ⟨f, List.mem_of_find?_eq_some hf, by simpa using List.find?_some hf, hi⟩

/-- A word is an instruction just when it is the word that the instruction is written as. -/
theorem ofWord?_eq_some_iff {w : Word} {i : Instruction} :
    ofWord? w = some i ↔ w = i.encode := by
  constructor
  · intro h
    obtain ⟨f, hf, hw, rfl⟩ := exists_form_of_ofWord? h
    exact (encode_read_of_fits f hf w hw).symm
  · rintro rfl
    exact ofWord?_encode i

lemma identify_eq_ok_iff {z : Int} {address : Option Int} {i : Instruction} :
    identify z address = .ok i ↔ Word.ofInt z = i.encode := by
  rw [identify, ← ofWord?_eq_some_iff]
  split <;> simp_all

/-- The table and the selection by digits agree on every word that is an instruction. -/
theorem dispatch?_of_ofWord? {w : Word} {i : Instruction} (h : ofWord? w = some i) :
    dispatch? w.toNat = some i := by
  obtain ⟨f, hf, hw, rfl⟩ := exists_form_of_ofWord? h
  exact dispatch?_of_fits f hf w hw

end Instruction

end Chip8
