import Chip8.Size

/-!
# Instruction words

An instruction is one 16-bit word, and its parts are whole hexadecimal digits: the first digit
selects the kind of instruction, the others hold its operands. A word is therefore kept as its
four digits.
-/

namespace Chip8

/-- The four hexadecimal digits of an instruction word, the highest first. -/
structure Word where
  kind : Fin 16
  x : Fin 16
  y : Fin 16
  n : Fin 16
deriving DecidableEq, Repr

namespace Word

/-- The number that the digits write. -/
def toNat (w : Word) : Nat :=
  4096 * w.kind + 256 * w.x + 16 * w.y + w.n

theorem toNat_lt (w : Word) : w.toNat < 65536 := by
  simp only [toNat]; omega

/-- The digits of the lowest sixteen bits. -/
def ofNat (v : Nat) : Word :=
  ⟨Fin.ofNat 16 (v / 4096), Fin.ofNat 16 (v / 256), Fin.ofNat 16 (v / 16), Fin.ofNat 16 v⟩

@[simp] theorem toNat_ofNat (v : Nat) : (ofNat v).toNat = v % 65536 := by
  simp only [ofNat, toNat, Fin.val_ofNat]; omega

@[simp] theorem ofNat_toNat (w : Word) : ofNat w.toNat = w := by
  obtain ⟨k, x, y, n⟩ := w
  simp only [ofNat, toNat, mk.injEq, Fin.ext_iff, Fin.val_ofNat]
  omega

theorem toNat_inj {v w : Word} : v.toNat = w.toNat ↔ v = w :=
  ⟨fun h => by rw [← ofNat_toNat v, h, ofNat_toNat], fun h => h ▸ rfl⟩

/-- The digits of the lowest sixteen bits in two's complement. -/
def ofInt (z : Int) : Word :=
  ofNat (z % 65536).toNat

@[simp] theorem ofInt_natCast (v : Nat) : ofInt (v : Int) = ofNat v := by
  rw [← toNat_inj]
  simp only [ofInt, toNat_ofNat]
  omega

theorem toNat_ofInt (z : Int) : ((ofInt z).toNat : Int) = z % 65536 := by
  simp only [ofInt, toNat_ofNat]
  omega

/-- The byte that the last two digits write. -/
def byte (w : Word) : UInt8 :=
  UInt8.ofNat (16 * w.y + w.n)

@[simp] theorem toNat_byte (w : Word) : w.byte.toNat = 16 * w.y + w.n := by
  simp only [byte, UInt8.toNat_ofNat']
  omega

/-- The address that the last three digits write. -/
def address (w : Word) : Fin 4096 :=
  ⟨256 * w.x + 16 * w.y + w.n, by omega⟩

@[simp] theorem val_address (w : Word) : (w.address : Nat) = 256 * w.x + 16 * w.y + w.n := rfl

end Word

end Chip8
