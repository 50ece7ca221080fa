import Chip8.Size

/-!
# Registers

The sixteen registers V0 to VF hold a byte each. The last one also receives flags.
-/

namespace Chip8

structure Registers where
  values : Vector UInt8 16
deriving DecidableEq

namespace Registers

def count : Nat := 16

/-- The register that receives flags. -/
def flag : Fin 16 := 15

def zero : Registers := ⟨.replicate 16 0⟩

def get (r : Registers) (x : Fin 16) : UInt8 :=
  getElem r.values (x : Nat) (val_lt_sixteen x)

@[simp] theorem get_zero (x : Fin 16) : zero.get x = 0 := by
  simp [get, zero]

@[ext] theorem ext {r s : Registers} (h : ∀ x, r.get x = s.get x) : r = s := by
  obtain ⟨r⟩ := r
  obtain ⟨s⟩ := s
  congr 1
  exact Vector.ext fun x hx => h ⟨x, hx⟩

/-- Let VX hold `b`. -/
def set (r : Registers) (x : Fin 16) (b : UInt8) : Registers :=
  ⟨r.values.set x b (val_lt_sixteen x)⟩

theorem get_set (r : Registers) (x z : Fin 16) (b : UInt8) :
    (r.set x b).get z = if x = z then b else r.get z := by
  simp [get, set, Vector.getElem_set, Fin.ext_iff]

@[simp] theorem get_set_self (r : Registers) (x : Fin 16) (b : UInt8) :
    (r.set x b).get x = b := by
  simp [get_set]

theorem get_set_of_ne {x z : Fin 16} (h : x ≠ z) (r : Registers) (b : UInt8) :
    (r.set x b).get z = r.get z := by
  simp [get_set, h]

theorem set_set (r : Registers) (x : Fin 16) (b c : UInt8) :
    (r.set x b).set x c = r.set x c := by
  ext z
  rw [get_set, get_set, get_set]
  split <;> rfl

theorem set_get (r : Registers) (x : Fin 16) : r.set x (r.get x) = r := by
  ext z
  rw [get_set]
  split
  next h => rw [h]
  · rfl

/-- Let the register with number `x` hold `b`, if there is such a register. -/
def set? (r : Registers) (x : Nat) (b : UInt8) : Registers :=
  if h : x < 16 then r.set ⟨x, h⟩ b else r

/-- The value of the register with number `x`, or of the last one if there is none. -/
def read (r : Registers) (x : Nat) : UInt8 :=
  r.values[min x 15]

@[simp] theorem read_val (r : Registers) (x : Fin 16) : r.read x = r.get x := by
  simp [read, get, show min x.val 15 = x.val by omega]

def ofFn (f : Fin 16 → UInt8) : Registers :=
  ⟨.ofFn f⟩

@[simp] theorem get_ofFn (f : Fin 16 → UInt8) (x : Fin 16) : (ofFn f).get x = f x := by
  simp [get, ofFn]

/-- The values of V0 to VX. -/
def upTo (r : Registers) (x : Fin 16) : List UInt8 :=
  r.values.toList.take (x + 1)

@[simp] theorem length_upTo (r : Registers) (x : Fin 16) : (r.upTo x).length = x + 1 := by
  simp only [upTo, List.length_take, Vector.length_toList]
  omega

theorem getElem?_upTo (r : Registers) (x k : Fin 16) (h : k ≤ x) :
    (r.upTo x)[(k : Nat)]? = some (r.get k) := by
  have hk : (k : Nat) < x + 1 := Nat.lt_succ_of_le h
  simp [upTo, hk, get]

end Registers

end Chip8
