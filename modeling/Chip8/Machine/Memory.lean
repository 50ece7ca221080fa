/-!
# Memory

The machine has 4096 bytes of memory. An address beyond the last byte is not an error here: a
read there yields the last byte, and a write there is dropped. Programs start at address 512.
-/

namespace Chip8

structure Memory where
  bytes : Vector UInt8 4096
deriving DecidableEq

namespace Memory

def size : Nat := 4096

/-- The address of the first byte of a program. -/
def programStart : Nat := 0x200

/-- The number of bytes behind the start of programs. -/
def programSpace : Nat := size - programStart

def zero : Memory := ⟨.replicate 4096 0⟩

/-- The byte at `a`, or the last byte if `a` lies beyond it. -/
def read (m : Memory) (a : Nat) : UInt8 :=
  m.bytes[min a 4095]

@[simp] theorem read_zero (a : Nat) : zero.read a = 0 := by
  simp [read, zero]

@[ext] theorem ext {m k : Memory} (h : ∀ a < 4096, m.read a = k.read a) : m = k := by
  obtain ⟨m⟩ := m
  obtain ⟨k⟩ := k
  congr 1
  apply Vector.ext
  intro a ha
  simpa [read, show min a 4095 = a by omega] using h a ha

/-- An address beyond the last byte reads as the last byte. -/
theorem read_of_le {m : Memory} {a : Nat} (h : 4095 ≤ a) : m.read a = m.read 4095 := by
  simp [read, show min a 4095 = 4095 by omega]

/-- Put `b` at address `a`, if there is such a byte. -/
def write (m : Memory) (a : Nat) (b : UInt8) : Memory :=
  ⟨m.bytes.setIfInBounds a b⟩

theorem read_write (m : Memory) (a c : Nat) (b : UInt8) :
    (m.write a b).read c = if a = min c 4095 then b else m.read c := by
  simp [read, write, Vector.getElem_setIfInBounds]

theorem read_write_self {m : Memory} {a : Nat} (h : a < 4096) (b : UInt8) :
    (m.write a b).read a = b := by
  rw [read_write, if_pos (by omega)]

theorem write_of_le {m : Memory} {a : Nat} (h : 4096 ≤ a) (b : UInt8) : m.write a b = m := by
  apply ext
  intro c hc
  rw [read_write, if_neg (by omega)]

/-- Write bytes one after the other from address `a` on. -/
def writeAll (m : Memory) (a : Nat) : List UInt8 → Memory
  | [] => m
  | b :: bs => (m.write a b).writeAll (a + 1) bs

@[simp] theorem writeAll_nil (m : Memory) (a : Nat) : m.writeAll a [] = m := rfl

@[simp] theorem writeAll_cons (m : Memory) (a : Nat) (b : UInt8) (bs : List UInt8) :
    m.writeAll a (b :: bs) = (m.write a b).writeAll (a + 1) bs := rfl

/-- After writing several bytes, an address holds the byte that was meant for it, if any. -/
theorem read_writeAll (m : Memory) (a c : Nat) (bs : List UInt8) (hc : c < 4096) :
    (m.writeAll a bs).read c = if a ≤ c then bs.getD (c - a) (m.read c) else m.read c := by
  induction bs generalizing m a with
  | nil => simp
  | cons b bs ih =>
    rw [writeAll_cons, ih, read_write, show min c 4095 = c by omega]
    rcases Nat.lt_trichotomy a c with h | rfl | h
    · have hk : c - a = c - (a + 1) + 1 := by omega
      simp [show a ≠ c by omega, show a + 1 ≤ c by omega, show a ≤ c by omega, hk]
    · simp [show ¬a + 1 ≤ a by omega]
    · simp [show a ≠ c by omega, show ¬a + 1 ≤ c by omega, show ¬a ≤ c by omega]

/-- The `n` bytes from address `a` on. -/
def readAll (m : Memory) (a n : Nat) : List UInt8 :=
  (List.range n).map fun k => m.read (a + k)

@[simp] theorem length_readAll (m : Memory) (a n : Nat) : (m.readAll a n).length = n := by
  simp [readAll]

theorem getElem?_readAll (m : Memory) (a n k : Nat) :
    (m.readAll a n)[k]? = if k < n then some (m.read (a + k)) else none := by
  by_cases h : k < n <;> simp [readAll, h]

end Memory

end Chip8
