import Chip8.Proofs.Machine.Frame
import Mathlib.Data.List.GetD

/-!
# Transfer of registers

Two instructions move V0 to VX to memory behind the index, and back. They do what the loops do that
move one byte after the other, at any index: an address beyond memory reads as the last byte, and a
write there is dropped (`Machine.execute_transfer`). What has been stored within memory is loaded
again as it was, by a machine with the same index and any registers.
-/

namespace Chip8

/-! ### Bytes in a row -/

/-- An address beyond memory reads as the last byte. -/
@[simp] lemma Memory.read_min (m : Memory) (a : Nat) : m.read (min a 4095) = m.read a := by
  simp only [read, Nat.min_assoc, Nat.min_self]

/-- After writing `n` bytes that a function gives, those addresses hold them that exist. -/
lemma Memory.read_writeAll_map_range (m : Memory) (a n : Nat) (f : Nat → UInt8) {c : Nat}
    (hc : c < 4096) :
    (m.writeAll a ((List.range n).map f)).read c =
      if a ≤ c ∧ c < a + n then f (c - a) else m.read c := by
  rw [read_writeAll m a c _ hc, List.getD_eq_getElem?_getD, List.getElem?_map]
  by_cases hbehind : a ≤ c
  · by_cases hin : c - a < n
    · rw [if_pos hbehind, if_pos (by omega), List.getElem?_range hin]
      rfl
    · rw [if_pos hbehind, if_neg (by omega), List.getElem?_eq_none (by simpa using hin)]
      rfl
  · rw [if_neg hbehind, if_neg (by omega)]

lemma Registers.upTo_eq_map (r : Registers) (x : Fin 16) :
    r.upTo x = (List.range (x + 1)).map r.read := by
  refine List.ext_getElem? fun k => ?_
  by_cases hk : k < x + 1
  · have hget := r.getElem?_upTo x ⟨k, by omega⟩ (Nat.le_of_lt_succ hk)
    rw [List.getElem?_map, List.getElem?_range hk, hget, ← read_val]
    rfl
  · rw [List.getElem?_eq_none (by simpa using hk), List.getElem?_eq_none (by simpa using hk)]

namespace Machine

/-! ### The loops -/

/-- One turn of the loop that stores registers: the byte goes to its address, if there is one. -/
def storeByte (m : Machine) (memory : Memory) (k : Nat) : Memory :=
  let a := m.index.toNat + k
  if a < 4096 then memory.write a (m.registers.read k) else memory

/-- The memory after the first `n` registers have been stored one by one. -/
def storeLoop (m : Machine) (n : Nat) : Memory :=
  (List.range n).foldl m.storeByte m.memory

/-- One turn of the loop that loads registers. -/
def loadByte (m : Machine) (registers : Registers) (k : Nat) : Registers :=
  registers.set? k (m.memory.read (min (m.index.toNat + k) 4095))

/-- The registers after the first `n` of them have been loaded one by one. -/
def loadLoop (m : Machine) (n : Nat) : Registers :=
  (List.range n).foldl m.loadByte m.registers

lemma storeLoop_succ (m : Machine) (n : Nat) :
    m.storeLoop (n + 1) = m.storeByte (m.storeLoop n) n := by
  rw [storeLoop, List.range_succ, List.foldl_append]
  rfl

lemma loadLoop_succ (m : Machine) (n : Nat) :
    m.loadLoop (n + 1) = m.loadByte (m.loadLoop n) n := by
  rw [loadLoop, List.range_succ, List.foldl_append]
  rfl

lemma read_storeByte (m : Machine) (memory : Memory) (k : Nat) {a : Nat} (ha : a < 4096) :
    (m.storeByte memory k).read a =
      if a = m.index.toNat + k then m.registers.read k else memory.read a := by
  have hmin : min a 4095 = a := by omega
  by_cases hin : m.index.toNat + k < 4096
  · rw [storeByte, if_pos hin, Memory.read_write, hmin]
    exact if_congr eq_comm rfl rfl
  · rw [storeByte, if_neg hin, if_neg (by omega)]

lemma get_loadByte (m : Machine) (registers : Registers) {k : Nat} (hk : k < 16) (z : Fin 16) :
    (m.loadByte registers k).get z =
      if (z : Nat) = k then m.memory.read (m.index.toNat + k) else registers.get z := by
  rw [loadByte, Memory.read_min, Registers.set?, dif_pos hk, Registers.get_set]
  exact if_congr (by rw [Fin.ext_iff, eq_comm]) rfl rfl

/-- The loop has reached the bytes from the index on, as many as it has made turns. -/
lemma read_storeLoop (m : Machine) (n : Nat) {a : Nat} (ha : a < 4096) :
    (m.storeLoop n).read a =
      if m.index.toNat ≤ a ∧ a < m.index.toNat + n then m.registers.read (a - m.index.toNat)
      else m.memory.read a := by
  induction n with
  | zero =>
    rw [if_neg (by omega)]
    rfl
  | succ n ih =>
    -- The last turn writes to `I + n` alone, where no turn before it has written.
    rw [storeLoop_succ, read_storeByte m _ n ha, ih]
    by_cases hlast : a = m.index.toNat + n
    · rw [if_pos hlast, if_pos (by omega), hlast, Nat.add_sub_cancel_left]
    · rw [if_neg hlast]
      exact if_congr (by omega) rfl rfl

/-- The loop has reached the first registers, as many as it has made turns. -/
lemma get_loadLoop (m : Machine) {n : Nat} (hn : n ≤ 16) (z : Fin 16) :
    (m.loadLoop n).get z =
      if (z : Nat) < n then m.memory.read (m.index.toNat + z) else m.registers.get z := by
  induction n with
  | zero => rfl
  | succ n ih =>
    rw [loadLoop_succ, get_loadByte m _ hn, ih (by omega)]
    by_cases hlast : (z : Nat) = n
    · rw [if_pos hlast, if_pos (by omega), hlast]
    · rw [if_neg hlast]
      exact if_congr (by omega) rfl rfl

/-! ### The instructions -/

/-- Where the index stands after a transfer of V0 to VX. -/
def indexBehind (d : Dialect) (index : Nat) (x : Fin 16) : Nat :=
  if d.transferMovesI then (index + x + 1) % 65536 else index

/-- What storing V0 to VX does to a machine. The bytes from I to I + X hold the registers, as far as
there are such addresses, and the index may have moved. -/
structure Stores (d : Dialect) (x : Fin 16) (m m' : Machine) : Prop where
  byte : ∀ a < 4096, m'.memory.read a =
    if m.index.toNat ≤ a ∧ a ≤ m.index.toNat + x then m.registers.read (a - m.index.toNat)
    else m.memory.read a
  loop : m'.memory = m.storeLoop (x + 1)
  index : m'.index.toNat = indexBehind d m.index.toNat x
  rest : m' = { m with memory := m'.memory, index := m'.index }

/-- What loading V0 to VX does to a machine. The registers hold the bytes from I to I + X, with the
last byte of memory in place of those beyond it, and the index may have moved. -/
structure Loads (d : Dialect) (x : Fin 16) (m m' : Machine) : Prop where
  register : ∀ k, m'.registers.get k =
    if k ≤ x then m.memory.read (min (m.index.toNat + k) 4095) else m.registers.get k
  loop : m'.registers = m.loadLoop (x + 1)
  index : m'.index.toNat = indexBehind d m.index.toNat x
  rest : m' = { m with registers := m'.registers, index := m'.index }

lemma toNat_indexBehind (d : Dialect) (index : UInt16) (x : Fin 16) :
    (if d.transferMovesI then index + UInt16.ofNat (x + 1) else index).toNat =
      indexBehind d index.toNat x := by
  rw [indexBehind]
  split
  · rw [UInt16.toNat_add, UInt16.toNat_ofNat']
    omega
  · rfl

lemma read_writeAll_upTo (m : Machine) (x : Fin 16) {a : Nat} (ha : a < 4096) :
    (m.memory.writeAll m.index.toNat (m.registers.upTo x)).read a =
      if m.index.toNat ≤ a ∧ a ≤ m.index.toNat + x then m.registers.read (a - m.index.toNat)
      else m.memory.read a := by
  rw [Registers.upTo_eq_map, Memory.read_writeAll_map_range _ _ _ _ ha]
  exact if_congr (by omega) rfl rfl

lemma get_loadRegisters (m : Machine) (x k : Fin 16) :
    (m.loadRegisters x).registers.get k =
      if k ≤ x then m.memory.read (m.index.toNat + k) else m.registers.get k := by
  rw [loadRegisters, Registers.get_ofFn]

lemma stores_effect (d : Dialect) (m : Machine) (x : Fin 16) :
    Stores d x m ((Instruction.storeRegisters x).effect d m) where
  byte a ha := by
    rw [Instruction.memory_effect]
    exact read_writeAll_upTo m x ha
  loop := by
    rw [Instruction.memory_effect]
    refine Memory.ext fun a ha => ?_
    rw [read_storeLoop m _ ha]
    exact (read_writeAll_upTo m x ha).trans (if_congr (by omega) rfl rfl)
  index := by
    rw [Instruction.index_effect]
    exact toNat_indexBehind d m.index x
  rest := by
    rw [Instruction.effect, storeRegisters_eq, moveIndex_eq]

lemma loads_effect (d : Dialect) (m : Machine) (x : Fin 16) :
    Loads d x m ((Instruction.loadRegisters x).effect d m) where
  register k := by
    rw [Instruction.effect, moveIndex_eq, Memory.read_min]
    exact get_loadRegisters m x k
  loop := by
    rw [Instruction.effect, moveIndex_eq]
    refine Registers.ext fun k => ?_
    rw [get_loadLoop m (by omega)]
    exact (get_loadRegisters m x k).trans (if_congr (by rw [Fin.le_def]; omega) rfl rfl)
  index := by
    rw [Instruction.index_effect]
    exact toNat_indexBehind d m.index x
  rest := by
    rw [Instruction.effect, moveIndex_eq, loadRegisters]

/-- A machine with the memory after a store within bounds, and with the index before it, loads what
was stored. -/
lemma Loads.get_of_stores {d d' : Dialect} {x : Fin 16} {m stored s loaded : Machine}
    (hstores : Stores d x m stored) (hloads : Loads d' x s loaded) (hin : m.index.toNat + x ≤ 4095)
    (hmemory : s.memory = stored.memory) (hindex : s.index = m.index) (k : Fin 16) :
    loaded.registers.get k = if k ≤ x then m.registers.get k else s.registers.get k := by
  rw [hloads.register k]
  by_cases hk : k ≤ x
  · -- Within memory no address is cut off, so the byte is one that has been stored.
    have hle : (k : Nat) ≤ x := hk
    have ha : min (m.index.toNat + k) 4095 = m.index.toNat + k := by omega
    rw [if_pos hk, if_pos hk, hindex, hmemory, ha, hstores.byte _ (by omega), if_pos (by omega),
      Nat.add_sub_cancel_left, Registers.read_val]
  · rw [if_neg hk, if_neg hk]

/-- Storing and loading registers do what the loops do, byte by byte, and what has been stored
within memory is loaded again. -/
theorem execute_transfer (d : Dialect) (m : Machine) (x : Fin 16) :
    let stored := m.execute d (Word.toNat ⟨0xF, x, 0x5, 0x5⟩)
    Stores d x m stored ∧
      Loads d x m (m.execute d (Word.toNat ⟨0xF, x, 0x6, 0x5⟩)) ∧
      (m.index.toNat + x ≤ 4095 → ∀ (d' : Dialect) (s : Machine),
        s.memory = stored.memory → s.index = m.index → ∀ k,
          (s.execute d' (Word.toNat ⟨0xF, x, 0x6, 0x5⟩)).registers.get k =
            if k ≤ x then m.registers.get k else s.registers.get k) := by
  have hstores : Stores d x m (m.execute d (Word.toNat ⟨0xF, x, 0x5, 0x5⟩)) :=
    (execute_encode d (.storeRegisters x) m).symm ▸ stores_effect d m x
  have hloads (d' : Dialect) (s : Machine) :
      Loads d' x s (s.execute d' (Word.toNat ⟨0xF, x, 0x6, 0x5⟩)) :=
    (execute_encode d' (.loadRegisters x) s).symm ▸ loads_effect d' s x
  exact ⟨hstores, hloads d m, fun hin d' s => (hloads d' s).get_of_stores hstores hin⟩

/-- The last three bytes of memory are stored in a dialect that moves the index, and loaded in one
that does not. -/
theorem execute_transfer_of_last_bytes :
    let m : Machine :=
      { zero with index := 0xFFD, registers := .ofFn fun k => UInt8.ofNat (k + 1) }
    let stored := m.execute .legacy (Word.toNat ⟨0xF, 0x2, 0x5, 0x5⟩)
    let s : Machine := { zero with memory := stored.memory, index := 0xFFD }
    let loaded := s.execute .modern (Word.toNat ⟨0xF, 0x2, 0x6, 0x5⟩)
    stored.memory.read 0xFFF = 3 ∧ stored.index.toNat = 0x1000 ∧
      loaded.registers.get 2 = 3 ∧ loaded.registers.get 3 = 0 := by
  intro m stored s loaded
  have htransfer := execute_transfer .legacy m 0x2
  have hload := htransfer.2.2 (by decide) .modern s rfl rfl
  exact ⟨htransfer.1.byte 0xFFF (by decide), htransfer.1.index, hload 2, hload 3⟩

end Machine

end Chip8
