import Chip8.Proofs.Console.Program
import Chip8.Proofs.Instruction.Grammar
import Chip8.Proofs.Machine.Frame
import Chip8.Proofs.Machine.Step
import Mathlib.Data.List.GetD

/-!
# Memory as a log of writes

What a byte of memory holds is decided by the writes that cover it: those of the host, and those of
the two instructions that store decimal digits or registers. A run has a log with an entry for
each event, and a byte holds what the last entry that covers it has put there, or what the program
began with (`Console.readByte_eq_lastWritten`). Nothing else writes to memory.
-/

namespace Chip8

/-! ### Bytes that are written -/

namespace Machine

/-- The byte that the instruction of a word stores at address `a`: one of the decimal digits of VX
behind the index, or one of the registers V0 to VX. -/
def storedBy? (m : Machine) (n a : Nat) : Option UInt8 :=
  let index := m.index.toNat
  let x := (Word.ofNat n).x
  let v := m.registers.get x
  if isInstance "FX33" n then
    if a = index then some (v / 100)
    else if a = index + 1 then some (v / 10 % 10)
    else if a = index + 2 then some (v % 10)
    else none
  else if isInstance "FX55" n ∧ index ≤ a ∧ a ≤ index + x then
    some (m.registers.get (Fin.ofNat 16 (a - index)))
  else none

/-- The byte that an event with this answer writes at address `a`. -/
def writtenBy? (m : Machine) (e : Event) (answer : Except Host.Error Answer) (a : Nat) :
    Option UInt8 :=
  match e, answer with
  | .step, .ok (.word w) => m.storedBy? w.toNat a
  | .writeByte b v, .ok _ => if b = a then some (UInt8.ofNat v.toNat) else none
  | _, _ => none

lemma writtenBy?_step (m : Machine) (w : UInt16) (a : Nat) :
    m.writtenBy? .step (.ok (.word w)) a = m.storedBy? w.toNat a := rfl

lemma writtenBy?_writeByte (m : Machine) (b v : Int) (answer : Answer) (a : Nat) :
    m.writtenBy? (.writeByte b v) (.ok answer) a =
      if b = a then some (UInt8.ofNat v.toNat) else none := rfl

lemma storedBy?_advance (m : Machine) (n a : Nat) :
    m.advance.storedBy? n a = m.storedBy? n a := rfl

/-- The digits are stored one behind the other. -/
lemma storedBy?_storeDecimal (m : Machine) (x : Fin 16) (a : Nat) :
    m.storedBy? (Instruction.storeDecimal x).encode.toNat a =
      if m.index.toNat ≤ a then (decimalDigits (m.registers.get x))[a - m.index.toNat]?
      else none := by
  have hx : (Instruction.storeDecimal x).encode.x = x := rfl
  have htemplate : (Instruction.storeDecimal x).template = "FX33" := rfl
  simp (disch := decide) only [storedBy?, Instruction.isInstance_encode, Word.ofNat_toNat, hx]
  rw [if_pos htemplate]
  rcases Nat.lt_or_ge a m.index.toNat with hlt | hle
  · rw [if_neg (by omega), if_neg (by omega), if_neg (by omega), if_neg (by omega)]
  · obtain ⟨k, rfl⟩ := Nat.exists_eq_add_of_le hle
    rw [if_pos hle, Nat.add_sub_cancel_left]
    match k with
    | 0 | 1 | 2 => simp [decimalDigits]
    | k + 3 => simp [decimalDigits]

/-- The registers are stored one behind the other. -/
lemma storedBy?_storeRegisters (m : Machine) (x : Fin 16) (a : Nat) :
    m.storedBy? (Instruction.storeRegisters x).encode.toNat a =
      if m.index.toNat ≤ a then (m.registers.upTo x)[a - m.index.toNat]? else none := by
  have hx : (Instruction.storeRegisters x).encode.x = x := rfl
  have htemplate : (Instruction.storeRegisters x).template = "FX55" := rfl
  simp (disch := decide) only [storedBy?, Instruction.isInstance_encode, Word.ofNat_toNat, hx,
    htemplate, String.reduceEq, if_false, true_and]
  rcases Nat.lt_or_ge a m.index.toNat with hlt | hle
  · rw [if_neg (by omega), if_neg (by omega)]
  · obtain ⟨k, rfl⟩ := Nat.exists_eq_add_of_le hle
    rw [if_pos hle, Nat.add_sub_cancel_left]
    by_cases hk : k ≤ x
    · obtain ⟨z, rfl⟩ : ∃ z : Fin 16, k = z := ⟨⟨k, by omega⟩, rfl⟩
      have hz : Fin.ofNat 16 (z : Nat) = z := Fin.ext (Nat.mod_eq_of_lt z.isLt)
      rw [if_pos (by omega), hz, Registers.getElem?_upTo m.registers x z hk]
    · rw [if_neg (by omega), List.getElem?_eq_none (by rw [Registers.length_upTo]; omega)]

end Machine

/-- After writing several bytes, an address holds the byte that was meant for it, or what it held
before. -/
lemma Memory.read_writeAll_eq_getD (m : Memory) (a : Nat) (bs : List UInt8) {c : Nat}
    (hc : c < 4096) :
    (m.writeAll a bs).read c = (if a ≤ c then bs[c - a]? else none).getD (m.read c) := by
  rw [read_writeAll m a c bs hc, List.getD_eq_getElem?_getD]
  split <;> rfl

namespace Machine

/-- An instruction changes just the bytes that it stores. -/
theorem read_effect (d : Dialect) (i : Instruction) (m : Machine) {a : Nat} (ha : a < 4096) :
    (i.effect d m).memory.read a = (m.storedBy? i.encode.toNat a).getD (m.memory.read a) := by
  rw [Instruction.memory_effect]
  cases i with
  | storeDecimal x =>
    rw [storedBy?_storeDecimal]
    exact Memory.read_writeAll_eq_getD _ _ _ ha
  | storeRegisters x =>
    rw [storedBy?_storeRegisters]
    exact Memory.read_writeAll_eq_getD _ _ _ ha
  | operate op x y =>
    cases op <;>
      simp (disch := decide) [storedBy?, Instruction.isInstance_encode, Instruction.template]
  | _ => simp (disch := decide) [storedBy?, Instruction.isInstance_encode, Instruction.template]

end Machine

/-! ### Logs -/

/-- The byte that the last entry covering address `a` has put there. An entry gives the bytes that
an event writes by their addresses. -/
def lastWritten? (log : List (Nat → Option UInt8)) (a : Nat) : Option UInt8 :=
  log.reverse.findSome? (· a)

lemma lastWritten?_cons (entry : Nat → Option UInt8) (log : List (Nat → Option UInt8)) (a : Nat) :
    lastWritten? (entry :: log) a = (lastWritten? log a).or (entry a) := by
  simp [lastWritten?, List.findSome?_append]

namespace Console

variable {c c' : Console} {e : Event} {es : List Event} {image : List UInt8} {a : Nat}

/-- The entries of a run, the oldest first. -/
def writeLog (c : Console) : List Event → List (Nat → Option UInt8)
  | [] => []
  | e :: es =>
    c.machine.writtenBy? e (c.handle e).answer :: (c.handle e).console.writeLog es

/-- An event that starts no program changes just the bytes that it writes. -/
lemma Transition.read_eq {answer : Except Host.Error Answer} (ht : c.Transition e answer c')
    (h : e.isStart → ∃ err, answer = .error err) (ha : a < 4096) :
    c'.machine.memory.read a =
      (c.machine.writtenBy? e answer a).getD (c.machine.memory.read a) := by
  cases ht with
  | fail => cases e <;> rfl
  | start hs =>
    obtain ⟨err, herr⟩ := h hs.isStart
    cases herr
  | poll =>
    rw [Machine.memory_poll]
    rfl
  | step _ _ hs =>
    obtain ⟨hr, hs⟩ := Machine.step_eq_ok_iff.mp hs
    rw [hs, Machine.writtenBy?_step, Machine.read_effect _ _ _ ha, Machine.storedBy?_advance,
      Machine.memory_advance, hr.word_eq]
  | tick | setKey | readByte => rfl
  | @writeByte b v =>
    rw [Machine.writtenBy?_writeByte, Memory.read_write, Int.toNat_natCast]
    by_cases hb : b = a
    · rw [if_pos (by omega), if_pos (by omega), Option.getD_some]
    · rw [if_neg (by omega), if_neg (by omega), Option.getD_none]

/-- After a run a byte holds what the log has put there, or what it held before. -/
theorem read_after (hes : c.Along KeepsProgram es) (ha : a < 4096) :
    (c.after es).machine.memory.read a =
      (lastWritten? (c.writeLog es) a).getD (c.machine.memory.read a) := by
  induction es generalizing c with
  | nil => rfl
  | cons e es ih =>
    obtain ⟨he, hes⟩ := along_cons.mp hes
    rw [after_cons, ih hes, (transition_handle c e).read_eq he ha, writeLog, lastWritten?_cons]
    cases lastWritten? ((c.handle e).console.writeLog es) a <;> rfl

end Console

/-! ### Programs -/

/-- The byte at address `a` when an image begins to run. -/
def initialByte (image : List UInt8) (a : Nat) : UInt8 :=
  if 0x200 ≤ a ∧ a < 0x200 + image.length then image.getD (a - 0x200) 0
  else if 0x50 ≤ a ∧ a < 0xA0 then Font.bytes.getD (a - 0x50) 0
  else 0

lemma Machine.read_started (seed : Int64) (image : List UInt8) {a : Nat} (ha : a < 4096) :
    (started seed image).memory.read a = initialByte image a := by
  have hfont : Font.bytes.length = 80 := rfl
  change ((Memory.zero.writeAll 0x50 Font.bytes).writeAll 0x200 image).read a = _
  rw [Memory.read_writeAll _ _ _ _ ha, Memory.read_writeAll _ _ _ _ ha, Memory.read_zero,
    initialByte]
  -- the image lies behind the font, so it hides nothing of it
  rcases Nat.lt_or_ge a 0x200 with hlow | hhigh
  · rw [if_neg (by omega), if_neg (by omega : ¬(0x200 ≤ a ∧ a < 0x200 + image.length))]
    rcases Nat.lt_or_ge a 0xA0 with hlt | hge
    · simp only [hlt, and_true]
    · rw [List.getD_eq_default _ _ (by omega), ite_self, if_neg (by omega)]
  · rw [if_pos hhigh, if_pos (by omega),
      List.getD_eq_default _ _ (by omega : Font.bytes.length ≤ a - 0x50)]
    rcases Nat.lt_or_ge a (0x200 + image.length) with hlt | hge
    · rw [if_pos ⟨hhigh, hlt⟩]
    · rw [if_neg (by omega), if_neg (by omega), List.getD_eq_default _ _ (by omega)]

namespace Console

variable {c : Console} {e : Event} {es : List Event} {image : List UInt8} {answer : Answer}

lemma answer_readByte (c : Console) {a : Nat} (ha : a < 4096) :
    (c.readByte a).answer = .ok (.byte (c.machine.memory.read a)) := by
  unfold readByte
  rw [Memory.rangeFault?_eq_none_iff.mpr (by omega)]
  rfl

/-- From the start of a program on, the byte that is read at an address is the one that the last
write covering the address has put there. Without such a write it is that of the image, of the font
or zero. The image is the one that the console remembers. -/
theorem readByte_eq_lastWritten (he : c.Starts image e)
    (hok : (c.handle e).answer = .ok answer)
    (hes : (c.handle e).console.Along KeepsProgram es) :
    let start := (c.handle e).console
    (start.after es).image = some image ∧
      ∀ a : Nat, a < 4096 → ((start.after es).readByte a).answer =
        .ok (.byte ((lastWritten? (start.writeLog es) a).getD (initialByte image a))) := by
  intro start
  have hstart := he.console_eq hok
  refine ⟨?_, fun a ha => ?_⟩
  · rw [image_after hes, hstart]
  · have hread : start.machine.memory.read a = initialByte image a := by
      rw [show start = _ from hstart, Machine.read_started c.seed image ha]
    rw [answer_readByte _ ha, read_after hes ha, hread]

/-- A program stores the digits of 123 and then two registers over them, and the host writes one
byte more. -/
theorem readByte_eq_lastWritten_of_overwriting :
    let image := [0x60, 0x7B, 0x61, 0x2D, 0xA3, 0x00, 0xF0, 0x33, 0xF1, 0x55]
    let c := ((new .legacy 0 {}).start image).console.after
      (List.replicate 5 .step ++ [.writeByte 0x300 9])
    [0x300, 0x301, 0x302, 0x200, 0x50].map (fun a : Nat => (c.readByte a).answer) =
      [9, 45, 3, 0x60, 0xF0].map fun b => .ok (.byte b) := by
  intro image c
  let es : List Event := List.replicate 5 .step ++ [.writeByte 0x300 9]
  let start := ((new .legacy 0 {}).start image).console
  let expected (a : Nat) : UInt8 := (lastWritten? (start.writeLog es) a).getD (initialByte image a)
  have hes : start.Along KeepsProgram es := ⟨nofun, nofun, nofun, nofun, nofun, nofun, trivial⟩
  have hread := (readByte_eq_lastWritten .start rfl hes).2
  have hsmall : ∀ a ∈ [0x300, 0x301, 0x302, 0x200, 0x50], a < 4096 := by decide
  have hexpected : [0x300, 0x301, 0x302, 0x200, 0x50].map expected = [9, 45, 3, 0x60, 0xF0] := by
    decide +kernel
  rw [← hexpected, List.map_map]
  exact List.map_congr_left fun a ha => hread a (hsmall a ha)

end Console

end Chip8
