import Chip8.Proofs.Machine.Step

/-!
# The bodies that mnemonics name

A mnemonic names a body: what the machine does, told by the digits of the word alone. Words get
their mnemonic from the table of forms, and the machine selects by digits what it runs. For every
word that is an instruction these two come to the same: running the word is what the body of its
mnemonic does (`Machine.execute_eq_named_body`).
-/

namespace Chip8

/-- What the machine does for the digits of a word. -/
abbrev Body := Dialect → Word → Machine → Machine

namespace Body

/-- An operation on VX and VY. -/
def operate (op : Operation) : Body :=
  fun d w m => m.operate d op w.x w.y

/-- The mnemonics and their bodies. -/
def table : List (String × Body) :=
  [("CLS", fun _ _ m => { m with display := .blank }),
   ("RET", fun _ _ m => { m with stack := m.stack.pop, pc := m.stack.top }),
   ("JP", fun _ w m => { m with pc := UInt16.ofNat w.address }),
   ("CALL", fun _ w m => { m with stack := m.stack.push m.pc, pc := UInt16.ofNat w.address }),
   ("SE_VX_NN", fun _ w m => m.skipIf (m.registers.get w.x == w.byte)),
   ("SNE_VX_NN", fun _ w m => m.skipIf (m.registers.get w.x != w.byte)),
   ("SE_VX_VY", fun _ w m => m.skipIf (m.registers.get w.x == m.registers.get w.y)),
   ("SNE_VX_VY", fun _ w m => m.skipIf (m.registers.get w.x != m.registers.get w.y)),
   ("LD_VX_NN", fun _ w m => m.setRegister w.x w.byte),
   ("ADD_VX_NN", fun _ w m => m.setRegister w.x (m.registers.get w.x + w.byte)),
   ("LD_VX_VY", operate .copy),
   ("OR", operate .or),
   ("AND", operate .and),
   ("XOR", operate .xor),
   ("ADD_VX_VY", operate .add),
   ("SUB", operate .sub),
   ("SHR", operate .shiftRight),
   ("SUBN", operate .subFrom),
   ("SHL", operate .shiftLeft),
   ("LD_I", fun _ w m => { m with index := UInt16.ofNat w.address }),
   ("JP_OFFSET", fun d w m =>
      let offset := m.registers.get (if d.jumpReadsVX then w.x else 0)
      { m with pc := UInt16.ofNat w.address + offset.toUInt16 }),
   ("RND", fun _ w m =>
      { m.setRegister w.x (Random.byte m.random &&& w.byte) with random := Random.next m.random }),
   ("DRW", fun _ w m => m.draw (m.sprite w.x w.y w.n)),
   ("SKP", fun _ w m => m.skipIf (m.keyDown w.x)),
   ("SKNP", fun _ w m => m.skipIf (!m.keyDown w.x)),
   ("LD_VX_DT", fun _ w m => m.setRegister w.x m.delay),
   ("LD_VX_K", fun _ w m => m.awaitKey w.x),
   ("LD_DT_VX", fun _ w m => { m with delay := m.registers.get w.x }),
   ("LD_ST_VX", fun _ w m => { m with sound := m.registers.get w.x }),
   ("ADD_I_VX", fun _ w m => { m with index := m.index + (m.registers.get w.x).toUInt16 }),
   ("LD_F_VX", fun _ w m =>
      { m with index := Font.glyph (Fin.ofNat 16 (m.registers.get w.x).toNat) }),
   ("LD_B_VX", fun _ w m =>
      let digits := Machine.decimalDigits (m.registers.get w.x)
      { m with memory := m.memory.writeAll m.index.toNat digits }),
   ("LD_MEM_VX", fun d w m => (m.storeRegisters w.x).moveIndex d w.x),
   ("LD_VX_MEM", fun d w m => (m.loadRegisters w.x).moveIndex d w.x)]

/-- The body that a mnemonic names. -/
def named? (mnemonic : String) : Option Body :=
  table.lookup mnemonic

/-- No mnemonic names two bodies. -/
lemma nodup_mnemonics : (table.map Prod.fst).Nodup := by
  decide

end Body

namespace Instruction

/-- An instruction takes effect as the body that its mnemonic names, on the word that it is
written as. -/
lemma exists_body (i : Instruction) :
    ∃ body, Body.named? i.mnemonic = some body ∧ ∀ d m, i.effect d m = body d i.encode m := by
  cases i with
  | jump a | call a | setIndex a =>
    exact ⟨_, rfl, fun d m => by simp only [encode, Word.address_ofAddress]; rfl⟩
  | jumpOffset a =>
    have hx : (Word.ofAddress 0xB a).x = ⟨a / 256, by omega⟩ :=
      Fin.ext (Nat.mod_eq_of_lt (by omega))
    exact ⟨_, rfl, fun d m => by simp only [encode, Word.address_ofAddress, hx]; rfl⟩
  | skipIfByte x b | skipUnlessByte x b | setByte x b | addByte x b | random x b =>
    exact ⟨_, rfl, fun d m => by simp only [encode, Word.byte_ofByte]; rfl⟩
  | operate op x y => cases op <;> exact ⟨_, rfl, fun _ _ => rfl⟩
  | _ => exact ⟨_, rfl, fun _ _ => rfl⟩

end Instruction

namespace Machine

open Instruction

variable {d : Dialect} {m : Machine} {i : Instruction}

/-- Running a word that is an instruction is what the body of its mnemonic does with the digits of
the word, and no other instruction is selected. -/
theorem execute_eq_named_body (d : Dialect) (m : Machine) {w : UInt16} {address : Option Int}
    (h : identify w.toNat address = .ok i) :
    dispatch? w.toNat = some i ∧
      ∃ body, Body.named? i.mnemonic = some body ∧
        m.execute d w.toNat = body d (.ofNat w.toNat) m := by
  have hw : Word.ofNat w.toNat = i.encode := by rwa [identify_eq_ok_iff, Word.ofInt_natCast] at h
  have hi : dispatch? w.toNat = some i := by
    rw [← Nat.mod_eq_of_lt w.toNat_lt, ← Word.toNat_ofNat, hw]
    exact dispatch?_of_ofWord? (ofWord?_encode i)
  obtain ⟨body, hbody, heffect⟩ := i.exists_body
  refine ⟨hi, body, hbody, ?_⟩
  rw [execute, hi, hw]
  exact heffect d m

/-- A shift of the second register. -/
theorem execute_eq_named_body_of_shift :
    let m := (Machine.fresh 0).setRegister 0xB 0x2D
    Body.named? "SHR" = some (Body.operate .shiftRight) ∧
      m.execute .legacy 0x8AB6 = Body.operate .shiftRight .legacy ⟨0x8, 0xA, 0xB, 0x6⟩ m := by
  intro m
  have h : identify (0x8AB6 : UInt16).toNat none = .ok (.operate .shiftRight 0xA 0xB) := by decide
  obtain ⟨-, body, hbody, hexecute⟩ := execute_eq_named_body .legacy m h
  obtain rfl : Body.operate .shiftRight = body := Option.some.inj hbody
  exact ⟨hbody, hexecute⟩

/-- A successful step moves the counter and then does what the body of the mnemonic does. -/
theorem exists_body_of_step {s : Step} (h : m.step d = .ok s) :
    ∃ body, Body.named? s.instruction.mnemonic = some body ∧
      s.machine = body d (.ofNat s.word.toNat) m.advance := by
  obtain ⟨hr, hs⟩ := step_eq_ok_iff.mp h
  obtain ⟨body, hbody, heffect⟩ := s.instruction.exists_body
  refine ⟨body, hbody, ?_⟩
  rw [hs, hr.word_eq, Word.ofNat_toNat]
  exact heffect d m.advance

end Machine

end Chip8
