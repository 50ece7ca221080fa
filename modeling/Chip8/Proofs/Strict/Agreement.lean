import Chip8.Proofs.Console.Invariant
import Chip8.Proofs.List
import Chip8.Proofs.Strict.Basic

/-!
# Steps stay in range

On a regular machine the checks of a step are enough: whenever a step succeeds, the strict machine
is defined and comes to the same state (`Console.strictStep?_of_step`). So no successful step
depends on what the machine does with an address, a slot or a number out of range.
-/

namespace Chip8

/-! ### Parts that exist -/

lemma counter?_eq_some {z : Int} {n : UInt16} (h : z = n.toNat) : counter? z = some n := by
  have hn := n.toNat_lt
  rw [counter?, if_pos (by omega), h]
  simp

namespace Memory

variable {m : Memory} {a : Nat}

lemma get?_eq_some (h : a < 4096) : m.get? a = some (m.read a) := by
  have hmin : min a 4095 = a := by omega
  simp [get?, read, hmin, h]

lemma put?_eq_some (h : a < 4096) (b : UInt8) : m.put? a b = some (m.write a b) := by
  rw [put?, dif_pos h, write]
  congr 2
  exact Vector.ext fun i hi => by rw [Vector.getElem_set, Vector.getElem_setIfInBounds]

lemma getAll?_eq_some {n : Nat} (h : n = 0 ∨ a + n ≤ 4096) :
    m.getAll? a n = some (m.readAll a n) := by
  refine List.mapM_eq_some_of_forall fun k hk => get?_eq_some ?_
  rw [List.mem_range] at hk
  omega

lemma putAll?_eq_some {bs : List UInt8} (h : a + bs.length ≤ 4096) :
    m.putAll? a bs = some (m.writeAll a bs) := by
  induction bs generalizing m a with
  | nil => rfl
  | cons b bs ih =>
    rw [List.length_cons] at h
    rw [putAll?, put?_eq_some (by omega), Option.bind_some, ih (by omega), writeAll_cons]

end Memory

namespace Registers

variable {r : Registers} {x : Fin 16}

@[simp] lemma get?_val (r : Registers) (x : Fin 16) : r.get? x = some (r.get x) := by
  simp [get?, get]

lemma put?_eq_some {x : Nat} (h : x < 16) (b : UInt8) :
    r.put? x b = some (r.set ⟨x, h⟩ b) :=
  dif_pos h

@[simp] lemma put?_val (r : Registers) (x : Fin 16) (b : UInt8) :
    r.put? x b = some (r.set x b) :=
  put?_eq_some x.isLt b

lemma getAll?_eq_some (r : Registers) (x : Fin 16) : r.getAll? (x + 1) = some (r.upTo x) := by
  have hget : ∀ k ∈ List.range (x + 1), r.get? k = some (r.read k) := by
    intro k hk
    rw [List.mem_range] at hk
    have hmin : min k 15 = k := by omega
    simp [get?, read, hmin, show k < 16 by omega]
  rw [getAll?, List.mapM_eq_some_of_forall hget]
  refine congrArg some (List.ext_getElem (by simp) fun k hk _ => ?_)
  have hmin : min k 15 = k := by
    simp only [List.length_map, List.length_range] at hk
    omega
  simp [upTo, read, hmin]

/-- Values that are put one by one are read back where they were put. -/
lemma putAll?_eq_some {x : Nat} {bs : List UInt8} (h : x + bs.length ≤ 16) :
    r.putAll? x bs =
      some (.ofFn fun z => if x ≤ z then bs.getD (z - x) (r.get z) else r.get z) := by
  induction bs generalizing r x with
  | nil =>
    simp only [putAll?, List.getD_nil, ite_self, Option.some.injEq]
    ext z
    rw [get_ofFn]
  | cons b bs ih =>
    rw [List.length_cons] at h
    rw [putAll?, put?_eq_some (by omega), Option.bind_some, ih (by omega)]
    congr 2
    funext z
    have hx : (⟨x, by omega⟩ : Fin 16) = z ↔ x = z := Fin.ext_iff
    simp only [get_set, hx]
    rcases Nat.lt_trichotomy x z with hlt | heq | hgt
    · have hk : (z : Nat) - x = z - (x + 1) + 1 := by omega
      rw [if_pos (by omega), if_neg (by omega), if_pos (by omega), hk, List.getD_cons_succ]
    · rw [if_neg (by omega), if_pos heq, if_pos (by omega), heq, Nat.sub_self,
        List.getD_cons_zero]
    · rw [if_neg (by omega), if_neg (by omega), if_neg (by omega)]

end Registers

namespace Keypad

lemma get?_mod (p : Keypad) (n : Nat) : p.get? (n % 16) = some (p.isDown (Fin.ofNat 16 n)) := by
  simp [get?, isDown, Fin.ofNat]

end Keypad

namespace CallStack

variable {s : CallStack}

lemma get?_val (s : CallStack) (k : Fin 16) : s.get? k = some (s.slot k) := by
  simp [get?, slot]

/-- A slot that exists is replaced, and the pointer may be moved anywhere in reach. -/
lemma exists_put?_eq_some (s : CallStack) (k : Fin 16) (a : UInt16) :
    ∃ t, s.put? k a = some t ∧ ∀ j, t.slot j = if (j : Int) = k then a else s.slot j := by
  refine ⟨_, dif_pos ⟨by omega, by omega⟩, fun j => ?_⟩
  have hj : (k : Nat) = j ↔ (j : Int) = k := by omega
  simp only [slot, Int.toNat_natCast, Vector.getElem_set, hj]

lemma toInt_ofInt_of_le {z : Int} (h₀ : 0 ≤ z) (h : z ≤ 16) : (Int32.ofInt z).toInt = z :=
  Int32.toInt_ofInt_of_le (by omega) (by omega)

lemma push?_eq_some (h : s.Regular) (hd : s.depth < 16) (a : UInt16) :
    s.push? a = some (s.push a) := by
  have h₀ := h.depth_nonneg
  obtain ⟨k, hk⟩ : ∃ k : Fin 16, s.depth = k := ⟨⟨s.depth.toNat, by omega⟩, by simp only; omega⟩
  obtain ⟨t, ht, hslot⟩ := exists_put?_eq_some s k a
  have hpush : { t with pointer := Int32.ofInt (k + 1) } = s.push a := by
    refine CallStack.ext ?_ fun j => ?_
    · rw [depth_push h₀ hd, hk]
      exact toInt_ofInt_of_le (by omega) (by omega)
    · rw [slot_push h₀, hk]
      exact hslot j
  have hp : s.pointer.toInt = k := hk
  simp only [push?, hp, ht, Option.bind_eq_bind, Option.bind_some, Option.pure_def, hpush]

lemma pop?_eq_some (h : s.Regular) (hd : s.depth ≠ 0) : s.pop? = some (s.top, s.pop) := by
  have h₁ := h.depth_le
  obtain ⟨k, hk⟩ := h.exists_slot_below hd
  obtain ⟨t, ht, hslot⟩ := exists_put?_eq_some s k 0
  have hpop : { t with pointer := Int32.ofInt k } = s.pop := by
    refine CallStack.ext ?_ fun j => ?_
    · rw [depth_pop (by omega) h₁, hk]
      exact (toInt_ofInt_of_le (by omega) (by omega)).trans (by omega)
    · rw [slot_pop (by omega) h₁, hk, Int.add_sub_cancel]
      exact hslot j
  have hp : s.pointer.toInt - 1 = k := by rw [← depth]; omega
  simp only [pop?, hp, get?_val, ht, Option.bind_eq_bind, Option.bind_some, Option.pure_def, hpop,
    top_eq_slot hk]

end CallStack

/-! ### Instructions -/

namespace Machine

variable {m : Machine}

@[simp] lemma putRegister?_val (m : Machine) (x : Fin 16) (b : UInt8) :
    m.putRegister? x b = some (m.setRegister x b) := by
  simp [putRegister?, setRegister]

lemma jump?_eq_some {a : Int} {pc : UInt16} (h : a = pc.toNat) :
    m.jump? a = some { m with pc } := by
  simp [jump?, counter?_eq_some h]

lemma pointTo?_eq_some {a : Int} {index : UInt16} (h : a = index.toNat) :
    m.pointTo? a = some { m with index } := by
  simp [pointTo?, counter?_eq_some h]

/-- Moving the counter over a word wraps nowhere near memory. -/
lemma jump?_add_two (h : m.pc.toNat ≤ 0x1000) :
    m.jump? (m.pc.toNat + 2) = some { m with pc := m.pc + 2 } := by
  apply jump?_eq_some
  simp only [UInt16.toNat_add, UInt16.reduceToNat]
  omega

lemma strictSkip?_eq_some (h : m.pc.toNat ≤ 0x1000) (c : Bool) :
    m.strictSkip? c = some (m.skipIf c) := by
  cases c with
  | true => exact jump?_add_two h
  | false => rfl

@[simp] lemma strictKeyDown?_eq_some (m : Machine) (x : Fin 16) :
    m.strictKeyDown? x = some (m.keyDown x) := by
  simp [strictKeyDown?, keyDown, Keypad.get?_mod]

lemma strictOperate?_eq_some (d : Dialect) (op : Operation) (x y : Fin 16) (m : Machine) :
    m.strictOperate? d op x y = some (m.operate d op x y) := by
  have hfirst : m.registers.get? (if op.readsSecond d then (y : Nat) else x) =
      some (m.registers.get (if op.readsSecond d then y else x)) := by
    split <;> exact Registers.get?_val _ _
  simp only [strictOperate?, hfirst, Registers.get?_val, putRegister?_val, Option.bind_eq_bind,
    Option.bind_some, Option.pure_def, operate, setRegister]
  split <;> rfl

lemma strictDraw?_eq_some {x y height : Fin 16}
    (h : height = 0 ∨ m.index.toNat + height ≤ 4096) :
    m.strictDraw? x y height = some (m.draw (m.sprite x y height)) := by
  have hrows := Memory.getAll?_eq_some (m := m.memory) (a := m.index.toNat) (n := height)
    (h.imp_left (congrArg Fin.val))
  simp only [strictDraw?, hrows, Registers.get?_val, putRegister?_val, Option.bind_eq_bind,
    Option.bind_some, Option.pure_def]
  rfl

lemma strictAwaitKey?_eq_some (h : 2 ≤ m.pc.toNat) (x : Fin 16) :
    m.strictAwaitKey? x = some (m.awaitKey x) := by
  cases hk : m.keypad.lowest? with
  | some k => simp only [strictAwaitKey?, hk, putRegister?_val, awaitKey_of_down hk]
  | none =>
    have h₂ : 2 ≤ m.pc := UInt16.le_iff_toNat_le.mpr h
    have hpc : (m.pc.toNat - 2 : Int) = (m.pc - 2).toNat := by
      rw [UInt16.toNat_sub_of_le _ _ h₂]
      simp only [UInt16.reduceToNat]
      omega
    simp only [strictAwaitKey?, hk, jump?_eq_some hpc, awaitKey_of_released hk,
      Option.bind_eq_bind, Option.bind_some, Option.pure_def]

lemma strictMoveIndex?_eq_some {x : Fin 16} (h : m.index.toNat + (x + 1) ≤ 4096)
    (d : Dialect) : m.strictMoveIndex? d x = some (m.moveIndex d x) := by
  unfold strictMoveIndex? moveIndex
  split
  · apply pointTo?_eq_some
    simp only [UInt16.toNat_add, UInt16.toNat_ofNat']
    omega
  · rfl

/-- Putting the bytes from the index on into V0 to VX loads these registers. -/
lemma putAll?_readAll (m : Machine) (x : Fin 16) :
    m.registers.putAll? 0 (m.memory.readAll m.index.toNat (x + 1)) =
      some (m.loadRegisters x).registers := by
  rw [Registers.putAll?_eq_some (by rw [Memory.length_readAll]; omega)]
  refine congrArg (some ∘ Registers.ofFn) (funext fun z => ?_)
  rw [if_pos (Nat.zero_le _), Nat.sub_zero, List.getD_eq_getElem?_getD, Memory.getElem?_readAll]
  by_cases hz : z ≤ x
  · rw [if_pos hz, if_pos (by omega), Option.getD_some]
  · rw [if_neg hz, if_neg (by omega), Option.getD_none]

end Machine

namespace Instruction

open Machine

variable {d : Dialect} {m : Machine}

/-- An instruction that passes its check stays in range. -/
theorem strictEffect?_eq_some {i : Instruction} {address : Int} (hs : m.stack.Regular)
    (h₂ : 2 ≤ m.pc.toNat) (hpc : m.pc.toNat ≤ 0x1000) (hp : m.fault? i address = none) :
    i.strictEffect? d m = some (i.effect d m) := by
  cases i with
  | clearScreen => rfl
  | ret =>
    have hd := fault?_ret_eq_none_iff.mp hp
    simp [strictEffect?, CallStack.pop?_eq_some hs hd, effect]
  | jump a =>
    apply jump?_eq_some
    simp only [UInt16.toNat_ofNat']
    omega
  | call a =>
    have hd := fault?_call_eq_none_iff.mp hp
    simp only [strictEffect?, CallStack.push?_eq_some hs hd, Option.bind_eq_bind,
      Option.bind_some]
    apply jump?_eq_some
    simp only [UInt16.toNat_ofNat']
    omega
  | skipIfByte | skipUnlessByte | skipIfSame | skipUnlessSame | skipIfPressed
  | skipUnlessPressed => simp [strictEffect?, effect, strictSkip?_eq_some hpc]
  | setByte | addByte | readDelay | setDelay | setSound => simp [strictEffect?, effect]
  | operate op x y => exact strictOperate?_eq_some d op x y m
  | setIndex a =>
    apply pointTo?_eq_some
    simp only [UInt16.toNat_ofNat']
    omega
  | jumpOffset a =>
    have hget : m.registers.get? (if d.jumpReadsVX then a / 256 else 0) =
        some (m.registers.get (d.offsetRegister a)) := by
      unfold Dialect.offsetRegister
      split
      · exact Registers.get?_val m.registers ⟨a / 256, by omega⟩
      · exact Registers.get?_val m.registers 0
    have hv := (m.registers.get (d.offsetRegister a)).toNat_lt
    simp only [strictEffect?, hget, Option.bind_eq_bind, Option.bind_some]
    apply jump?_eq_some
    simp only [UInt16.toNat_add, UInt16.toNat_ofNat', UInt8.toNat_toUInt16]
    omega
  | random x mask => simp [strictEffect?, effect]
  | draw x y height => exact strictDraw?_eq_some (fault?_draw_eq_none_iff.mp hp)
  | awaitKey x => exact strictAwaitKey?_eq_some h₂ x
  | addIndex x =>
    have hle := fault?_addIndex_eq_none_iff.mp hp
    simp only [strictEffect?, Registers.get?_val, Option.bind_eq_bind, Option.bind_some]
    apply pointTo?_eq_some
    simp only [UInt16.toNat_add, UInt8.toNat_toUInt16]
    omega
  | glyph x =>
    simp only [strictEffect?, Registers.get?_val, Option.bind_eq_bind, Option.bind_some]
    apply pointTo?_eq_some
    simp only [Font.glyph, UInt16.toNat_ofNat', Fin.ofNat, Font.start, Font.glyphSize]
    omega
  | storeDecimal x =>
    have hput : m.memory.putAll? m.index.toNat (decimalDigits (m.registers.get x)) = some _ :=
      Memory.putAll?_eq_some (fault?_storeDecimal_eq_none_iff.mp hp)
    simp only [strictEffect?, Registers.get?_val, hput, Option.bind_eq_bind, Option.bind_some,
      Option.pure_def, effect]
  | storeRegisters x =>
    have hle := fault?_storeRegisters_eq_none_iff.mp hp
    have hput : m.memory.putAll? m.index.toNat (m.registers.upTo x) = some _ :=
      Memory.putAll?_eq_some (by rw [Registers.length_upTo]; exact hle)
    rw [effect, storeRegisters_eq]
    simp only [strictEffect?, Registers.getAll?_eq_some, hput, Option.bind_eq_bind,
      Option.bind_some]
    apply strictMoveIndex?_eq_some
    exact hle
  | loadRegisters x =>
    have hle := fault?_loadRegisters_eq_none_iff.mp hp
    have hget := Memory.getAll?_eq_some (m := m.memory) (.inr hle)
    simp only [strictEffect?, hget, putAll?_readAll, Option.bind_eq_bind, Option.bind_some]
    exact strictMoveIndex?_eq_some (m := m.loadRegisters x) hle d

end Instruction

/-! ### Steps -/

namespace Machine

variable {d : Dialect} {m : Machine}

lemma strictWord?_eq_some (h : m.pc.toNat ≤ 0xFFE) :
    m.strictWord? = some (.ofNat m.word.toNat) := by
  simp only [strictWord?, Memory.get?_eq_some (show m.pc.toNat < 4096 by omega),
    Memory.get?_eq_some (show m.pc.toNat + 1 < 4096 by omega), Option.bind_eq_bind,
    Option.bind_some, Option.pure_def, toNat_word, toNat_pc_add_one h]

lemma strictCycle?_eq_some {i : Instruction} (h : m.stack.Regular) (hr : m.Runs i) :
    m.strictCycle? d = some (i.effect d m.advance) := by
  have hle := hr.pc_le
  have hpc := toNat_pc_advance hle
  have hjump : m.jump? (m.pc.toNat + 2) = some m.advance := jump?_add_two (by omega)
  simp only [strictCycle?, strictWord?_eq_some hle, hr.word_eq, Word.ofNat_toNat,
    Instruction.ofWord?_encode, hjump, Option.bind_eq_bind, Option.bind_some]
  exact Instruction.strictEffect?_eq_some h (by omega) (by omega) hr.passes

lemma strictPoll?_eq_some (h : m.Regular) (ha : m.awaiting = true) :
    m.strictPoll? = some m.poll := by
  have hle := h.pc_le_of_awaiting ha
  have hx := h.keyRegister_le
  cases hk : m.keypad.lowest? with
  | none => rw [strictPoll?, hk, poll_of_released hk]
  | some k =>
    obtain ⟨x, hx⟩ : ∃ x : Fin 16, m.keyRegister.toNat = x :=
      ⟨⟨m.keyRegister.toNat, by omega⟩, rfl⟩
    have hset : m.registers.set? x (UInt8.ofNat k) = m.registers.set x (UInt8.ofNat k) :=
      dif_pos x.isLt
    have hpc : (m.setRegister x (UInt8.ofNat k)).pc.toNat ≤ 0x1000 := by
      rw [pc_setRegister]
      omega
    rw [poll_of_down ha hk, hx, hset, strictPoll?, hk, hx]
    dsimp only
    rw [putRegister?_val, Option.bind_eq_bind, Option.bind_some, jump?_add_two hpc]
    rfl

end Machine

namespace Console

variable {c c' : Console} {answer : Answer}

lemma Transition.strictStep? (h : c.machine.Regular) (ht : c.Transition .step (.ok answer) c') :
    c.machine.strictStep? c.dialect = some c'.machine := by
  cases ht with
  | start he => cases he
  | poll _ ha => rw [Machine.strictStep?, if_pos ha, Machine.strictPoll?_eq_some h ha]
  | step _ ha hs =>
    obtain ⟨hr, hs⟩ := Machine.step_eq_ok_iff.mp hs
    rw [Machine.strictStep?, if_neg (by simp [ha]), Machine.strictCycle?_eq_some h.stack hr, hs]

/-- Whenever a step of a console that a host can bring about succeeds, the strict machine is
defined and comes to the same state. -/
theorem strictStep?_of_step (hc : c.Reachable) (h : c.step.answer = .ok answer) :
    c.machine.strictStep? c.dialect = some c.step.console.machine :=
  Transition.strictStep? hc.regular.machine (h ▸ transition_step)

/-- Three registers are stored in the last three bytes of memory, and the index moves behind
them. -/
theorem strictStep?_of_step_at_end :
    let c := (new .legacy 0 {}).after [.start [0xAF, 0xFD, 0xF2, 0x55], .step]
    c.machine.strictStep? c.dialect = some c.step.console.machine := by
  intro c
  have hc : c.Reachable := ⟨_, _, _, _, rfl⟩
  have hstep : c.step.answer = .ok (.word 0xF255) := by decide +kernel
  exact strictStep?_of_step hc hstep

end Console

end Chip8
