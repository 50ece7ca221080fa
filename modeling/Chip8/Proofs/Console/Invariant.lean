import Chip8.Proofs.Console.Run
import Chip8.Proofs.Machine.Invariant
import Mathlib.Data.List.Induction

/-!
# Regular consoles

A console is regular if its machine is and its image fits into program space. Every console that
a host can bring about is regular (`Console.Reachable.regular`). While a program waits, the bytes
at the counter are those of the instruction that waits, unless the host itself has written over
them during the wait (`Console.regular_after_new`).
-/

namespace Chip8

/-! ### The instruction of a wait -/

namespace Machine

variable {d : Dialect} {m : Machine}

/-- The bytes at the counter wait for a key for the register of the wait. -/
structure AtAwaitKey (m : Machine) : Prop where
  high : (m.memory.read m.pc.toNat).toNat = 0xF0 + m.keyRegister.toNat
  low : m.memory.read (m.pc.toNat + 1) = 0x0A

/-- A step that begins a wait stays at the instruction that waits. -/
lemma atAwaitKey_of_step {s : Step} (ha : m.awaiting = false) (hs : m.step d = .ok s)
    (haw : s.machine.awaiting = true) : s.machine.AtAwaitKey := by
  obtain ⟨hr, hs⟩ := step_eq_ok_iff.mp hs
  rw [hs] at haw ⊢
  obtain ⟨x, hx, hk⟩ := exists_awaitKey_of_awaiting ha haw
  rw [hx] at hr ⊢
  have hw := hr.word_eq
  have hx := x.isLt
  rw [toNat_word, toNat_pc_add_one hr.pc_le] at hw
  simp only [Instruction.encode, Word.toNat] at hw
  have hlow := (m.memory.read (m.pc.toNat + 1)).toNat_lt
  rw [effect_awaitKey_of_released hk]
  refine ⟨?_, UInt8.toNat_inj.mp ?_⟩
  · simp only [UInt8.toNat_ofNat']
    omega
  · simp only [UInt8.reduceToNat]
    omega

end Machine

namespace Console

variable {c c' : Console} {e : Event} {answer : Except Host.Error Answer}

/-! ### Regular consoles -/

/-- What is true of the machine and of the remembered image. -/
structure Regular (c : Console) : Prop where
  machine : c.machine.Regular
  length_image_le : ∀ image, c.image = some image → image.length ≤ 3584

namespace Regular

protected lemma new (d : Dialect) (seed : Int64) (logger : Log.Logger) :
    (new d seed logger).Regular :=
  ⟨.fresh seed, fun _ h => nomatch h⟩

lemma of_transition (h : c.Regular) (ht : c.Transition e answer c') : c'.Regular := by
  cases ht with
  | fail | readByte => exact h
  | @start _ image m _ hm =>
    refine ⟨(Machine.Regular.fresh c.seed).load hm, fun image' hi => ?_⟩
    obtain rfl : image = image' := Option.some.inj hi
    exact (Machine.load_eq_ok_iff.mp hm).1
  | poll => exact ⟨h.machine.poll, h.length_image_le⟩
  | step _ ha hs => exact ⟨h.machine.step ha hs, h.length_image_le⟩
  | tick => exact ⟨h.machine.tick, h.length_image_le⟩
  | setKey => exact ⟨h.machine.setKeypad _, h.length_image_le⟩
  | writeByte => exact ⟨h.machine.setMemory _, h.length_image_le⟩

end Regular

lemma Regular.after (h : c.Regular) (es : List Event) : (c.after es).Regular :=
  after_induction (fun c e h => h.of_transition (transition_handle c e)) es h

theorem Reachable.regular (h : c.Reachable) : c.Regular := by
  obtain ⟨d, seed, logger, es, rfl⟩ := h
  exact (Regular.new d seed logger).after es

/-! ### Writes during a wait -/

/-- The program waits for a key before, between and after the events. -/
def WaitsThroughout (c : Console) (es : List Event) : Prop :=
  ∀ fs, fs <+: es → (c.after fs).machine.awaiting = true

/-- One of the events has written to address `a`, and the program waits since before then. -/
def WrittenSinceWait (c : Console) (es : List Event) (a : Nat) : Prop :=
  ∃ before v rest, es = before ++ .writeByte a v :: rest ∧
    ((c.after before).writeByte a v).answer = .ok .done ∧
    (c.after before).WaitsThroughout (.writeByte a v :: rest)

lemma WaitsThroughout.concat {es : List Event} (h : c.WaitsThroughout es)
    (he : (c.after (es ++ [e])).machine.awaiting = true) : c.WaitsThroughout (es ++ [e]) := by
  intro fs hfs
  rcases List.prefix_concat_iff.mp hfs with rfl | hfs
  · exact he
  · exact h fs hfs

lemma WrittenSinceWait.concat {es : List Event} {a : Nat} (h : c.WrittenSinceWait es a)
    (he : (c.after (es ++ [e])).machine.awaiting = true) : c.WrittenSinceWait (es ++ [e]) a := by
  obtain ⟨before, v, rest, rfl, hv, hw⟩ := h
  refine ⟨before, v, rest ++ [e], by simp, hv, hw.concat ?_⟩
  rwa [List.append_assoc, after_append] at he

/-- The last of the events counts if the program waits before and after it. -/
lemma writtenSinceWait_concat_writeByte {es : List Event} {a : Nat} {v : Int}
    (hv : ((c.after es).writeByte a v).answer = .ok .done)
    (hb : (c.after es).machine.awaiting = true)
    (he : (c.after (es ++ [.writeByte a v])).machine.awaiting = true) :
    c.WrittenSinceWait (es ++ [.writeByte a v]) a := by
  have hnil : (c.after es).WaitsThroughout [] := by
    intro fs hfs
    rw [List.prefix_nil.mp hfs]
    exact hb
  rw [after_append] at he
  exact ⟨es, v, [], rfl, hv, hnil.concat he⟩

lemma not_writtenSinceWait {es : List Event} {a : Nat} (h : ∀ v, .writeByte a v ∉ es) :
    ¬ c.WrittenSinceWait es a := by
  rintro ⟨before, v, rest, rfl, -, -⟩
  exact h v (by simp)

/-- An event during a wait that does not end it changes at most memory, by a write. -/
lemma Transition.of_awaiting (ht : c.Transition e answer c')
    (h : c.machine.awaiting = true) (h' : c'.machine.awaiting = true) :
    c'.machine.pc = c.machine.pc ∧ c'.machine.keyRegister = c.machine.keyRegister ∧
      (c'.machine.memory = c.machine.memory ∨
        ∃ a v : Nat, e = .writeByte a v ∧ answer = .ok .done ∧
          c'.machine.memory = c.machine.memory.write a (UInt8.ofNat v)) := by
  cases ht with
  | fail | readByte | tick | setKey => exact ⟨rfl, rfl, .inl rfl⟩
  | @start _ image m _ hm =>
    obtain ⟨-, rfl⟩ := Machine.load_eq_ok_iff.mp hm
    cases h'
  | poll =>
    cases hk : c.machine.keypad.lowest? with
    | none =>
      have hp := Machine.poll_of_released hk
      exact ⟨congrArg Machine.pc hp, congrArg Machine.keyRegister hp,
        .inl (congrArg Machine.memory hp)⟩
    | some k => simp [Machine.poll, h, hk] at h'
  | step _ ha => exact absurd (h.symm.trans ha) (by decide)
  | @writeByte a v => exact ⟨rfl, rfl, .inr ⟨a, v, rfl, rfl, rfl⟩⟩

/-- A wait begins at the instruction that waits. -/
lemma Transition.atAwaitKey (ht : c.Transition e answer c') (h : c.machine.awaiting = false)
    (h' : c'.machine.awaiting = true) : c'.machine.AtAwaitKey := by
  cases ht with
  | fail | readByte | tick | setKey | writeByte => exact absurd (h.symm.trans h') (by decide)
  | @start _ image m _ hm =>
    obtain ⟨-, rfl⟩ := Machine.load_eq_ok_iff.mp hm
    cases h'
  | poll _ ha => exact absurd (h.symm.trans ha) (by decide)
  | step _ ha hs => exact Machine.atAwaitKey_of_step ha hs h'

/-- While the program waits, its counter is at the instruction that waits, as long as no write
has hit this instruction. The wait either begins with the last event or was there before it. -/
theorem atAwaitKey_after (hr : c.Regular) (hc : c.machine.awaiting = false) (es : List Event)
    (haw : (c.after es).machine.awaiting = true)
    (hhigh : ¬ c.WrittenSinceWait es (c.after es).machine.pc.toNat)
    (hlow : ¬ c.WrittenSinceWait es ((c.after es).machine.pc.toNat + 1)) :
    (c.after es).machine.AtAwaitKey := by
  induction es using List.reverseRecOn with
  | nil => exact absurd (hc.symm.trans haw) (by decide)
  | append_singleton es e ih =>
    have ht := transition_handle (c.after es) e
    have hcon : c.after (es ++ [e]) = ((c.after es).handle e).console := after_append c es [e]
    cases hb : (c.after es).machine.awaiting with
    | false => rw [hcon] at haw ⊢; exact ht.atAwaitKey hb haw
    | true =>
      have haw' := haw
      rw [hcon] at haw'
      obtain ⟨hpc, hkey, hmem⟩ := ht.of_awaiting hb haw'
      rw [hcon, hpc] at hhigh hlow
      have ih := ih hb (mt (·.concat haw) hhigh) (mt (·.concat haw) hlow)
      have hle := (hr.after es).machine.pc_le_of_awaiting hb
      rw [hcon]
      rcases hmem with hmem | ⟨a, v, rfl, hv, hmem⟩
      · exact ⟨by rw [hmem, hpc, hkey, ih.high], by rw [hmem, hpc, ih.low]⟩
      · have hwritten := writtenSinceWait_concat_writeByte hv hb haw
        have ha₁ : a ≠ (c.after es).machine.pc.toNat := fun h => hhigh (h ▸ hwritten)
        have ha₂ : a ≠ (c.after es).machine.pc.toNat + 1 := fun h => hlow (h ▸ hwritten)
        refine ⟨?_, ?_⟩
        · rw [hmem, hpc, hkey, Memory.read_write, if_neg (by omega), ih.high]
        · rw [hmem, hpc, Memory.read_write, if_neg (by omega), ih.low]

/-- In every run the console is regular, and while the program waits its counter is at an
instruction that waits for the register of the wait, provided that no write has hit one of the
two bytes since the wait began. -/
theorem regular_after_new (d : Dialect) (seed : Int64) (logger : Log.Logger) (es : List Event) :
    let start := new d seed logger
    let c := start.after es
    c.Regular ∧
      (c.machine.awaiting = true →
        ¬ start.WrittenSinceWait es c.machine.pc.toNat →
        ¬ start.WrittenSinceWait es (c.machine.pc.toNat + 1) → c.machine.AtAwaitKey) :=
  ⟨Reachable.regular ⟨d, seed, logger, es, rfl⟩, atAwaitKey_after (.new d seed logger) rfl es⟩

/-- A write to another address during a wait leaves the instruction that waits. -/
theorem regular_after_new_of_other_write :
    let es : List Event := [.start [0xF3, 0x0A], .step, .writeByte 0x300 7, .tick]
    ((new .modern 0 {}).after es).machine.AtAwaitKey := by
  intro es
  have hpc : ((new .modern 0 {}).after es).machine.pc.toNat = 0x200 := by decide +kernel
  refine (regular_after_new .modern 0 {} es).2 (by decide +kernel) ?_ ?_
  · rw [hpc]
    exact not_writtenSinceWait fun v hv => by simp [es] at hv
  · rw [hpc]
    exact not_writtenSinceWait fun v hv => by simp [es] at hv

end Console

end Chip8
