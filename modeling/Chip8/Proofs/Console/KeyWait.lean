import Chip8.Proofs.Console.Run
import Chip8.Proofs.Machine.Invariant

/-!
# Delayed key waits

An instruction that waits for a key has two ways to get it: a key that is already down is read at
once, and otherwise a wait begins that a later step ends. Both come to the same, whatever ticks
and keys there are in between (`Console.delayed_wait_eq_immediate_read`). The reason is that ticks
and keys do not see whether the program waits, so that the wait may as well begin after all of them.
-/

namespace Chip8

/-! ### The lowest key -/

lemma Keypad.lowest?_eq_some_iff {p : Keypad} {k : Fin 16} :
    p.lowest? = some k ↔ p.isDown k = true ∧ ∀ j < k, p.isDown j = false := by
  rw [lowest?, List.find?_eq_some_iff_getElem]
  constructor
  · rintro ⟨hk, i, hi, rfl, hj⟩
    refine ⟨hk, fun j hlt => ?_⟩
    rw [List.getElem_finRange, Fin.cast_mk] at hlt
    simpa using hj j hlt
  · rintro ⟨hk, hj⟩
    refine ⟨hk, k, by simp, by simp, fun j hlt => ?_⟩
    simpa using hj ⟨j, by omega⟩ hlt

lemma Keypad.exists_lowest? {p : Keypad} (h : ∃ k, p.isDown k = true) :
    ∃ k, p.lowest? = some k := by
  rw [← Option.isSome_iff_exists, Option.isSome_iff_ne_none, Ne, lowest?_eq_none_iff]
  obtain ⟨k, hk⟩ := h
  intro hup
  exact absurd (hup k) (by simp [hk])

/-! ### The two ways to get a key -/

namespace Machine

variable {d : Dialect} {m : Machine} {x k : Fin 16}

/-- Wait for a key for VX from now on. -/
def beginWait (m : Machine) (x : Fin 16) : Machine :=
  { m with awaiting := true, keyRegister := UInt8.ofNat x }

/-- Take the key `k` for VX and go on behind the instruction that has asked for it. -/
def takeKey (m : Machine) (x k : Fin 16) : Machine :=
  { m with pc := m.pc + 2, registers := m.registers.set x (UInt8.ofNat k) }

lemma effect_awaitKey_of_down (h : m.keypad.lowest? = some k) (x : Fin 16) :
    (Instruction.awaitKey x).effect d m.advance = m.takeKey x k :=
  awaitKey_of_down (m := m.advance) h x

/-- The end of a wait takes the key as if it had been down before, but for the register of the
wait, which stays behind. -/
theorem poll_beginWait_of_down (ha : m.awaiting = false) (h : m.keypad.lowest? = some k) :
    (m.beginWait x).poll = { m.takeKey x k with keyRegister := UInt8.ofNat x } := by
  have hset : m.registers.set? (UInt8.ofNat x).toNat (UInt8.ofNat k) =
      m.registers.set x (UInt8.ofNat k) := by
    have hx : (UInt8.ofNat x).toNat = x := by
      rw [UInt8.toNat_ofNat']
      omega
    rw [hx]
    exact dif_pos x.isLt
  rw [poll_of_down (m := m.beginWait x) rfl h]
  simp only [beginWait, takeKey, hset, ha]

end Machine

/-! ### Events that do not see a wait -/

/-- Ticks and keys do not see whether the program waits. -/
def Event.isPassive : Event → Bool
  | .tick | .setKey _ _ => true
  | _ => false

namespace Console

variable {c : Console} {x k : Fin 16} {a : Nat} {e : Event} {es fs : List Event}

def beginWait (c : Console) (x : Fin 16) : Console :=
  { c with machine := c.machine.beginWait x }

lemma handle_beginWait (h : e.isPassive) :
    ((c.beginWait x).handle e).console = ((c.handle e).console).beginWait x := by
  cases e with
  | tick => rfl
  | setKey key pressed =>
    simp only [handle, setKey]
    split
    · rfl
    · split <;> rfl
  | _ => cases h

/-- The instruction at the address `a` is next and waits for a key for VX. The wait has not begun
yet. -/
structure AtKeyWait (c : Console) (x : Fin 16) (a : Nat) : Prop where
  image_isSome : c.image.isSome
  awaiting : c.machine.awaiting = false
  pc_eq : c.machine.pc.toNat = a
  le : a ≤ 0xFFE
  word_eq : c.machine.word.toNat = 0xF00A + 256 * x

namespace AtKeyWait

lemma runs (h : c.AtKeyWait x a) : c.machine.Runs (.awaitKey x) where
  pc_le := h.pc_eq ▸ h.le
  word_eq := by
    rw [h.word_eq]
    simp only [Instruction.encode, Word.toNat]
    omega
  passes := rfl

lemma handle (h : c.AtKeyWait x a) (he : e.isPassive) : (c.handle e).console.AtKeyWait x a := by
  have ht := transition_handle c e
  generalize (c.handle e).answer = answer, (c.handle e).console = c' at ht ⊢
  cases ht with
  | fail | tick | setKey => exact ⟨h.image_isSome, h.awaiting, h.pc_eq, h.le, h.word_eq⟩
  | start hs => cases hs <;> cases he
  | poll | step | readByte | writeByte => cases he

lemma step_eq (h : c.AtKeyWait x a) :
    c.step.answer = .ok (.word c.machine.word) ∧
      c.step.console =
        { c with machine := (Instruction.awaitKey x).effect c.dialect c.machine.advance } := by
  have hs : c.machine.step c.dialect = .ok ⟨c.machine.word, .awaitKey x, _⟩ :=
    Machine.step_eq_ok_iff.mpr ⟨h.runs, rfl⟩
  exact step_of_not_awaiting h.image_isSome h.awaiting hs

lemma step_of_released (h : c.AtKeyWait x a) (hk : ∀ k, c.machine.keypad.isDown k = false) :
    c.step.console = c.beginWait x := by
  rw [h.step_eq.2, Machine.effect_awaitKey_of_released (Keypad.lowest?_eq_none_iff.mpr hk)]
  rfl

lemma step_of_down (h : c.AtKeyWait x a) (hk : c.machine.keypad.lowest? = some k) :
    c.step.console = { c with machine := c.machine.takeKey x k } := by
  rw [h.step_eq.2, Machine.effect_awaitKey_of_down hk]

/-- A step during the wait looks for a key and answers that nothing was run. -/
lemma step_beginWait (h : c.AtKeyWait x a) :
    (c.beginWait x).step.answer = .ok .done ∧
      (c.beginWait x).step.console = { c with machine := (c.machine.beginWait x).poll } :=
  step_of_awaiting (c := c.beginWait x) h.image_isSome rfl

/-- A step during the wait changes nothing as long as no key is down. -/
lemma step_beginWait_of_released (h : c.AtKeyWait x a)
    (hk : ∀ k, c.machine.keypad.isDown k = false) :
    (c.beginWait x).step.console = c.beginWait x := by
  have hk : (c.machine.beginWait x).keypad.lowest? = none := Keypad.lowest?_eq_none_iff.mpr hk
  rw [h.step_beginWait.2, Machine.poll_of_released hk]
  rfl

lemma step_beginWait_of_down (h : c.AtKeyWait x a) (hk : c.machine.keypad.lowest? = some k) :
    (c.beginWait x).step.console =
      { c with machine := { c.machine.takeKey x k with keyRegister := UInt8.ofNat x } } := by
  rw [h.step_beginWait.2, Machine.poll_beginWait_of_down h.awaiting hk]

end AtKeyWait

/-! ### Runs -/

/-- A step happens only while no key is down. -/
def StepReleased (c : Console) (e : Event) : Prop :=
  e = .step → ∀ k, c.machine.keypad.isDown k = false

namespace AtKeyWait

lemma after (h : c.AtKeyWait x a) (hes : ∀ e ∈ es, e.isPassive) :
    (c.after es).AtKeyWait x a := by
  induction es generalizing c with
  | nil => exact h
  | cons e es ih =>
    rw [List.forall_mem_cons] at hes
    exact ih (h.handle hes.1) hes.2

/-- The wait may as well begin after the events, if it does not end among them. -/
lemma after_beginWait (h : c.AtKeyWait x a) (hes : ∀ e ∈ es, e = .step ∨ e.isPassive)
    (hup : (c.beginWait x).Along StepReleased es) :
    (c.beginWait x).after es = (c.after (es.filter Event.isPassive)).beginWait x := by
  induction es generalizing c with
  | nil => rfl
  | cons e es ih =>
    rw [List.forall_mem_cons] at hes
    rw [along_cons] at hup
    rcases hes.1 with rfl | he
    · have hstep : ((c.beginWait x).handle .step).console = c.beginWait x :=
        h.step_beginWait_of_released (hup.1 rfl)
      rw [after_cons, List.filter_cons_of_neg (by decide), hstep]
      exact ih h hes.2 (hstep ▸ hup.2)
    · rw [after_cons, List.filter_cons_of_pos he, after_cons, handle_beginWait he]
      exact ih (h.handle he) hes.2 (handle_beginWait he ▸ hup.2)

/-- The first step begins the wait, and the other events do not see it. -/
theorem after_eq_beginWait (h : c.AtKeyWait x a) (hes : ∀ e ∈ es, e = .step ∨ e.isPassive)
    (hup : c.Along StepReleased es) (hstep : .step ∈ es) :
    c.after es = (c.after (es.filter Event.isPassive)).beginWait x := by
  induction es generalizing c with
  | nil => cases hstep
  | cons e es ih =>
    rw [List.forall_mem_cons] at hes
    rw [along_cons] at hup
    rcases hes.1 with rfl | he
    · have hfirst : (c.handle .step).console = c.beginWait x := h.step_of_released (hup.1 rfl)
      rw [after_cons, List.filter_cons_of_neg (by decide), hfirst]
      exact h.after_beginWait hes.2 (hfirst ▸ hup.2)
    · have hrest : .step ∈ es := by
        rcases List.mem_cons.mp hstep with rfl | hrest
        · cases he
        · exact hrest
      rw [after_cons, List.filter_cons_of_pos he, after_cons]
      exact ih (h.handle he) hes.2 hup.2 hrest

/-- With a key down, a step takes it no matter whether the wait has begun. The register of the
wait is all that tells the two apart. -/
lemma exists_step_eq (h : c.AtKeyWait x a) (hes : ∀ e ∈ es, e = .step ∨ e.isPassive)
    (hup : c.Along StepReleased es) (hk : (c.after es).machine.keypad.lowest? = some k) :
    let c' := c.after (es.filter Event.isPassive)
    c'.AtKeyWait x a ∧ c'.step.console = { c' with machine := c'.machine.takeKey x k } ∧
      ∃ r, (c.after es).step.console =
        { c' with machine := { c'.machine.takeKey x k with keyRegister := r } } := by
  intro c'
  have h' : c'.AtKeyWait x a := h.after fun e he => (List.mem_filter.mp he).2
  by_cases hstep : .step ∈ es
  · have hwait : c.after es = c'.beginWait x := h.after_eq_beginWait hes hup hstep
    rw [hwait] at hk ⊢
    exact ⟨h', h'.step_of_down hk, _, h'.step_beginWait_of_down hk⟩
  · have hself : c' = c.after es := by
      refine congrArg c.after (List.filter_eq_self.mpr fun e he => ?_)
      exact (hes e he).resolve_left fun heq => hstep (heq ▸ he)
    rw [← hself] at hk ⊢
    exact ⟨h', h'.step_of_down hk, c'.machine.keyRegister, h'.step_of_down hk⟩

end AtKeyWait

/-- A key that is taken after a wait, with any ticks, keys and steps while no key is down in
between, leaves the console as if the ticks and keys had come first and the instruction had then
read the key at once. Only the register of the wait may differ. The key is the lowest one that is
down in the end, and all steps but the first and the last change nothing. -/
theorem delayed_wait_eq_immediate_read (h : c.AtKeyWait x a)
    (hes : ∀ e ∈ es, e = .step ∨ e.isPassive) (hup : c.Along StepReleased es)
    (hdown : ∃ k, (c.after es).machine.keypad.isDown k = true) :
    let delayed := (c.after es).step.console
    let immediate := (c.after (es.filter Event.isPassive)).step.console
    delayed =
        { immediate with machine :=
          { immediate.machine with keyRegister := delayed.machine.keyRegister } } ∧
      (∃ k, (c.after es).machine.keypad.isDown k = true ∧
        (∀ j < k, (c.after es).machine.keypad.isDown j = false) ∧
        delayed.machine.registers.get x = UInt8.ofNat k) ∧
      delayed.machine.pc.toNat = a + 2 ∧
      delayed.machine.awaiting = false ∧
      ∀ before rest, es = before ++ .step :: rest → .step ∈ before →
        (c.after before).step.answer = .ok .done ∧
          (c.after before).step.console = c.after before := by
  obtain ⟨k, hk⟩ := Keypad.exists_lowest? hdown
  obtain ⟨h', himmediate, r, hdelayed⟩ := h.exists_step_eq hes hup hk
  intro delayed immediate
  have hlowest := Keypad.lowest?_eq_some_iff.mp hk
  refine ⟨?_, ⟨k, hlowest.1, hlowest.2, ?_⟩, ?_, ?_, ?_⟩
  · simp only [delayed, immediate, hdelayed, himmediate]
  · simp only [delayed, hdelayed, Machine.takeKey, Registers.get_set_self]
  · have hle := h'.le
    simp only [delayed, hdelayed, Machine.takeKey, UInt16.toNat_add, UInt16.reduceToNat, h'.pc_eq]
    omega
  · simp only [delayed, hdelayed, Machine.takeKey, h'.awaiting]
  · rintro before rest rfl hstep
    rw [List.forall_mem_append] at hes
    rw [along_append, along_cons] at hup
    have hwait := h.after_eq_beginWait hes.1 hup.1 hstep
    have hup := hup.2.1 rfl
    have h' : (c.after (before.filter Event.isPassive)).AtKeyWait x a :=
      h.after fun e he => (List.mem_filter.mp he).2
    rw [hwait] at hup ⊢
    exact ⟨h'.step_beginWait.1, h'.step_beginWait_of_released hup⟩

/-- A key that is tapped between two steps is missed, and the key that is down in the end is
taken. -/
theorem delayed_wait_eq_immediate_read_of_tap :
    let c := (new .modern 0 {}).after [.start [0xF3, 0x0A]]
    let down (k : Int) : Event := .setKey (.integer k) (.flag true)
    let up (k : Int) : Event := .setKey (.integer k) (.flag false)
    let immediate := (c.after [down 2, up 2, .tick, down 9]).step.console
    ∃ r, (c.after [.step, down 2, up 2, .step, .tick, down 9]).step.console =
      { immediate with machine := { immediate.machine with keyRegister := r } } := by
  intro c down up immediate
  have h : c.AtKeyWait 3 0x200 := ⟨rfl, rfl, rfl, by decide, by decide +kernel⟩
  have hes : ∀ e ∈ [.step, down 2, up 2, .step, .tick, down 9], e = .step ∨ e.isPassive := by
    simp [down, up, Event.isPassive]
  have hup : c.Along StepReleased [.step, down 2, up 2, .step, .tick, down 9] := by
    simp only [along_cons, along_nil, StepReleased, down, up, reduceCtorEq, false_implies,
      true_and, and_true, forall_const]
    decide +kernel
  have hdown : ∃ k, (c.after [.step, down 2, up 2, .step, .tick, down 9]).machine.keypad.isDown k
      = true := ⟨9, by decide +kernel⟩
  exact ⟨_, (delayed_wait_eq_immediate_read h hes hup hdown).1⟩

end Console

end Chip8
