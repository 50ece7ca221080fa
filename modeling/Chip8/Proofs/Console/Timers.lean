import Chip8.Proofs.Console.Run
import Chip8.Proofs.Instruction.Grammar
import Chip8.Proofs.Machine.Frame

/-!
# Timers of a run

A program sets a timer, and from then on it is the host that counts it down, one for each tick and
never below zero (`Console.timers_count_down`). However many steps, waits, faults and other events
come between the ticks, a timer tells what it was set to less the ticks since.
-/

namespace Chip8

/-- The two timers. -/
inductive Timer where
  | delay
  | sound

namespace Timer

def value (m : Machine) : Timer → UInt8
  | .delay => m.delay
  | .sound => m.sound

/-- The template of the instruction that sets the timer to VX. -/
def setter : Timer → String
  | .delay => "FX15"
  | .sound => "FX18"

variable {m : Machine} {t : Timer}

lemma setter_mem_all (t : Timer) : t.setter ∈ Template.all := by
  cases t <;> decide

@[simp] lemma value_poll (m : Machine) (t : Timer) : t.value m.poll = t.value m := by
  cases t with
  | delay => exact Machine.delay_poll m
  | sound => exact Machine.sound_poll m

lemma value_tick (m : Machine) (t : Timer) :
    t.value m.tick = Machine.countDown (t.value m) := by
  cases t <;> rfl

/-- No instruction but its own changes a timer. -/
theorem value_effect (t : Timer) (d : Dialect) (i : Instruction) (m : Machine) :
    t.value (i.effect d m) =
      if i.template = t.setter then m.registers.get i.encode.x else t.value m := by
  cases t with
  | delay =>
    change (i.effect d m).delay = _
    rw [Instruction.delay_effect]
    cases i with
    | operate op x y => cases op <;> rfl
    | _ => rfl
  | sound =>
    change (i.effect d m).sound = _
    rw [Instruction.sound_effect]
    cases i with
    | operate op x y => cases op <;> rfl
    | _ => rfl

end Timer

lemma Machine.toNat_countDown (v : UInt8) : (countDown v).toNat = v.toNat - 1 := by
  unfold countDown
  split
  next h =>
    have h : 1 ≤ v := UInt8.le_iff_toNat_le.mpr (UInt8.lt_iff_toNat_lt.mp h)
    rw [UInt8.toNat_sub_of_le _ _ h]
    rfl
  next h =>
    rw [UInt8.lt_iff_toNat_lt] at h
    have hzero : (0 : UInt8).toNat = 0 := rfl
    omega

/-- How a timer has come to its value: what it was set to last, and the ticks since then. -/
structure Countdown where
  start : UInt8
  ticks : Nat
  deriving DecidableEq

/-- What is left to count. The difference of two natural numbers is never below zero. -/
def Countdown.rest (r : Countdown) : Nat :=
  r.start.toNat - r.ticks

/-- The countdown of a timer after an event on `before` with this answer. -/
def Event.noteTimer (t : Timer) (e : Event) (answer : Except Host.Error Answer) (before : Machine)
    (r : Countdown) : Countdown :=
  match e, answer with
  | .tick, .ok _ => { r with ticks := r.ticks + 1 }
  | .step, .ok (.word n) =>
    if isInstance t.setter n.toNat then ⟨before.registers.get (Word.ofNat n.toNat).x, 0⟩ else r
  | e, .ok _ => if e.isStart then ⟨0, 0⟩ else r
  | _, .error _ => r

namespace Console

variable {c c' : Console} {e : Event} {t : Timer} {r : Countdown}

/-- The countdown of a timer in a run, as far as it belongs to the last program that has been
started. -/
def countdown (t : Timer) (c : Console) (es : List Event) : Countdown :=
  c.record (fun c e => e.noteTimer t (c.handle e).answer c.machine) ⟨0, 0⟩ es

/-- Every event moves a timer as it moves its countdown. -/
lemma Transition.value_eq_rest {answer : Except Host.Error Answer}
    (ht : c.Transition e answer c') (h : (t.value c.machine).toNat = r.rest) :
    (t.value c'.machine).toNat = (e.noteTimer t answer c.machine r).rest := by
  cases ht with
  | fail => cases e <;> exact h
  | setKey | readByte | writeByte => exact h
  | start hs hm =>
    obtain ⟨-, rfl⟩ := Machine.load_eq_ok_iff.mp hm
    cases hs <;> cases t <;> rfl
  | poll =>
    rw [Timer.value_poll]
    exact h
  | step _ _ hs =>
    obtain ⟨hr, hs⟩ := Machine.step_eq_ok_iff.mp hs
    rw [hs, Timer.value_effect]
    simp only [Event.noteTimer, hr.word_eq, Word.ofNat_toNat,
      Instruction.isInstance_encode t.setter_mem_all]
    split
    · rfl
    · exact h
  | tick =>
    rw [Timer.value_tick, Machine.toNat_countDown, h]
    exact Nat.sub_sub _ _ 1

/-- Only ticks, starts and its own instruction move a timer. -/
lemma Transition.of_value_ne {answer : Except Host.Error Answer} (ht : c.Transition e answer c')
    (h : t.value c'.machine ≠ t.value c.machine) :
    e = .tick ∨ (e.isStart = true ∧ answer = .ok .done) ∨
      ∃ n, answer = .ok (.word n) ∧ isInstance t.setter n.toNat = true := by
  cases ht with
  | fail | setKey | readByte | writeByte => exact absurd rfl h
  | start hs hm => exact .inr (.inl ⟨hs.isStart, rfl⟩)
  | poll => exact absurd (Timer.value_poll _ _) h
  | step _ _ hs =>
    obtain ⟨hr, hs⟩ := Machine.step_eq_ok_iff.mp hs
    refine .inr (.inr ⟨_, rfl, ?_⟩)
    by_contra hn
    rw [hs] at h hn
    rw [hr.word_eq, Instruction.isInstance_encode t.setter_mem_all] at hn
    exact h ((Timer.value_effect _ _ _ _).trans (if_neg hn))
  | tick => exact .inl rfl

lemma value_eq_rest_countdown (t : Timer) (d : Dialect) (seed : Int64) (logger : Log.Logger)
    (es : List Event) :
    (t.value ((new d seed logger).after es).machine).toNat =
      ((new d seed logger).countdown t es).rest :=
  record_induction (P := fun (c : Console) (r : Countdown) => (t.value c.machine).toNat = r.rest)
    (fun c e _ h => (transition_handle c e).value_eq_rest h) es (by cases t <;> rfl)

end Console

namespace Instruction

lemma exists_readDelay_of_template {i : Instruction} (h : i.template = "FX07") :
    ∃ x, i = .readDelay x := by
  cases i with
  | readDelay x => exact ⟨x, rfl⟩
  | operate op x y => cases op <;> simp [template] at h
  | _ => simp [template] at h

end Instruction

namespace Console

/-- After any run each timer is what it was set to last, less the ticks since then, or zero if there
were more. The sound is on as long as the ticks are fewer, and `FX07` reads what is left of the
delay. Nothing but ticks, starts and the instruction that sets it moves a timer. -/
theorem timers_count_down (d : Dialect) (seed : Int64) (logger : Log.Logger) (es : List Event) :
    let c := (new d seed logger).after es
    let countdown (t : Timer) := (new d seed logger).countdown t es
    (∀ t : Timer, (t.value c.machine).toNat = (countdown t).start.toNat - (countdown t).ticks) ∧
      (c.machine.soundActive = true ↔ (countdown .sound).ticks < (countdown .sound).start.toNat) ∧
      (∀ n, c.step.answer = .ok (.word n) → isInstance "FX07" n.toNat = true →
        (c.step.console.machine.registers.get (Word.ofNat n.toNat).x).toNat =
          (countdown .delay).start.toNat - (countdown .delay).ticks) ∧
      ∀ (t : Timer) (e : Event), t.value (c.handle e).console.machine ≠ t.value c.machine →
        e = .tick ∨ (e.isStart = true ∧ (c.handle e).answer = .ok .done) ∨
          ∃ n, (c.handle e).answer = .ok (.word n) ∧ isInstance t.setter n.toNat = true := by
  intro c countdown
  have hvalue (t : Timer) : (t.value c.machine).toNat = (countdown t).rest :=
    value_eq_rest_countdown t d seed logger es
  refine ⟨hvalue, ?_, fun n hn hread => ?_, fun t e => (transition_handle c e).of_value_ne⟩
  · have hsound : c.machine.sound.toNat = (countdown .sound).rest := hvalue .sound
    have hzero : (0 : UInt8).toNat = 0 := rfl
    rw [Machine.soundActive, decide_eq_true_eq, UInt8.lt_iff_toNat_lt, hsound, hzero,
      Countdown.rest]
    omega
  · obtain ⟨i, -, -, hw, hconsole⟩ := exists_runs_of_step hn
    rw [hw, Instruction.isInstance_encode (by decide)] at hread
    obtain ⟨x, rfl⟩ := Instruction.exists_readDelay_of_template hread
    have hx : (Instruction.readDelay x).encode.x = x := rfl
    rw [hconsole, hw, Word.ofNat_toNat, hx]
    exact (congrArg UInt8.toNat (Registers.get_set_self _ x _)).trans (hvalue .delay)

/-- The delay has been set to five four ticks ago and the sound to two three ticks ago. -/
theorem timers_count_down_past_zero :
    let run : List Event :=
      [.start [0x60, 0x05, 0xF0, 0x15, 0x61, 0x02, 0xF1, 0x18, 0xF2, 0x07], .step, .step, .tick,
        .step, .step, .tick, .tick, .tick]
    let c := (new .modern 0 {}).after run
    (Timer.delay.value c.machine).toNat = 1 ∧ (Timer.sound.value c.machine).toNat = 0 ∧
      ¬ c.machine.soundActive = true ∧ c.step.answer = .ok (.word 0xF207) ∧
      (c.step.console.machine.registers.get (Word.ofNat 0xF207).x).toNat = 1 ∧
      Timer.sound.value (c.handle (.readByte 0x200)).console.machine =
        Timer.sound.value c.machine := by
  intro run
  dsimp only
  obtain ⟨hvalue, hactive, hread, hothers⟩ := timers_count_down .modern 0 {} run
  dsimp only at hvalue hactive hread
  obtain ⟨hdelay, hsound, hstep⟩ : (new .modern 0 {}).countdown .delay run = ⟨5, 4⟩ ∧
      (new .modern 0 {}).countdown .sound run = ⟨2, 3⟩ ∧
      ((new .modern 0 {}).after run).step.answer = .ok (.word 0xF207) := by
    decide +kernel
  refine ⟨?_, ?_, ?_, hstep, ?_, ?_⟩
  · rw [hvalue .delay, hdelay]
    rfl
  · rw [hvalue .sound, hsound]
    rfl
  · rw [hactive, hsound]
    decide
  · refine (hread _ hstep (by decide)).trans ?_
    rw [hdelay]
    rfl
  · by_contra hne
    rcases hothers .sound (.readByte 0x200) hne with h | ⟨h, -⟩ | ⟨n, hn, -⟩
    · cases h
    · cases h
    · cases hn

end Console

end Chip8
