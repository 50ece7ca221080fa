import Chip8.Proofs.Console.Atomicity
import Chip8.Proofs.Console.Faults
import Chip8.Proofs.Machine.Interference

/-!
# Events in another order

A host ticks the timers, moves keys and runs steps, and often nothing but chance decides which of
two comes first. Two events commute on a console if the order does not matter: neither for the
console afterwards nor for the answer of either event. Ticks and keys commute with each other, and
with every step that they cannot affect (`Console.host_events_commute`).
-/

namespace Chip8

/-- The event succeeds on every console and does `update` to its machine. -/
structure Event.Updates (e : Event) (update : Machine → Machine) : Prop where
  answer_eq : ∀ c : Console, (c.handle e).answer = .ok .done
  console_eq : ∀ c : Console, (c.handle e).console = { c with machine := update c.machine }

namespace Console

variable {c : Console} {e f : Event} {u v : Machine → Machine}

/-- The order of the two events does not matter: either way the console comes out the same, and
each event has the same answer. -/
structure Commute (c : Console) (e f : Event) : Prop where
  console_eq :
    ((c.handle e).console.handle f).console = ((c.handle f).console.handle e).console
  answer_eq : ((c.handle f).console.handle e).answer = (c.handle e).answer
  answer_eq' : ((c.handle e).console.handle f).answer = (c.handle f).answer

protected lemma Commute.symm (h : c.Commute e f) : c.Commute f e :=
  ⟨h.console_eq.symm, h.answer_eq', h.answer_eq⟩

/-! ### Ticks and keys -/

lemma updates_tick : Event.tick.Updates Machine.tick :=
  ⟨fun _ => rfl, fun _ => rfl⟩

lemma updates_setKey {key : Host.Value} {k : Fin 16} (hk : key.index? = some (k : Int))
    (pressed : Host.Value) :
    (Event.setKey key pressed).Updates fun m => m.press k pressed.truth := by
  have hrange : 0 ≤ (k : Int) ∧ (k : Int) < 16 := by omega
  constructor
  · intro c
    simp only [handle, setKey, hk, dif_pos hrange]
    rfl
  · intro c
    simp only [handle, setKey, hk, dif_pos hrange]
    rfl

/-- A key event names one of the keys, or it fails on every console. -/
lemma setKey_cases (key pressed : Host.Value) :
    (∃ k : Fin 16, key.index? = some (k : Int)) ∨
      ∃ err, ∀ c : Console, (c.handle (.setKey key pressed)).answer = .error err := by
  cases hz : key.index? with
  | none =>
    right
    exact ⟨_, fun c => by simp only [handle, setKey, hz]; rfl⟩
  | some z =>
    by_cases h : 0 ≤ z ∧ z < 16
    · left
      exact ⟨⟨z.toNat, by omega⟩, by simp; omega⟩
    · right
      exact ⟨_, fun c => by simp only [handle, setKey, hz, dif_neg h]; rfl⟩

/-- An event that fails on every console commutes with every event. -/
lemma commute_of_fails {err : Host.Error} (hf : ∀ c : Console, (c.handle f).answer = .error err) :
    c.Commute e f where
  console_eq := by rw [console_handle_of_error (hf _), console_handle_of_error (hf _)]
  answer_eq := by rw [console_handle_of_error (hf _)]
  answer_eq' := by rw [hf, hf]

/-- Updates of the machine commute as events if they commute as functions. -/
lemma commute_of_updates (he : e.Updates u) (hf : f.Updates v)
    (h : v (u c.machine) = u (v c.machine)) : c.Commute e f where
  console_eq := by simp only [he.console_eq, hf.console_eq, h]
  answer_eq := by rw [he.answer_eq, he.answer_eq]
  answer_eq' := by rw [hf.answer_eq, hf.answer_eq]

/-! ### Steps -/

/-- An update before a step comes to the same as after it, if it keeps the course of the step and
commutes with what the step does: with the look for a key during a wait, or with the instruction
that runs. -/
lemma step_update (hu : Machine.KeepsCourse u)
    (hpoll : c.step.answer = .ok .done → c.machine.awaiting = true →
      (u c.machine).poll = u c.machine.poll)
    (heffect : ∀ w i, c.step.answer = .ok (.word w) → c.machine.Runs i →
      i.effect c.dialect (u c.machine).advance = u (i.effect c.dialect c.machine.advance)) :
    let updated := { c with machine := u c.machine }
    updated.step.answer = c.step.answer ∧
      updated.step.console = { c.step.console with machine := u c.step.console.machine } := by
  intro updated
  have hchecks := hu.checks c.machine
  have hawaiting := hu.awaiting_eq c.machine
  cases hi : c.image with
  | none =>
    have hi' : updated.image = none := hi
    rw [step, hi', step, hi]
    exact ⟨rfl, rfl⟩
  | some image =>
    have hi : c.image.isSome := by rw [hi]; rfl
    cases ha : c.machine.awaiting with
    | true =>
      obtain ⟨hanswer, hconsole⟩ := step_of_awaiting hi ha
      obtain ⟨hanswer', hconsole'⟩ := step_of_awaiting (c := updated) hi (hawaiting.trans ha)
      rw [hanswer, hanswer', hconsole, hconsole']
      exact ⟨rfl, by simp only [updated, hpoll hanswer ha]⟩
    | false =>
      cases hs : c.machine.step c.dialect with
      | error err =>
        -- The checks find the same fault in both machines, and neither console changes.
        have hanswer := step_of_fault hi ha hs
        have hanswer' := step_of_fault (c := updated) hi (hawaiting.trans ha)
          (hchecks.step_eq_error hs)
        have hconsole : c.step.console = c := console_handle_of_error (e := .step) hanswer
        have hconsole' : updated.step.console = updated :=
          console_handle_of_error (e := .step) hanswer'
        rw [hanswer, hanswer', hconsole, hconsole']
        exact ⟨rfl, rfl⟩
      | ok s =>
        obtain ⟨hr, heq⟩ := Machine.step_eq_ok_iff.mp hs
        obtain ⟨hanswer, hconsole⟩ := step_of_not_awaiting hi ha hs
        obtain ⟨hanswer', hconsole'⟩ := step_of_not_awaiting (c := updated) hi
          (hawaiting.trans ha) (hchecks.step_eq_ok hs)
        have heffect := heffect s.word s.instruction hanswer hr
        have hmachine : s.machine = s.instruction.effect c.dialect c.machine.advance :=
          congrArg Machine.Step.machine heq
        rw [← hmachine] at heffect
        rw [hanswer, hanswer', hconsole, hconsole']
        exact ⟨rfl, by simp only [updated, heffect]⟩

/-- An event that only updates the machine commutes with a step if its update does. -/
lemma commute_step (hf : f.Updates u) (hu : Machine.KeepsCourse u)
    (hpoll : c.step.answer = .ok .done → c.machine.awaiting = true →
      (u c.machine).poll = u c.machine.poll)
    (heffect : ∀ w i, c.step.answer = .ok (.word w) → c.machine.Runs i →
      i.effect c.dialect (u c.machine).advance = u (i.effect c.dialect c.machine.advance)) :
    c.Commute .step f := by
  obtain ⟨hanswer, hconsole⟩ := step_update hu hpoll heffect
  constructor
  · rw [hf.console_eq, hf.console_eq]
    exact hconsole.symm
  · rw [hf.console_eq]
    exact hanswer
  · rw [hf.answer_eq, hf.answer_eq]

/-- The next step does not depend on the timers and leaves them alone: it fails, the program waits
for a key, or the word at the counter moves no timer. -/
def StepIgnoresTimers (c : Console) : Prop :=
  let n := c.machine.nextWord
  c.machine.awaiting = true ∨ (∃ err, c.step.answer = .error err) ∨
    ¬ (isInstance "FX07" n = true ∨ isInstance "FX15" n = true ∨ isInstance "FX18" n = true)

/-- The next step does not depend on the key: it fails, or the program does not wait, and the word
at the counter is neither a wait for a key nor a skip by this one. -/
def StepIgnoresKey (c : Console) (k : Fin 16) : Prop :=
  let n := c.machine.nextWord
  (∃ err, c.step.answer = .error err) ∨
    c.machine.awaiting = false ∧ ¬ isInstance "FX0A" n = true ∧
      ¬ ((isInstance "EX9E" n = true ∨ isInstance "EXA1" n = true) ∧
        (c.machine.registers.get (Word.ofNat n).x).toNat % 16 = k)

lemma StepIgnoresTimers.commute (h : c.StepIgnoresTimers) : c.Commute .step .tick := by
  apply commute_step updates_tick Machine.keepsCourse_tick
  · intro _ _
    exact Machine.poll_tick c.machine
  · intro w i hw hr
    rcases h with ha | ⟨err, herr⟩ | hi
    · obtain ⟨_, ha', -⟩ := exists_runs_of_step hw
      rw [ha] at ha'
      cases ha'
    · rw [hw] at herr
      cases herr
    · simp (disch := decide) only [hr.nextWord_eq, Instruction.isInstance_encode, not_or] at hi
      exact Instruction.effect_tick hi.1 hi.2.1 hi.2.2 c.dialect c.machine.advance

lemma StepIgnoresKey.commute {k : Fin 16} (h : c.StepIgnoresKey k) {key : Host.Value}
    (hk : key.index? = some (k : Int)) (pressed : Host.Value) :
    c.Commute .step (.setKey key pressed) := by
  apply commute_step (updates_setKey hk pressed) (Machine.keepsCourse_press k pressed.truth)
  · intro hdone ha
    rcases h with ⟨err, herr⟩ | ⟨ha', -⟩
    · rw [hdone] at herr
      cases herr
    · rw [ha] at ha'
      cases ha'
  · intro w i hw hr
    rcases h with ⟨err, herr⟩ | ⟨-, hawait, hskip⟩
    · rw [hw] at herr
      cases herr
    · simp (disch := decide) only [hr.nextWord_eq, Instruction.isInstance_encode,
        Word.ofNat_toNat, not_and] at hawait hskip
      exact Instruction.effect_press (m := c.machine.advance) hawait hskip c.dialect pressed.truth

/-- A tick commutes with every step that ignores the timers, a key event with every step that
ignores its key, and both with each other. Events of different keys commute too. -/
theorem host_events_commute (c : Console) :
    (c.StepIgnoresTimers → c.Commute .step .tick) ∧
      (∀ (k : Fin 16) (key pressed : Host.Value), key.index? = some (k : Int) →
        c.StepIgnoresKey k → c.Commute .step (.setKey key pressed)) ∧
      (∀ key pressed, c.Commute .tick (.setKey key pressed)) ∧
      ∀ key key' pressed pressed', key.index? ≠ key'.index? →
        c.Commute (.setKey key pressed) (.setKey key' pressed') := by
  refine ⟨fun h => h.commute, fun k key pressed hk h => h.commute hk pressed, ?_, ?_⟩
  · intro key pressed
    rcases setKey_cases key pressed with ⟨k, hk⟩ | ⟨err, herr⟩
    · exact commute_of_updates updates_tick (updates_setKey hk pressed) rfl
    · exact commute_of_fails herr
  · intro key key' pressed pressed' hne
    rcases setKey_cases key pressed with ⟨k, hk⟩ | ⟨err, herr⟩
    · rcases setKey_cases key' pressed' with ⟨k', hk'⟩ | ⟨err, herr⟩
      · apply commute_of_updates (updates_setKey hk pressed) (updates_setKey hk' pressed')
        have hkeys : k ≠ k' := by
          rintro rfl
          exact hne (hk.trans hk'.symm)
        simp only [Machine.press, Keypad.set_comm hkeys]
      · exact commute_of_fails herr
    · exact (commute_of_fails herr).symm

/-- A program that is about to skip by key 7 sees neither a tick nor key 5. -/
theorem host_events_commute_of_skip :
    let c := (new .modern 0 {}).after [.start [0x61, 0x17, 0xE1, 0x9E], .step]
    c.Commute .step .tick ∧ c.Commute .step (.setKey (.integer 5) (.flag true)) ∧
      c.Commute .tick (.setKey (.integer 5) (.flag true)) ∧
      c.Commute (.setKey (.integer 5) (.flag true)) (.setKey (.integer 7) (.flag true)) := by
  intro c
  have htimers : c.StepIgnoresTimers := .inr (.inr (by decide +kernel))
  have hkey : c.StepIgnoresKey 5 := .inr (by decide +kernel)
  obtain ⟨htick, hsetKey, htickKey, hkeys⟩ := host_events_commute c
  exact ⟨htick htimers, hsetKey 5 _ _ rfl hkey, htickKey _ _, hkeys _ _ _ _ (by decide)⟩

end Console

end Chip8
