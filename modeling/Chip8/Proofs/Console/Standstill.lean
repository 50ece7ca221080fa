import Chip8.Proofs.Console.Commutation

/-!
# Machines that stand still

Once a step has failed, every later step fails by the same fault, and the machine stands still: of
all its parts only the timers and the keys move, and these are moved by the host. What the checks
find is decided by the rest. So a faulting machine waits for the host to write to memory or to start
a program (`Console.fault_is_stable`).
-/

namespace Chip8

namespace Machine

variable {m n k : Machine}

/-- The machines differ at most in the timers and the keys. -/
def SameButHost (m n : Machine) : Prop :=
  n = { m with delay := n.delay, sound := n.sound, keypad := n.keypad }

namespace SameButHost

protected lemma refl (m : Machine) : m.SameButHost m := rfl

protected lemma trans (h : m.SameButHost n) (h' : n.SameButHost k) : m.SameButHost k := by
  refine Eq.trans h' ?_
  rw [h]

end SameButHost

end Machine

/-- The event writes to memory or starts a program if it succeeds. -/
def Event.isIntervention : Event → Bool
  | .writeByte _ _ => true
  | e => e.isStart

lemma Event.isIntervention_of_isStart {e : Event} (h : e.isStart = true) :
    e.isIntervention = true := by
  cases e with
  | start | startValue | reset => rfl
  | _ => cases h

namespace Console

variable {c c' : Console} {e : Event} {es : List Event} {f : Fault}

/-- The event neither writes to memory nor starts a program, be it that it is of another kind or
that it fails. -/
def KeepsFault (c : Console) (e : Event) : Prop :=
  e.isIntervention = true → (c.handle e).succeeds = false

instance (c : Console) (e : Event) : Decidable (c.KeepsFault e) :=
  inferInstanceAs (Decidable (_ → _))

/-- An update that the checks do not see does not get a machine past its fault. -/
lemma step_update_of_fault (h : c.step.answer = .error (.fault f)) {u : Machine → Machine}
    (hu : Machine.KeepsCourse u) :
    ({ c with machine := u c.machine } : Console).step.answer = .error (.fault f) := by
  refine (step_update hu (fun hdone => ?_) (fun w i hw => ?_)).1.trans h
  · rw [h] at hdone
    cases hdone
  · rw [h] at hw
    cases hw

/-- One event does not get a machine past its fault, nor does it move anything but timers and
keys. -/
lemma KeepsFault.handle (he : c.KeepsFault e) (h : c.step.answer = .error (.fault f)) :
    (c.handle e).console.step.answer = .error (.fault f) ∧
      c.machine.SameButHost (c.handle e).console.machine := by
  have ht := transition_handle c e
  have hstep : e = .step → (c.handle e).answer = .error (.fault f) := by
    rintro rfl
    exact h
  have hfails : e.isIntervention = true → (c.handle e).answer.isOk = false := he
  generalize (c.handle e).answer = answer, (c.handle e).console = c' at ht hstep hfails ⊢
  cases ht with
  | fail | readByte => exact ⟨h, .refl _⟩
  | start hs => cases hfails (Event.isIntervention_of_isStart hs.isStart)
  | writeByte => cases hfails rfl
  -- a step fails, so it is neither the look for a key nor an instruction
  | poll | step => cases hstep rfl
  | tick => exact ⟨step_update_of_fault h Machine.keepsCourse_tick, rfl⟩
  | setKey pressed =>
    exact ⟨step_update_of_fault h (Machine.keepsCourse_press _ pressed.truth), rfl⟩

lemma fault_after (hes : c.Along KeepsFault es) (h : c.step.answer = .error (.fault f)) :
    (c.after es).step.answer = .error (.fault f) ∧
      c.machine.SameButHost (c.after es).machine := by
  induction es generalizing c with
  | nil => exact ⟨h, .refl _⟩
  | cons e es ih =>
    obtain ⟨he, hes⟩ := along_cons.mp hes
    obtain ⟨hnext, hsame⟩ := he.handle h
    obtain ⟨hlast, hsame'⟩ := ih hes hnext
    exact ⟨hlast, hsame.trans hsame'⟩

/-- On a console whose step fails, any events that do not write to memory or start a program leave
it so: throughout them a step fails by the same fault, and nothing but the timers and the keys
moves. After a run that gets the machine past the fault, one of its events has been a write or a
start that succeeded. -/
theorem fault_is_stable (h : c.step.answer = .error (.fault f)) (es : List Event) :
    (c.Along KeepsFault es → ∀ before rest, es = before ++ rest →
      (c.after before).step.answer = .error (.fault f) ∧
        c.machine.SameButHost (c.after before).machine) ∧
      ((c.after es).step.answer ≠ .error (.fault f) →
        ∃ before e rest, es = before ++ e :: rest ∧ e.isIntervention = true ∧
          ((c.after before).handle e).succeeds = true) := by
  constructor
  · rintro hes before rest rfl
    exact fault_after (along_append.mp hes).1 h
  · intro hpast
    have hes : ¬ c.Along KeepsFault es := fun hes => hpast (fault_after hes h).1
    obtain ⟨before, e, rest, hsplit, he⟩ := exists_of_not_along hes
    rw [KeepsFault, Classical.not_imp, Bool.not_eq_false] at he
    exact ⟨before, e, rest, hsplit, he⟩

/-- A return without a call fails again and again, until the host overwrites it by an instruction
that clears the screen. -/
theorem fault_is_stable_of_underflow :
    let c := (new .modern 0 {}).after [.start [0x60, 0x05, 0x00, 0xEE], .step]
    let es : List Event :=
      [.step, .tick, .setKey (.integer 5) (.flag true), .setKey (.integer 16) (.flag true),
        .readByte 0x200, .start (.replicate 3585 0), .writeByte 0x1000 0, .step, .readByte 0x1000]
    (c.after es).step.answer = .error (.fault (.stackUnderflow 0x202)) ∧
      c.machine.SameButHost (c.after es).machine ∧
      ∃ before e rest, es ++ [.writeByte 0x203 0xE0] = before ++ e :: rest ∧
        e.isIntervention = true ∧ ((c.after before).handle e).succeeds = true := by
  intro c es
  obtain ⟨hfault, hes, hpast⟩ : c.step.answer = .error (.fault (.stackUnderflow 0x202)) ∧
      c.Along KeepsFault es ∧
      (c.after (es ++ [.writeByte 0x203 0xE0])).step.answer ≠
        .error (.fault (.stackUnderflow 0x202)) := by
    decide +kernel
  obtain ⟨hanswer, hsame⟩ := (fault_is_stable hfault es).1 hes es [] (List.append_nil es).symm
  exact ⟨hanswer, hsame, (fault_is_stable hfault _).2 hpast⟩

end Console

end Chip8
