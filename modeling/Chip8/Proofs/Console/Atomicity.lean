import Chip8.Proofs.Console.Run

/-!
# Failing events

An event that fails, for whatever reason, leaves the console as it was, and all later events go on
as if it had not been there (`Console.failure_leaves_no_trace`). So the failing events can be
struck out of a run: what remains ends in the same console and has the outcomes of the events that
succeed (`Console.after_successes`, `Console.handleAll_successes`).
-/

namespace Chip8

def Outcome.succeeds (o : Outcome) : Bool :=
  o.answer.isOk

lemma Outcome.exists_error {o : Outcome} (h : o.succeeds = false) :
    ∃ err, o.answer = .error err := by
  unfold succeeds at h
  cases ha : o.answer with
  | error err => exact ⟨err, rfl⟩
  | ok answer =>
    rw [ha] at h
    cases h

namespace Console

variable {c c' : Console} {e : Event} {err : Host.Error}

/-! ### One event -/

/-- No transition but a failure answers with an error. -/
lemma Transition.eq_of_error (ht : c.Transition e (.error err) c') : c' = c := by
  cases ht
  rfl

lemma console_handle_of_error (h : (c.handle e).answer = .error err) :
    (c.handle e).console = c := by
  have ht := transition_handle c e
  rw [h] at ht
  exact ht.eq_of_error

/-- An event that fails changes nothing, and whatever comes later goes on without it. -/
theorem failure_leaves_no_trace (h : (c.handle e).answer = .error err) :
    (c.handle e).console = c ∧ ∀ es, c.handleAll (e :: es) = c.handle e :: c.handleAll es := by
  have hc := console_handle_of_error h
  refine ⟨hc, fun es => ?_⟩
  rw [handleAll, hc]

/-- A return without a call, after the counter has already moved on to fetch it. -/
theorem failure_leaves_no_trace_of_underflow :
    let c := (new .modern 0 {}).after [.start [0x60, 0x05, 0x00, 0xEE], .step]
    (c.handle .step).console = c ∧
      c.handleAll [.step, .setKey (.integer 5) (.flag true), .step] =
        c.handle .step :: c.handleAll [.setKey (.integer 5) (.flag true), .step] := by
  intro c
  have h : (c.handle .step).answer = .error (.fault (.stackUnderflow 0x202)) := by decide +kernel
  obtain ⟨hc, hlater⟩ := failure_leaves_no_trace h
  exact ⟨hc, hlater _⟩

/-! ### Runs -/

/-- The events of a run that succeed when their turn comes. -/
def successes (c : Console) : List Event → List Event
  | [] => []
  | e :: es =>
    let later := (c.handle e).console.successes es
    if (c.handle e).succeeds then e :: later else later

lemma successes_cons_of_succeeds (h : (c.handle e).succeeds = true) (es : List Event) :
    c.successes (e :: es) = e :: (c.handle e).console.successes es := by
  rw [successes, if_pos h]

/-- A failing event leaves the console to the later ones as it was. -/
lemma successes_cons_of_fails (h : (c.handle e).succeeds = false) (es : List Event) :
    c.successes (e :: es) = c.successes es := by
  obtain ⟨err, herr⟩ := Outcome.exists_error h
  rw [successes, if_neg (by simp [h]), console_handle_of_error herr]

theorem handleAll_successes (c : Console) (es : List Event) :
    c.handleAll (c.successes es) = (c.handleAll es).filter Outcome.succeeds := by
  induction es generalizing c with
  | nil => rfl
  | cons e es ih =>
    cases h : (c.handle e).succeeds with
    | true =>
      rw [successes_cons_of_succeeds h, handleAll, handleAll, List.filter_cons_of_pos h, ih]
    | false =>
      obtain ⟨err, herr⟩ := Outcome.exists_error h
      rw [successes_cons_of_fails h, ih, handleAll, List.filter_cons_of_neg (by simp [h]),
        console_handle_of_error herr]

theorem after_successes (c : Console) (es : List Event) :
    c.after (c.successes es) = c.after es := by
  induction es generalizing c with
  | nil => rfl
  | cons e es ih =>
    cases h : (c.handle e).succeeds with
    | true =>
      rw [successes_cons_of_succeeds h, after_cons, after_cons]
      exact ih _
    | false =>
      obtain ⟨err, herr⟩ := Outcome.exists_error h
      have hc : (c.handle e).console = c := console_handle_of_error herr
      rw [successes_cons_of_fails h, ih, after_cons, hc]

end Console

end Chip8
