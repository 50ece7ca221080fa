import Chip8.Proofs.Console.Run

/-!
# Runs of one program

A program begins when an event starts its image, and it goes on until another start succeeds. It
begins on a machine that its image and the seed of the console determine
(`Console.Starts.console_eq`), and all the while its image is remembered
(`Console.image_after`).
-/

namespace Chip8

/-- The machine on which an image begins to run. -/
def Machine.started (seed : Int64) (image : List UInt8) : Machine :=
  { fresh seed with memory := (fresh seed).memory.writeAll Memory.programStart image }

namespace Console

variable {c c' : Console} {e : Event} {es : List Event} {image : List UInt8} {answer : Answer}

/-- The event starts no program, be it that it is no start or that it fails. -/
def KeepsProgram (c : Console) (e : Event) : Prop :=
  e.isStart → ∃ err, (c.handle e).answer = .error err

lemma Starts.eq {image' : List UInt8} (h : c.Starts image e) (h' : c.Starts image' e) :
    image = image' := by
  cases h with
  | start =>
    cases h'
    rfl
  | startValue hv =>
    cases h' with
    | startValue hv' => exact Except.ok.inj (hv.symm.trans hv')
  | reset hi =>
    cases h' with
    | reset hi' => exact Option.some.inj (hi.symm.trans hi')

lemma Transition.of_starts (ht : c.Transition e (.ok answer) c') (h : c.Starts image e) :
    c' = { c with image := some image, machine := .started c.seed image } := by
  cases ht with
  | start h' hm =>
    obtain rfl := h.eq h'
    obtain ⟨-, rfl⟩ := Machine.load_eq_ok_iff.mp hm
    rfl
  | poll | step | tick | setKey | readByte | writeByte => cases h

/-- After a successful start the machine is fresh but for the image in its memory. -/
theorem Starts.console_eq (h : c.Starts image e) (hok : (c.handle e).answer = .ok answer) :
    (c.handle e).console = { c with image := some image, machine := .started c.seed image } := by
  have ht := transition_handle c e
  rw [hok] at ht
  exact ht.of_starts h

lemma Transition.image_eq {answer : Except Host.Error Answer} (ht : c.Transition e answer c')
    (h : e.isStart → ∃ err, answer = .error err) : c'.image = c.image := by
  cases ht with
  | start hs =>
    obtain ⟨err, herr⟩ := h hs.isStart
    cases herr
  | _ => rfl

lemma image_after (hes : c.Along KeepsProgram es) : (c.after es).image = c.image := by
  induction es generalizing c with
  | nil => rfl
  | cons e es ih =>
    obtain ⟨he, hes⟩ := along_cons.mp hes
    rw [after_cons, ih hes]
    exact (transition_handle c e).image_eq he

end Console

end Chip8
