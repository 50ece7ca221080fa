import Chip8.Proofs.Console.Atomicity
import Chip8.Proofs.Console.Program
import Chip8.Proofs.Console.Settings

/-!
# What a start forgets

Whatever a console has been through, a program that the host loads runs as on a console that has
just been switched on, and a reset goes back to the machine right after the last load that
succeeded (`Console.load_forgets_history`).
-/

namespace Chip8

/-- The image that the host offers with an event. -/
def Event.image? : Event → Option (List UInt8)
  | .start image => some image
  | .startValue v => v.image.toOption
  | _ => none

/-- The machine right after the last load that succeeded, if it was `last` before an event that
gives this answer and leaves the machine `after` behind. -/
def Event.noteLoad (e : Event) (answer : Except Host.Error Answer) (after : Machine)
    (last : Option Machine) : Option Machine :=
  match e.image?, answer with
  | some _, .ok _ => some after
  | _, _ => last

namespace Console

variable {c c' : Console} {e : Event} {image : List UInt8}

/-- The machine right after the last load of a run that succeeded. -/
def lastLoaded (c : Console) (es : List Event) : Option Machine :=
  c.record (fun c e => e.noteLoad (c.handle e).answer (c.handle e).console.machine) none es

lemma starts_of_image? (h : e.image? = some image) (c : Console) : c.Starts image e := by
  cases e with
  | start image' =>
    obtain rfl := Option.some.inj h
    exact .start
  | startValue v =>
    apply Starts.startValue
    cases hv : v.image with
    | error err => simp [Event.image?, hv, Except.toOption] at h
    | ok image' => simpa [Event.image?, hv, Except.toOption] using h
  | _ => cases h

/-! ### Images that fit -/

lemma answer_start (h : image.length ≤ 3584) : (c.start image).answer = .ok .done := by
  rw [start, Machine.load_eq_ok_iff.mpr ⟨h, rfl⟩]
  rfl

lemma answer_reset (hi : c.image = some image) (h : image.length ≤ 3584) :
    c.reset.answer = .ok .done := by
  rw [reset, hi]
  simp only [answer_start h]

/-- An image that fits into memory starts. -/
lemma Starts.answer_eq (hs : c.Starts image e) (h : image.length ≤ 3584) :
    (c.handle e).answer = .ok .done := by
  cases hs with
  | start => exact answer_start h
  | startValue hv =>
    change (c.startValue _).answer = _
    rw [Console.startValue, hv]
    exact answer_start h
  | reset hi => exact answer_reset hi h

/-! ### The last load -/

/-- If there has been a load, the console has an image, and `last` is the machine on which this
image starts. -/
def Remembers (c : Console) (last : Option Machine) : Prop :=
  ∀ m, last = some m →
    ∃ image, c.image = some image ∧ image.length ≤ 3584 ∧ m = .started c.seed image

namespace Remembers

variable {last : Option Machine}

/-- An event that is no load keeps the image: it leaves the image alone or starts it again. -/
lemma of_image?_eq_none (h : c.Remembers last) (he : e.image? = none)
    {answer : Except Host.Error Answer} (ht : c.Transition e answer c') :
    c'.Remembers last := by
  intro m hm
  obtain ⟨image, hi, hlength, hm⟩ := h m hm
  cases ht with
  | start hs =>
    cases hs with
    | start => cases he
    | startValue hv => simp [Event.image?, hv, Except.toOption] at he
    | reset hi' => exact ⟨image, hi' ▸ hi, hlength, hm⟩
  | _ => exact ⟨image, hi, hlength, hm⟩

/-- A load that succeeds leaves its image and the machine on which this image starts. -/
lemma of_image?_eq_some (he : e.image? = some image) {answer : Answer}
    (ht : c.Transition e (.ok answer) c') : c'.Remembers (some c'.machine) := by
  intro m hm
  obtain rfl := Option.some.inj hm
  cases ht with
  | start _ hload =>
    obtain ⟨hlength, rfl⟩ := Machine.load_eq_ok_iff.mp hload
    exact ⟨_, rfl, hlength, rfl⟩
  | poll | step | tick | setKey | readByte | writeByte => cases he

lemma of_transition (h : c.Remembers last) {answer : Except Host.Error Answer}
    (ht : c.Transition e answer c') : c'.Remembers (e.noteLoad answer c'.machine last) := by
  unfold Event.noteLoad
  cases he : e.image? with
  | none => exact h.of_image?_eq_none he ht
  | some image =>
    cases answer with
    | error err => exact ht.eq_of_error ▸ h
    | ok answer => exact of_image?_eq_some he ht

end Remembers

lemma remembers_lastLoaded (d : Dialect) (seed : Int64) (logger : Log.Logger) (es : List Event) :
    ((new d seed logger).after es).Remembers ((new d seed logger).lastLoaded es) :=
  record_induction (fun c e _ h => h.of_transition (transition_handle c e)) es nofun

/-- After any events, a load of an image that fits into memory succeeds and leaves the console as
if it had just been switched on, and so the same goes for all later answers and machines. A reset
goes back to the machine right after the last load that succeeded. -/
theorem load_forgets_history (d : Dialect) (seed : Int64) (logger logger' : Log.Logger)
    (history : List Event) :
    (∀ load load' image, load.image? = some image → load'.image? = some image →
      image.length ≤ 3584 →
        let used := ((new d seed logger).after history).handle load
        let unused := (new d seed logger').handle load'
        used.answer = .ok .done ∧ unused.answer = .ok .done ∧
          used.console = unused.console.withSettings d logger ∧
          ∀ es, used.console.transcript es = unused.console.transcript es) ∧
      ∀ m, (new d seed logger).lastLoaded history = some m →
        let reset := ((new d seed logger).after history).reset
        reset.answer = .ok .done ∧ reset.console.machine = m := by
  obtain ⟨hd, hseed, hlogger⟩ := settings_after (new d seed logger) history
  constructor
  · intro load load' image hload hload' hlength used unused
    have hs := starts_of_image? hload ((new d seed logger).after history)
    have hs' := starts_of_image? hload' (new d seed logger')
    have hok : used.answer = .ok .done := hs.answer_eq hlength
    have hok' : unused.answer = .ok .done := hs'.answer_eq hlength
    have hconsole : used.console = unused.console.withSettings d logger := by
      simp only [used, unused, hs.console_eq hok, hs'.console_eq hok', hd, hseed, hlogger]
      rfl
    have hdialect : unused.console.dialect = d := (transition_handle _ load').settings_eq.1
    refine ⟨hok, hok', hconsole, fun es => ?_⟩
    rw [hconsole, ← hdialect]
    exact transcript_withLogger _ logger es
  · intro m hm
    obtain ⟨image, hi, hlength, rfl⟩ := remembers_lastLoaded d seed logger history m hm
    have hs : Starts _ image .reset := .reset hi
    have hok := hs.answer_eq hlength
    exact ⟨hok, congrArg Console.machine (hs.console_eq hok)⟩

/-- A key that is held during a wait, an overwritten program and an image that does not fit have no
part in what comes after a load, and none in what a reset goes back to. -/
theorem load_forgets_history_of_failed_load :
    let history : List Event :=
      [.start [0xF0, 0x0A, 0x12, 0x00], .step, .setKey (.integer 3) (.flag true),
        .writeByte 0x200 0xFF, .start (.replicate 3585 0), .tick]
    let load : Event := .startValue (.sequence [.integer 0xF1, .integer 0x0A])
    let load' : Event := .start [0xF1, 0x0A]
    (((new .modern 7 {}).after history).handle load).console.transcript [.step, .step] =
        ((new .modern 7 {}).handle load').console.transcript [.step, .step] ∧
      ((new .modern 7 {}).after history).reset.answer = .ok .done ∧
      (new .modern 7 {}).lastLoaded history =
        some ((new .modern 7 {}).after history).reset.console.machine := by
  intro history load load'
  have hloaded : ((new .modern 7 {}).lastLoaded history).isSome := by decide +kernel
  obtain ⟨m, hm⟩ := Option.isSome_iff_exists.mp hloaded
  obtain ⟨hforgets, hreset⟩ := load_forgets_history .modern 7 {} {} history
  obtain ⟨-, -, -, htranscript⟩ := hforgets load load' [0xF1, 0x0A] rfl rfl (by decide)
  obtain ⟨hok, hmachine⟩ := hreset m hm
  exact ⟨htranscript [.step, .step], hok, hm.trans (congrArg some hmachine.symm)⟩

end Console

end Chip8
