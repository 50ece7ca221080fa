import Chip8.Proofs.Console.Run
import Chip8.Proofs.Log.Calls
import Chip8.Proofs.Machine.Checks
import Chip8.Proofs.Machine.Dialects

/-!
# Settings of a console

A console keeps its dialect, its seed and its logger. What an event does in other settings is said
once, by `Outcome.InSettings`: the logger has no influence on answers and machines, and one with a
higher threshold prints the lines that it selects from those of a lower one. The dialect has an
influence only through the instructions that depend on it: two consoles with different dialects give
the same answers and have the same machines after every event, as long as they run no word on which
the dialects disagree (`Console.transcript_eq_of_runsAlike`).
-/

namespace Chip8

/-- The console with another dialect and another logger. -/
def Console.withSettings (c : Console) (d : Dialect) (logger : Log.Logger) : Console :=
  { c with dialect := d, logger := logger }

/-- The second outcome is the first one in other settings. The loggers may print different lines,
but one that has no lower threshold prints what it selects from those of the other. -/
structure Outcome.InSettings (d : Dialect) (logger : Log.Logger) (o o' : Outcome) : Prop where
  answer_eq : o'.answer = o.answer
  console_eq : o'.console = o.console.withSettings d logger
  lines_eq : o.console.logger.threshold.rank ≤ logger.threshold.rank →
    o'.lines = logger.select o.lines

namespace Console

variable {c c' : Console} {e : Event} {es : List Event} {d : Dialect}

/-- The answers of a run, each with the machine that the event leaves behind. -/
def transcript (c : Console) (es : List Event) : List (Except Host.Error Answer × Machine) :=
  (c.handleAll es).map fun outcome => (outcome.answer, outcome.console.machine)

@[simp] lemma transcript_nil (c : Console) : c.transcript [] = [] := rfl

@[simp] lemma transcript_cons (c : Console) (e : Event) (es : List Event) :
    c.transcript (e :: es) =
      ((c.handle e).answer, (c.handle e).console.machine) ::
        (c.handle e).console.transcript es := rfl

/-! ### Settings that stay -/

lemma Transition.settings_eq {answer : Except Host.Error Answer} (ht : c.Transition e answer c') :
    c'.dialect = c.dialect ∧ c'.seed = c.seed ∧ c'.logger = c.logger := by
  cases ht <;> exact ⟨rfl, rfl, rfl⟩

lemma settings_after (c : Console) (es : List Event) :
    (c.after es).dialect = c.dialect ∧ (c.after es).seed = c.seed ∧
      (c.after es).logger = c.logger := by
  refine after_induction (P := fun c' =>
    c'.dialect = c.dialect ∧ c'.seed = c.seed ∧ c'.logger = c.logger) ?_ es ⟨rfl, rfl, rfl⟩
  rintro c' e ⟨hd, hseed, hlogger⟩
  obtain ⟨hd', hseed', hlogger'⟩ := (transition_handle c' e).settings_eq
  exact ⟨hd'.trans hd, hseed'.trans hseed, hlogger'.trans hlogger⟩

/-! ### Other settings -/

/-- The event runs no word on which the two dialects disagree. -/
def RunsAlike (d d' : Dialect) (c : Console) (e : Event) : Prop :=
  ∀ w, (c.handle e).answer = .ok (.word w) → ¬ d.DisagreeOn d' w.toNat

instance (d d' : Dialect) (c : Console) (e : Event) : Decidable (c.RunsAlike d d' e) :=
  match h : (c.handle e).answer with
  | .ok (.word w) =>
    decidable_of_iff (¬ d.DisagreeOn d' w.toNat)
      ⟨fun hd w' hw => by cases h.symm.trans hw; exact hd, fun hc => hc w h⟩
  | .ok .done | .ok (.byte _) | .error _ => isTrue fun w hw => by cases h.symm.trans hw

lemma runsAlike_self (d : Dialect) (c : Console) (e : Event) : c.RunsAlike d d e :=
  fun w _ => d.not_disagreeOn_self w.toNat

/-! ### Places that print -/

/-- The call about an instruction asks again whether its label is enabled. -/
lemma traceLines_eq (l : Log.Logger) (address word : UInt16) :
    traceLines l address word = l.debug (traceText address word) := by
  unfold traceLines
  split
  next => rfl
  next h => exact (if_neg h).symm

section Places

variable {l l' : Log.Logger} (h : l.threshold.rank ≤ l'.threshold.rank)
include h

lemma select_faultLines (m : Machine) (f : Fault) :
    l'.select (faultLines l m f) = faultLines l' m f := by
  rw [faultLines, Log.Logger.select_append, Log.Logger.select_logAll h]
  exact congrArg (· ++ _) (Log.Logger.select_log h _ _)

lemma select_traceLines (address word : UInt16) :
    l'.select (traceLines l address word) = traceLines l' address word := by
  rw [traceLines_eq, traceLines_eq]
  exact Log.Logger.select_log h _ _

lemma select_waitLines (i : Instruction) (after : Machine) :
    l'.select (waitLines l i after) = waitLines l' i after := by
  unfold waitLines
  split
  · split
    · exact Log.Logger.select_log h _ _
    · rfl
  · rfl

lemma select_resumeLines (before after : Machine) :
    l'.select (resumeLines l before after) = resumeLines l' before after := by
  unfold resumeLines
  split
  · rfl
  · exact Log.Logger.select_log h _ _

end Places

/-! ### Events -/

lemma start_inSettings (c : Console) (d : Dialect) (logger : Log.Logger) (image : List UInt8) :
    (c.start image).InSettings d logger ((c.withSettings d logger).start image) := by
  unfold start
  dsimp only [withSettings]
  split
  · exact ⟨rfl, rfl, fun h => (Log.Logger.select_log h _ _).symm⟩
  · exact ⟨rfl, rfl, fun h => (Log.Logger.select_log h _ _).symm⟩

lemma reset_inSettings (c : Console) (d : Dialect) (logger : Log.Logger) :
    c.reset.InSettings d logger (c.withSettings d logger).reset := by
  unfold reset
  have himage : (c.withSettings d logger).image = c.image := rfl
  rw [himage]
  split
  · exact ⟨rfl, rfl, fun _ => rfl⟩
  next image _ =>
    obtain ⟨hanswer, hconsole, hlines⟩ := start_inSettings c d logger image
    have hlogger : (c.start image).console.logger = c.logger :=
      (transition_start (.start (c := c))).settings_eq.2.2
    dsimp only
    rw [hanswer]
    split
    · exact ⟨hanswer, hconsole, hlines⟩
    · refine ⟨rfl, hconsole, fun h => ?_⟩
      rw [hlogger] at h
      rw [Log.Logger.select_append, ← hlines (hlogger.symm ▸ h)]
      exact congrArg (_ ++ ·) (Log.Logger.select_log h _ _).symm

/-- A step reads the dialect only for an instruction that it runs. -/
lemma step_inSettings (h : c.RunsAlike c.dialect d .step) (logger : Log.Logger) :
    c.step.InSettings d logger (c.withSettings d logger).step := by
  cases hi : c.image with
  | none =>
    have hi' : (c.withSettings d logger).image = none := hi
    simp only [step, hi, hi']
    exact ⟨rfl, rfl, fun _ => rfl⟩
  | some image =>
    have hi' : (c.withSettings d logger).image = some image := hi
    have hm : (c.withSettings d logger).machine = c.machine := rfl
    cases ha : c.machine.awaiting with
    | true =>
      simp only [step, hi, hi', hm, ha, if_true]
      exact ⟨rfl, rfl, fun h => (select_resumeLines h _ _).symm⟩
    | false =>
      have hsome : c.image.isSome := Option.isSome_of_eq_some hi
      have hsome' : (c.withSettings d logger).image.isSome := hsome
      have hs : c.machine.step d = c.machine.step c.dialect :=
        Machine.step_congr fun s hs => h s.word (step_of_not_awaiting hsome ha hs).1
      have hd : (c.withSettings d logger).machine.step (c.withSettings d logger).dialect =
          c.machine.step c.dialect := hs
      cases hstep : c.machine.step c.dialect with
      | error f =>
        rw [step_eq_fail hsome ha hstep, step_eq_fail hsome' ha (hd.trans hstep)]
        exact ⟨rfl, rfl, fun h => (select_faultLines h _ f).symm⟩
      | ok s =>
        rw [step_eq_succeed hsome ha hstep, step_eq_succeed hsome' ha (hd.trans hstep)]
        have hlines (h : c.logger.threshold.rank ≤ logger.threshold.rank) :
            logger.select (traceLines c.logger c.machine.pc s.word ++
              waitLines c.logger s.instruction s.machine) =
            traceLines logger c.machine.pc s.word ++ waitLines logger s.instruction s.machine := by
          rw [Log.Logger.select_append, select_traceLines h, select_waitLines h]
        exact ⟨rfl, rfl, fun h => (hlines h).symm⟩

/-- The dialect and the logger have no part in what an event does, unless the event runs a word on
which the dialects disagree. -/
theorem handle_inSettings (h : c.RunsAlike c.dialect d e) (logger : Log.Logger) :
    (c.handle e).InSettings d logger ((c.withSettings d logger).handle e) := by
  cases e with
  | start image => exact start_inSettings c d logger image
  | startValue v =>
    simp only [handle, startValue]
    split
    · exact ⟨rfl, rfl, fun _ => rfl⟩
    · exact start_inSettings c d logger _
  | reset => exact reset_inSettings c d logger
  | step => exact step_inSettings h logger
  | tick => exact ⟨rfl, rfl, fun _ => rfl⟩
  | setKey key pressed =>
    simp only [handle, setKey]
    split
    · exact ⟨rfl, rfl, fun _ => rfl⟩
    · split <;> exact ⟨rfl, rfl, fun _ => rfl⟩
  | readByte a =>
    simp only [handle, readByte]
    split <;> exact ⟨rfl, rfl, fun _ => rfl⟩
  | writeByte a v =>
    simp only [handle, writeByte]
    split
    · exact ⟨rfl, rfl, fun _ => rfl⟩
    · split <;> exact ⟨rfl, rfl, fun _ => rfl⟩

/-! ### Runs -/

/-- A run in other settings that runs no word on which the dialects disagree. -/
lemma run_withSettings (h : c.Along (RunsAlike c.dialect d) es) (logger : Log.Logger) :
    (c.withSettings d logger).transcript es = c.transcript es ∧
      (c.withSettings d logger).after es = (c.after es).withSettings d logger := by
  induction es generalizing c with
  | nil => exact ⟨rfl, rfl⟩
  | cons e es ih =>
    obtain ⟨he, hes⟩ := along_cons.mp h
    have hd : (c.handle e).console.dialect = c.dialect :=
      (transition_handle c e).settings_eq.1
    obtain ⟨hanswer, hconsole, -⟩ := handle_inSettings he logger
    rw [← hd] at hes
    obtain ⟨htranscript, hafter⟩ := ih hes
    rw [transcript_cons, transcript_cons, after_cons, after_cons, hanswer, hconsole]
    exact ⟨congrArg _ htranscript, hafter⟩

/-- The logger has no part in a run. -/
lemma transcript_withLogger (c : Console) (logger : Log.Logger) (es : List Event) :
    (c.withSettings c.dialect logger).transcript es = c.transcript es := by
  have h : c.Along (RunsAlike c.dialect c.dialect) es :=
    along_of_forall (runsAlike_self c.dialect) c es
  exact (run_withSettings h logger).1

/-- Two consoles with the same seed handle the same events, and the first one runs no word on which
their dialects disagree. Then they give the same answers, and both have the same machine and the
same image after every event. -/
theorem transcript_eq_of_runsAlike (d d' : Dialect) (seed : Int64) (logger logger' : Log.Logger)
    (es : List Event) (h : (new d seed logger).Along (RunsAlike d d') es) :
    (new d' seed logger').transcript es = (new d seed logger).transcript es ∧
      (new d' seed logger').after es = ((new d seed logger).after es).withSettings d' logger' :=
  run_withSettings (c := new d seed logger) h logger'

/-- A shift of V0 by itself, a jump with offset from the first page and a store that fails: the
switches that the two dialects have in different positions do not matter for any of these. -/
theorem transcript_eq_of_runsAlike_of_program :
    let d : Dialect := { jumpReadsVX := true }
    let es : List Event :=
      [.start [0x60, 0x03, 0x80, 0x06, 0xAF, 0xFF, 0xB0, 0xFF], .step, .step, .step, .step,
        .writeByte 0x100 0xF1, .writeByte 0x101 0x55, .step, .tick]
    ((new d 0 {}).after es).machine.pc = 0x100 ∧
      (new .legacy 0 {}).transcript es = (new d 0 {}).transcript es ∧
      (new .legacy 0 {}).after es = ((new d 0 {}).after es).withSettings .legacy {} := by
  intro d es
  have hpc : ((new d 0 {}).after es).machine.pc = 0x100 := by decide +kernel
  have h : (new d 0 {}).Along (RunsAlike d .legacy) es := by decide +kernel
  exact ⟨hpc, transcript_eq_of_runsAlike d .legacy 0 {} {} es h⟩

end Console

end Chip8
