import Chip8.Proofs.Console.Atomicity
import Chip8.Proofs.Console.Log
import Chip8.Proofs.Machine.Checks
import Chip8.Proofs.Machine.Frame

/-!
# The register that a wait leaves behind

When a wait for a key is over, the machine keeps the number of the register that has received the
key. Outside of a wait nothing reads this number, and the next wait begins by setting it, so a host
cannot tell two consoles apart that differ in nothing else
(`Console.stale_keyRegister_unobservable`).
-/

namespace Chip8

/-! ### Machines -/

namespace Machine

variable {d : Dialect} {m n : Machine}

/-- The machine with another number of the register that receives the key of a wait. -/
def withKeyRegister (m : Machine) (r : UInt8) : Machine :=
  { m with keyRegister := r }

/-- The machines differ at most in the register that receives the key of a wait. -/
def SameButKeyRegister (m n : Machine) : Prop :=
  n = m.withKeyRegister n.keyRegister

/-- A machine that does not wait is reported without the register. -/
lemma report_withKeyRegister (ha : m.awaiting = false) (r : UInt8) :
    (m.withKeyRegister r).report = m.report := by
  have ha' : (m.withKeyRegister r).awaiting = false := ha
  rw [report, report, ha, ha']
  rfl

lemma sameChecks_withKeyRegister (m : Machine) (r : UInt8) :
    m.SameChecks (m.withKeyRegister r) :=
  ⟨rfl, rfl, fun _ _ => rfl⟩

/-- The register stays as it is, unless the instruction begins a wait and sets it. -/
theorem effect_withKeyRegister (ha : m.awaiting = false) (i : Instruction) (d : Dialect)
    (r : UInt8) :
    i.effect d (m.withKeyRegister r) =
      bif (i.effect d m).awaiting then i.effect d m else (i.effect d m).withKeyRegister r := by
  rw [Instruction.awaiting_effect, ha]
  cases i with
  | awaitKey x =>
    have hkeypad : (m.withKeyRegister r).keypad = m.keypad := rfl
    simp only [Instruction.effect, awaitKey, hkeypad]
    cases m.keypad.lowest? <;> rfl
  | _ =>
    simp only [Instruction.effect, skipIf_eq, moveIndex_eq]
    rfl

lemma step_withKeyRegister_of_ok (ha : m.awaiting = false) (r : UInt8) {s : Step}
    (hs : m.step d = .ok s) :
    (m.withKeyRegister r).step d = .ok { s with
      machine := bif s.machine.awaiting then s.machine else s.machine.withKeyRegister r } := by
  have hmachine : s.machine = s.instruction.effect d m.advance :=
    congrArg Step.machine (step_eq_ok_iff.mp hs).2
  have heffect := effect_withKeyRegister (m := m.advance) ha s.instruction d r
  rw [← hmachine] at heffect
  rw [(sameChecks_withKeyRegister m r).step_eq_ok hs, ← heffect]
  rfl

/-- What a host can look up in a machine. The program's memory, the free slots of the stack, the
random pair and the register that receives the key of a wait are not shown. -/
structure View where
  registers : Registers
  index : UInt16
  pc : UInt16
  delay : UInt8
  sound : UInt8
  soundActive : Bool
  stack : List UInt16
  awaiting : Bool
  keypad : Keypad
  display : Display

def view (m : Machine) : View where
  registers := m.registers
  index := m.index
  pc := m.pc
  delay := m.delay
  sound := m.sound
  soundActive := m.soundActive
  stack := m.stack.visible
  awaiting := m.awaiting
  keypad := m.keypad
  display := m.display

end Machine

/-! ### Events -/

def Console.withKeyRegister (c : Console) (r : UInt8) : Console :=
  { c with machine := c.machine.withKeyRegister r }

def Outcome.withKeyRegister (o : Outcome) (r : UInt8) : Outcome :=
  { o with console := o.console.withKeyRegister r }

/-- What a host sees of an event: the answer, the lines that are printed, and all that it can look
up in the machine afterwards. -/
structure Observation where
  answer : Except Host.Error Answer
  lines : List Log.Line
  view : Machine.View

def Outcome.observation (o : Outcome) : Observation where
  answer := o.answer
  lines := o.lines
  view := o.console.machine.view

namespace Console

variable {c c' : Console} {e : Event} {es : List Event}

/-- The event sets the register that receives the key of a wait: it starts a program, or a wait
begins with it. -/
def setsKeyRegister (c : Console) (e : Event) : Bool :=
  if e.isStart then (c.handle e).succeeds
  else !c.machine.awaiting && (c.handle e).console.machine.awaiting

lemma setsKeyRegister_step (ha : c.machine.awaiting = false) :
    c.setsKeyRegister .step = c.step.console.machine.awaiting := by
  have h : c.setsKeyRegister .step =
    (!c.machine.awaiting && c.step.console.machine.awaiting) := rfl
  rw [h, ha, Bool.not_false, Bool.true_and]

/-- An event that neither starts a program nor lets a wait begin leaves a machine that does not
wait. -/
lemma awaiting_handle (ha : c.machine.awaiting = false) (he : c.setsKeyRegister e = false) :
    (c.handle e).console.machine.awaiting = false := by
  unfold setsKeyRegister at he
  split at he
  next =>
    obtain ⟨err, herr⟩ := Outcome.exists_error he
    rw [console_handle_of_error herr, ha]
  next =>
    rw [ha] at he
    exact he

lemma start_withKeyRegister (c : Console) (r : UInt8) (image : List UInt8) :
    (c.withKeyRegister r).start image =
      bif (c.start image).succeeds then c.start image else (c.start image).withKeyRegister r := by
  have hseed : (c.withKeyRegister r).seed = c.seed := rfl
  simp only [start, hseed]
  cases (Machine.fresh c.seed).load image <;> rfl

lemma reset_withKeyRegister (c : Console) (r : UInt8) :
    (c.withKeyRegister r).reset =
      bif c.reset.succeeds then c.reset else c.reset.withKeyRegister r := by
  have himage : (c.withKeyRegister r).image = c.image := rfl
  have hseed : (c.withKeyRegister r).seed = c.seed := rfl
  simp only [reset, start, himage, hseed]
  cases c.image with
  | none => rfl
  | some image =>
    dsimp only
    cases (Machine.fresh c.seed).load image <;> rfl

/-- A step that begins a wait sets the register, and any other step hands it on. -/
lemma step_withKeyRegister (ha : c.machine.awaiting = false) (r : UInt8) :
    (c.withKeyRegister r).step =
      bif c.step.console.machine.awaiting then c.step else c.step.withKeyRegister r := by
  cases hi : c.image with
  | none =>
    have hi' : (c.withKeyRegister r).image = none := hi
    simp only [step, hi, hi', refuse, ha, cond_false]
    rfl
  | some image =>
    have hi : c.image.isSome := Option.isSome_of_eq_some hi
    have hi' : (c.withKeyRegister r).image.isSome := hi
    have ha' : (c.withKeyRegister r).machine.awaiting = false := ha
    cases hs : c.machine.step c.dialect with
    | error f =>
      have hs' : (c.withKeyRegister r).machine.step c.dialect = .error f :=
        (Machine.sameChecks_withKeyRegister c.machine r).step_eq_error hs
      have hlines : faultLines c.logger (c.withKeyRegister r).machine f =
          faultLines c.logger c.machine f :=
        congrArg (fun report => c.logger.error f.message ++ c.logger.logAll "ERROR" report)
          (Machine.report_withKeyRegister ha r)
      have hlogger : (c.withKeyRegister r).logger = c.logger := rfl
      rw [step_eq_fail hi' ha' hs', step_eq_fail hi ha hs, hlogger, hlines, fail, fail, ha]
      rfl
    | ok s =>
      have hs' := Machine.step_withKeyRegister_of_ok ha r hs
      rw [step_eq_succeed hi' ha' hs', step_eq_succeed hi ha hs, succeed, succeed]
      dsimp only
      cases s.machine.awaiting <;> rfl

/-- No other events but starts and steps can set the register. -/
lemma setsKeyRegister_eq_false (he : e.isStart = false) (hs : e ≠ .step) :
    c.setsKeyRegister e = false := by
  have ht := transition_handle c e
  rw [setsKeyRegister, he]
  generalize (c.handle e).answer = answer, (c.handle e).console = c' at ht ⊢
  cases ht with
  | start hstart =>
    rw [hstart.isStart] at he
    cases he
  | poll | step => exact absurd rfl hs
  | _ => exact Bool.not_and_self _

/-- All other events hand the register on. -/
lemma handle_withKeyRegister_of_host (he : e.isStart = false) (hs : e ≠ .step) (r : UInt8) :
    (c.withKeyRegister r).handle e =
      bif c.setsKeyRegister e then c.handle e else (c.handle e).withKeyRegister r := by
  rw [setsKeyRegister_eq_false he hs, cond_false]
  cases e with
  | start | startValue | reset => cases he
  | step => exact absurd rfl hs
  | tick => rfl
  | setKey key pressed =>
    simp only [handle, setKey]
    split
    · rfl
    · split <;> rfl
  | readByte a =>
    simp only [handle, readByte]
    split <;> rfl
  | writeByte a v =>
    simp only [handle, writeByte]
    split
    · rfl
    · split <;> rfl

/-- Where the second console has `r` as its register, the events that set the register have the
same outcome on both, and all others have outcomes that differ in nothing but `r`. -/
theorem handle_withKeyRegister (ha : c.machine.awaiting = false) (r : UInt8) (e : Event) :
    (c.withKeyRegister r).handle e =
      bif c.setsKeyRegister e then c.handle e else (c.handle e).withKeyRegister r := by
  cases e with
  | start image => exact start_withKeyRegister c r image
  | startValue v =>
    have hsets : c.setsKeyRegister (.startValue v) = (c.startValue v).succeeds := rfl
    simp only [hsets, handle, startValue]
    cases v.image with
    | error m => rfl
    | ok image => exact start_withKeyRegister c r image
  | reset => exact reset_withKeyRegister c r
  | step =>
    rw [setsKeyRegister_step ha]
    exact step_withKeyRegister ha r
  | tick | setKey | readByte | writeByte =>
    refine handle_withKeyRegister_of_host rfl (fun h => ?_) r
    cases h

lemma setsKeyRegister_withKeyRegister (ha : c.machine.awaiting = false) (r : UInt8) (e : Event) :
    (c.withKeyRegister r).setsKeyRegister e = c.setsKeyRegister e := by
  have ha' : (c.withKeyRegister r).machine.awaiting = c.machine.awaiting := rfl
  rw [setsKeyRegister, handle_withKeyRegister ha r e, ha']
  cases hsets : c.setsKeyRegister e <;> exact hsets

lemma setsKeyRegister_withLogger (c : Console) (logger : Log.Logger) (e : Event) :
    (c.withSettings c.dialect logger).setsKeyRegister e = c.setsKeyRegister e := by
  obtain ⟨hanswer, hconsole, -⟩ := handle_inSettings (runsAlike_self c.dialect c e) logger
  rw [setsKeyRegister, Outcome.succeeds, hanswer, hconsole]
  rfl

/-! ### Runs -/

/-- What a host sees of a run, event by event. -/
def observations (c : Console) (es : List Event) : List Observation :=
  (c.handleAll es).map Outcome.observation

@[simp] lemma observations_nil (c : Console) : c.observations [] = [] := rfl

@[simp] lemma observations_cons (c : Console) (e : Event) (es : List Event) :
    c.observations (e :: es) =
      ⟨(c.handle e).answer, (c.handle e).lines, (c.handle e).console.machine.view⟩ ::
        (c.handle e).console.observations es := rfl

lemma log_eq_map_observations (c : Console) (es : List Event) :
    c.log es = (c.observations es).map Observation.lines := by
  rw [log, observations, List.map_map]
  rfl

/-- The text of a run is determined by what a host sees and by the logger. -/
lemma texts_congr (hl : c'.logger = c.logger) (h : c'.observations es = c.observations es)
    (now : Float) : c'.texts now es = c.texts now es := by
  rw [texts_eq, texts_eq, log_eq_map_observations, log_eq_map_observations, h, hl]

lemma observations_withKeyRegister (ha : c.machine.awaiting = false) (r : UInt8) (es : List Event) :
    (c.withKeyRegister r).observations es = c.observations es := by
  induction es generalizing c with
  | nil => rfl
  | cons e es ih =>
    rw [observations_cons, observations_cons, handle_withKeyRegister ha r e]
    -- An event that sets the register leaves nothing to compare behind.
    cases hsets : c.setsKeyRegister e with
    | true => rfl
    | false => exact congrArg _ (ih (awaiting_handle ha hsets))

/-- Of a logger, only the threshold has a part in what a host sees. -/
lemma observations_withLogger {logger : Log.Logger} (h : logger.threshold = c.logger.threshold)
    (es : List Event) : (c.withSettings c.dialect logger).observations es = c.observations es := by
  induction es generalizing c with
  | nil => rfl
  | cons e es ih =>
    have hd : (c.handle e).console.dialect = c.dialect :=
      (transition_handle c e).settings_eq.1
    have hlines : ((c.withSettings c.dialect logger).handle e).lines = (c.handle e).lines := by
      rw [lines_handle_withSettings logger (Nat.le_of_eq (by rw [h])), Log.Logger.select_congr h,
        select_lines_handle]
    obtain ⟨hanswer, hconsole, -⟩ := handle_inSettings (runsAlike_self c.dialect c e) logger
    have hlater := ih (c := (c.handle e).console) (by rwa [logger_handle])
    rw [hd] at hlater
    rw [observations_cons, observations_cons, hanswer, hlines, hconsole, hlater]
    rfl

/-- After the run the consoles are the same, or the machine does not wait and the second console
still has `r` as its register. -/
lemma after_withKeyRegister (ha : c.machine.awaiting = false) (r : UInt8) (es : List Event) :
    (c.withKeyRegister r).after es = c.after es ∨
      (c.after es).machine.awaiting = false ∧
        (c.withKeyRegister r).after es = (c.after es).withKeyRegister r := by
  induction es generalizing c with
  | nil => exact .inr ⟨ha, rfl⟩
  | cons e es ih =>
    rw [after_cons, after_cons, handle_withKeyRegister ha r e]
    cases hsets : c.setsKeyRegister e with
    | true => exact .inl rfl
    | false => exact ih (awaiting_handle ha hsets)

/-- Both consoles reach the events that set the register together, and from there on they are the
same. -/
lemma after_withKeyRegister_append (ha : c.machine.awaiting = false) (r : UInt8)
    (before : List Event) (e : Event) (rest : List Event) :
    ((c.withKeyRegister r).after before).setsKeyRegister e = (c.after before).setsKeyRegister e ∧
      ((c.after before).setsKeyRegister e = true →
        (c.withKeyRegister r).after (before ++ e :: rest) = c.after (before ++ e :: rest)) := by
  rw [after_append, after_append]
  obtain h | ⟨ha', h⟩ := after_withKeyRegister ha r before
  · rw [h]
    exact ⟨rfl, fun _ => rfl⟩
  · rw [h, setsKeyRegister_withKeyRegister ha' r e]
    refine ⟨rfl, fun hsets => ?_⟩
    rw [after_cons, after_cons, handle_withKeyRegister ha' r e, hsets, cond_true]

/-! ### Consoles that differ in the register only -/

/-- The consoles have the same program, dialect and seed, their loggers have the same threshold,
and their machines differ at most in the register that receives the key of a wait. -/
structure Alike (c c' : Console) : Prop where
  image_eq : c'.image = c.image
  dialect_eq : c'.dialect = c.dialect
  seed_eq : c'.seed = c.seed
  threshold_eq : c'.logger.threshold = c.logger.threshold
  machine_eq : c.machine.SameButKeyRegister c'.machine

lemma alike_withKeyRegister (c : Console) (r : UInt8) {logger : Log.Logger}
    (h : logger.threshold = c.logger.threshold) :
    c.Alike ((c.withKeyRegister r).withSettings c.dialect logger) :=
  ⟨rfl, rfl, rfl, h, rfl⟩

lemma Alike.exists_eq (h : c.Alike c') :
    ∃ r logger, c' = (c.withKeyRegister r).withSettings c.dialect logger := by
  obtain ⟨d', seed', logger', image', m'⟩ := c'
  obtain ⟨rfl, rfl, rfl, -, hm⟩ := h
  exact ⟨m'.keyRegister, logger', congrArg (Console.mk _ _ _ _) hm⟩

/-- No host can tell two consoles apart that differ at most in the register that the last wait has
left behind: it sees the same answers and errors, the same lines and the same machine, and the
second prints the text that the first one would print with its logger. The register is all that can
differ in their machines, until a wait begins or a program is started. This happens on both with the
same event, and from there on their machines are equal. -/
theorem stale_keyRegister_unobservable (h : c.Alike c') (ha : c.machine.awaiting = false)
    (es : List Event) :
    c'.observations es = c.observations es ∧
      (∀ now, c'.texts now es = (c.withSettings c.dialect c'.logger).texts now es) ∧
      (c.after es).Alike (c'.after es) ∧
      ∀ before e rest, es = before ++ e :: rest →
        (c'.after before).setsKeyRegister e = (c.after before).setsKeyRegister e ∧
          ((c.after before).setsKeyRegister e = true →
            (c'.after es).machine = (c.after es).machine) := by
  -- The second console is the first one with another register and then with another logger.
  obtain ⟨r, logger, rfl⟩ := h.exists_eq
  have hlogger : logger.threshold = c.logger.threshold := h.threshold_eq
  let c'' := c.withKeyRegister r
  have hobservations : (c''.withSettings c.dialect logger).observations es = c.observations es :=
    (observations_withLogger (c := c'') hlogger es).trans (observations_withKeyRegister ha r es)
  have hafter : ∀ es, (c''.withSettings c.dialect logger).after es =
      (c''.after es).withSettings c.dialect logger := fun es =>
    (run_withSettings (along_of_forall (runsAlike_self c.dialect) c'' es) logger).2
  refine ⟨hobservations, fun now => ?_, ?_, ?_⟩
  · refine texts_congr ?_ ?_ now
    · rfl
    · exact hobservations.trans (observations_withLogger hlogger es).symm
  · obtain ⟨hd, -, hl⟩ := settings_after c es
    have hthreshold : logger.threshold = (c.after es).logger.threshold := by rwa [hl]
    rw [hafter, ← hd]
    obtain hsame | ⟨-, hsame⟩ := after_withKeyRegister ha r es
    · rw [hsame]
      exact alike_withKeyRegister (c.after es) (c.after es).machine.keyRegister hthreshold
    · rw [hsame]
      exact alike_withKeyRegister (c.after es) r hthreshold
  · rintro before e rest rfl
    obtain ⟨hsets, hequal⟩ := after_withKeyRegister_append ha r before e rest
    have hd : (c''.after before).dialect = c.dialect := (settings_after c'' before).1
    rw [hafter, hafter, ← hd, setsKeyRegister_withLogger]
    refine ⟨hsets, fun h => ?_⟩
    rw [hequal h]
    rfl

/-- The first wait has left V5 behind on one console, and the other one has VC instead. A return
without a call fails on both and is replaced by a load of V1. The second wait sets the register. -/
theorem stale_keyRegister_unobservable_of_second_wait :
    let c := (new .modern 0 { threshold := .debug }).after
      [.start [0xF5, 0x0A, 0x00, 0xEE, 0xF3, 0x0A], .step, .setKey (.integer 7) (.flag true),
        .step, .setKey (.integer 7) (.flag false)]
    let logger : Log.Logger := { name := "other", threshold := .debug }
    let c' := (c.withKeyRegister 0xC).withSettings c.dialect logger
    let before : List Event := [.step, .writeByte 0x202 0x61, .step]
    let es := before ++ [.step]
    c.machine.keyRegister = 5 ∧ c.Alike c' ∧ c.machine.awaiting = false ∧
      c'.observations es = c.observations es ∧
      (c.after before).machine.keyRegister = 5 ∧ (c'.after before).machine.keyRegister = 0xC ∧
      (c'.after es).machine = (c.after es).machine := by
  intro c logger c' before es
  have hthreshold : logger.threshold = c.logger.threshold := by
    rw [(settings_after _ _).2.2]
    rfl
  have h : c.Alike c' := alike_withKeyRegister c 0xC hthreshold
  obtain ⟨hregister, ha, hbefore, hbefore', hsets⟩ :
      c.machine.keyRegister = 5 ∧ c.machine.awaiting = false ∧
        (c.after before).machine.keyRegister = 5 ∧ (c'.after before).machine.keyRegister = 0xC ∧
        (c.after before).setsKeyRegister .step = true := by
    decide +kernel
  obtain ⟨hobservations, -, -, hequal⟩ := stale_keyRegister_unobservable h ha es
  exact ⟨hregister, h, ha, hobservations, hbefore, hbefore',
    (hequal before .step [] rfl).2 hsets⟩

end Console

end Chip8
