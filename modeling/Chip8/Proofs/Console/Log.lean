import Chip8.Proofs.Console.Settings

/-!
# What a console prints

What each kind of event prints is said once, by `Console.Logs`. A fault of a load, a reset or a step
is printed with its message first, and a fault of an access to a byte is not printed at all
(`Console.fault_is_logged_unless_byte_access`). The level of the logger has no part in anything but
the choice of lines, wherever a line is printed (`Console.level_only_filters`).
-/

namespace Chip8

/-- The logger with the level that a text names as its threshold. -/
def Log.Logger.withLevel (l : Logger) (label : String) : Logger :=
  { l with threshold := .ofLabel label }

/-! ### The lines of an event -/

/-- The event reads or writes a byte of memory. -/
def Event.accessesByte : Event → Bool
  | .readByte _ | .writeByte _ _ => true
  | _ => false

namespace Console

variable {c : Console} {e : Event} {f : Fault} {image : List UInt8}

/-- The text about a program that has been started. -/
def loadText (image : List UInt8) : String :=
  "Loaded ROM (" ++ image.length.repr ++ " bytes) at 0x" ++ Hex.ofNat 3 Memory.programStart

/-- What is printed by an event that has started a program. -/
def startLines (l : Log.Logger) (image : List UInt8) : Event → List Log.Line
  | .reset => l.info (loadText image) ++ l.info "Reset"
  | _ => l.info (loadText image)

/-- What an event prints, with its answer. -/
inductive Logs (c : Console) : Event → Except Host.Error Answer → List Log.Line → Prop
  | refuse (e : Event) (m : Host.Misuse) : Logs c e (.error (.misuse m)) []
  | startFault {e : Event} (he : e.isStart = true) (f : Fault) :
      Logs c e (.error (.fault f)) (c.logger.error f.message)
  | start {e : Event} {image : List UInt8} (he : c.Starts image e) :
      Logs c e (.ok .done) (startLines c.logger image e)
  | poll (ha : c.machine.awaiting = true) :
      Logs c .step (.ok .done) (resumeLines c.logger c.machine c.machine.poll)
  | stepFault {f : Fault} (hs : c.machine.step c.dialect = .error f) :
      Logs c .step (.error (.fault f)) (faultLines c.logger c.machine f)
  | step {s : Machine.Step} (hs : c.machine.step c.dialect = .ok s) :
      Logs c .step (.ok (.word s.word))
        (traceLines c.logger c.machine.pc s.word ++ waitLines c.logger s.instruction s.machine)
  | tick : Logs c .tick (.ok .done) []
  | setKey (key pressed : Host.Value) : Logs c (.setKey key pressed) (.ok .done) []
  | access {e : Event} (he : e.accessesByte = true) (answer : Except Host.Error Answer) :
      Logs c e answer []

lemma logs_start (he : c.Starts image e)
    (hlines : startLines c.logger image e = c.logger.info (loadText image)) :
    c.Logs e (c.start image).answer (c.start image).lines := by
  unfold start
  split
  next f _ => exact .startFault he.isStart f
  next =>
    have h : c.Logs e (.ok .done) (startLines c.logger image e) := .start he
    rw [hlines] at h
    exact h

lemma logs_startValue (v : Host.Value) :
    c.Logs (.startValue v) (c.startValue v).answer (c.startValue v).lines := by
  unfold startValue
  split
  next m _ => exact .refuse _ m
  next image hv => exact logs_start (.startValue hv) rfl

lemma logs_reset : c.Logs .reset c.reset.answer c.reset.lines := by
  unfold reset
  split
  next => exact .refuse _ _
  next image hi =>
    unfold start
    split
    next f _ => exact .startFault rfl f
    next => exact .start (.reset hi)

lemma logs_step : c.Logs .step c.step.answer c.step.lines := by
  unfold step
  split
  next => exact .refuse _ _
  next =>
    dsimp only
    split
    next ha => exact .poll ha
    next =>
      split
      next hs => exact .stepFault hs
      next hs => exact .step hs

lemma logs_setKey (key pressed : Host.Value) :
    c.Logs (.setKey key pressed) (c.setKey key pressed).answer (c.setKey key pressed).lines := by
  unfold setKey
  split
  next => exact .refuse _ _
  next =>
    split
    next => exact .setKey key pressed
    next => exact .refuse _ _

lemma lines_readByte (a : Int) : (c.readByte a).lines = [] := by
  unfold readByte
  split <;> rfl

lemma lines_writeByte (a v : Int) : (c.writeByte a v).lines = [] := by
  unfold writeByte
  split
  next => rfl
  next => split <;> rfl

lemma lines_of_access (he : e.accessesByte = true) : (c.handle e).lines = [] := by
  cases e with
  | readByte a => exact lines_readByte a
  | writeByte a v => exact lines_writeByte a v
  | _ => cases he

/-- Every event prints in one of these ways. -/
theorem logs_handle (c : Console) (e : Event) :
    c.Logs e (c.handle e).answer (c.handle e).lines := by
  cases e with
  | start image => exact logs_start .start rfl
  | startValue v => exact logs_startValue v
  | reset => exact logs_reset
  | step => exact logs_step
  | tick => exact .tick
  | setKey key pressed => exact logs_setKey key pressed
  | readByte a =>
    rw [lines_of_access rfl]
    exact .access rfl _
  | writeByte a v =>
    rw [lines_of_access rfl]
    exact .access rfl _

/-! ### Faults -/

/-- A fault of an event that does not access a byte is printed with its message first. -/
lemma Logs.of_fault {lines : List Log.Line} (h : c.Logs e (.error (.fault f)) lines)
    (he : e.accessesByte = false) (hl : c.logger.enabled "ERROR" = true) :
    ∃ rest, lines = .of .error f.message :: rest := by
  have hmessage : c.logger.error f.message = [.of .error f.message] :=
    Log.Logger.log_of_enabled hl f.message
  cases h with
  | startFault => exact ⟨[], hmessage⟩
  | stepFault =>
    rw [faultLines, hmessage]
    exact ⟨_, rfl⟩
  | access he' =>
    rw [he] at he'
    cases he'

/-- A fault of a load, a reset or a step is logged: the first line that is printed is an error with
the message of the fault. Reading or writing a byte never prints a line, not even when it faults. -/
theorem fault_is_logged_unless_byte_access (h : (c.handle e).answer = .error (.fault f))
    (hl : c.logger.enabled "ERROR" = true) :
    (e.accessesByte = false → ∃ rest, (c.handle e).lines = .of .error f.message :: rest) ∧
      (e.accessesByte = true → (c.handle e).lines = []) := by
  have hlogs : c.Logs e (.error (.fault f)) (c.handle e).lines := h ▸ logs_handle c e
  exact ⟨fun he => hlogs.of_fault he hl, fun he => lines_of_access he⟩

/-- A read behind the end of memory is an out of bounds fault, but nothing is printed. The message
of a return without a call is printed. -/
theorem fault_is_logged_unless_byte_access_of_read :
    let c := new .modern 0 { threshold := .error }
    (c.handle (.readByte 0x1000)).answer = .error (.fault (.outOfBounds 0x1000 1)) ∧
      (c.handle (.readByte 0x1000)).lines = [] ∧
      ∃ rest, ((c.after [.start [0x00, 0xEE]]).handle .step).lines =
        ⟨"ERROR", "Stack underflow at 0x200"⟩ :: rest := by
  intro c
  have hread : (c.handle (.readByte 0x1000)).answer = .error (.fault (.outOfBounds 0x1000 1)) := rfl
  have hstep : ((c.after [.start [0x00, 0xEE]]).handle .step).answer =
      .error (.fault (.stackUnderflow 0x200)) := by
    decide +kernel
  exact ⟨hread, (fault_is_logged_unless_byte_access hread rfl).2 rfl,
    (fault_is_logged_unless_byte_access hstep (by decide +kernel)).1 rfl⟩

/-! ### Levels -/

/-- The lines that are printed in a run, event by event. -/
def log (c : Console) (es : List Event) : List (List Log.Line) :=
  (c.handleAll es).map Outcome.lines

@[simp] lemma log_nil (c : Console) : c.log [] = [] := rfl

@[simp] lemma log_cons (c : Console) (e : Event) (es : List Event) :
    c.log (e :: es) = (c.handle e).lines :: (c.handle e).console.log es := rfl

/-- The text of each event of a run, all printed at the time `now`. -/
def texts (c : Console) (now : Float) (es : List Event) : List String :=
  (c.handleAll es).map fun o => o.console.logger.text now o.lines

@[simp] lemma texts_nil (c : Console) (now : Float) : c.texts now [] = [] := rfl

lemma texts_cons (c : Console) (now : Float) (e : Event) (es : List Event) :
    c.texts now (e :: es) =
      (c.handle e).console.logger.text now (c.handle e).lines ::
        (c.handle e).console.texts now es := rfl

lemma logger_handle (c : Console) (e : Event) : (c.handle e).console.logger = c.logger :=
  (transition_handle c e).settings_eq.2.2

/-- The text of an event renders its lines one after the other. -/
lemma texts_eq (c : Console) (now : Float) (es : List Event) :
    c.texts now es =
      (c.log es).map fun lines => String.join (lines.map (c.logger.render now)) := by
  induction es generalizing c with
  | nil => rfl
  | cons e es ih =>
    rw [texts_cons, log_cons, List.map_cons, ih, logger_handle]
    rfl

/-- On a higher threshold an event prints what the logger selects from the lines that are printed on
a lower one. Asking at each place that prints comes to the same as one choice at the end. -/
lemma lines_handle_withSettings (logger : Log.Logger)
    (h : c.logger.threshold.rank ≤ logger.threshold.rank) (e : Event) :
    ((c.withSettings c.dialect logger).handle e).lines = logger.select (c.handle e).lines := by
  have hthreshold : (c.handle e).console.logger.threshold.rank ≤ logger.threshold.rank := by
    rwa [logger_handle]
  exact (handle_inSettings (runsAlike_self c.dialect c e) logger).lines_eq hthreshold

/-- The logger of a console selects all that an event prints. -/
lemma select_lines_handle (c : Console) (e : Event) :
    c.logger.select (c.handle e).lines = (c.handle e).lines :=
  (lines_handle_withSettings c.logger (Nat.le_refl _) e).symm

lemma log_withSettings (logger : Log.Logger) (h : c.logger.threshold.rank ≤ logger.threshold.rank)
    (es : List Event) :
    (c.withSettings c.dialect logger).log es = (c.log es).map logger.select := by
  induction es generalizing c with
  | nil => rfl
  | cons e es ih =>
    have hd : (c.handle e).console.dialect = c.dialect :=
      (transition_handle c e).settings_eq.1
    have hconsole : ((c.withSettings c.dialect logger).handle e).console =
        (c.handle e).console.withSettings c.dialect logger :=
      (handle_inSettings (runsAlike_self c.dialect c e) logger).console_eq
    have hlater := ih (c := (c.handle e).console) (by rwa [logger_handle])
    rw [hd] at hlater
    rw [log_cons, log_cons, List.map_cons, lines_handle_withSettings logger h, hconsole, hlater]

/-- Two consoles that differ only in the level of their loggers, of which the second one weighs no
less, give the same answers and have the same machines. Of the lines that each event prints on the
first, the second prints those that weigh at least as much as its own level, in the same order, and
both render a line alike. -/
theorem level_only_filters (d : Dialect) (seed : Int64) (logger : Log.Logger) {L₁ L₂ : String}
    (h : (Log.Level.ofLabel L₁).rank ≤ (Log.Level.ofLabel L₂).rank) (es : List Event) :
    let low := new d seed (logger.withLevel L₁)
    let high := new d seed (logger.withLevel L₂)
    high.transcript es = low.transcript es ∧
      high.after es = (low.after es).withSettings d (logger.withLevel L₂) ∧
      high.log es = (low.log es).map
        (List.filter fun line => (Log.Level.ofLabel L₂).rank ≤ line.level.rank) ∧
      ∀ now,
        low.texts now es =
          (low.log es).map (fun lines => String.join (lines.map (logger.render now))) ∧
        high.texts now es =
          (high.log es).map (fun lines => String.join (lines.map (logger.render now))) := by
  intro low high
  have hsame : low.Along (RunsAlike d d) es := along_of_forall (runsAlike_self d) low es
  obtain ⟨htranscript, hafter⟩ := run_withSettings (c := low) hsame (logger.withLevel L₂)
  have hlog := log_withSettings (c := low) (logger.withLevel L₂) h es
  exact ⟨htranscript, hafter, hlog, fun now => ⟨texts_eq low now es, texts_eq high now es⟩⟩

/-- A wait for a key and then a return without a call. On the level `Warning` nothing is printed
about the load, the instructions and the wait, and all of the fault is. -/
theorem level_only_filters_of_fault :
    let low := new .modern 0 (Log.Logger.withLevel {} "debug")
    let high := new .modern 0 (Log.Logger.withLevel {} "Warning")
    let es : List Event :=
      [.start [0xF1, 0x0A, 0x00, 0xEE], .step, .setKey (.integer 7) (.flag true), .step, .step]
    (Log.Level.ofLabel "debug").rank ≤ (Log.Level.ofLabel "Warning").rank ∧
      high.transcript es = low.transcript es ∧
      high.log es = (low.log es).map
        (List.filter fun line => (Log.Level.ofLabel "Warning").rank ≤ line.level.rank) ∧
      (low.log es).map List.length = [1, 2, 0, 1, 5] ∧
      (high.log es).map List.length = [0, 0, 0, 0, 5] := by
  intro low high es
  have h : (Log.Level.ofLabel "debug").rank ≤ (Log.Level.ofLabel "Warning").rank := by
    decide +kernel
  obtain ⟨htranscript, -, hlog, -⟩ := level_only_filters .modern 0 {} h es
  have hlengths : (low.log es).map List.length = [1, 2, 0, 1, 5] ∧
      (high.log es).map List.length = [0, 0, 0, 0, 5] := by
    decide +kernel
  exact ⟨h, htranscript, hlog, hlengths⟩

end Console

end Chip8
