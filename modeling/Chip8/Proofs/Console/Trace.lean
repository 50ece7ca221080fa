import Chip8.Proofs.Console.Invariant
import Chip8.Proofs.Console.KeyWait
import Chip8.Proofs.Console.Log
import Chip8.Proofs.Console.Program
import Chip8.Proofs.Instruction.Grammar

/-!
# The trace of a run

On the level `DEBUG` a console prints a line about each instruction that it runs, about each wait
that begins and about each wait that ends. These lines tell what the run did
(`Console.debug_log_tells_run`): the instructions in their order, and for each wait at most one end
before the next instruction. What a single event tells is said once, by `Console.Tells`. A run
after the begin of a wait has two phases. No instruction is run until a step ends the wait, and
nothing is told from then on until the next instruction.
-/

namespace Chip8

/-! ### Lines by their texts -/

/-- What the lines of a trace are about. -/
inductive Log.Topic where
  | instruction
  | waitBegin
  | waitEnd

/-- The text with which a line about the topic begins. -/
def Log.Topic.opening : Topic → String
  | .instruction => "0x"
  | .waitBegin => "Waiting for key -> V"
  | .waitEnd => "Key wait finished: V"

/-- An instruction that has been run: its address and its word. -/
structure Executed where
  address : UInt16
  word : UInt16
deriving DecidableEq

/-- The address, the word and the text of the instruction. -/
def Executed.line (i : Executed) : Log.Line :=
  ⟨"DEBUG", "0x" ++ Hex.ofNat 4 i.address.toNat ++ ": " ++ Hex.ofNat 4 i.word.toNat ++ "  " ++
    disassemble i.word.toNat⟩

/-- The instruction that an event with this answer has run at an address. -/
def Event.executed? (address : UInt16) : Event → Except Host.Error Answer → Option Executed
  | .step, .ok (.word w) => some ⟨address, w⟩
  | _, _ => none

namespace Log

/-- The line about a wait for VX that begins. -/
def Line.waiting (x : Fin 16) : Line :=
  ⟨"DEBUG", "Waiting for key -> V" ++ Hex.ofNat 1 x⟩

/-- The line about a wait for VX that ends with a key. -/
def Line.finished (x key : Fin 16) : Line :=
  ⟨"DEBUG", "Key wait finished: V" ++ Hex.ofNat 1 x ++ " = " ++ Hex.ofNat 1 key⟩

/-- The lines that are about the topic by their texts. -/
def about (t : Topic) (lines : List Line) : List Line :=
  lines.filter fun line => t.opening.toList.isPrefixOf line.message.toList

variable {t : Topic} {lines : List Line} {line : Line}

@[simp] lemma about_append (t : Topic) (lines lines' : List Line) :
    about t (lines ++ lines') = about t lines ++ about t lines' :=
  List.filter_append lines lines'

lemma about_executed (t : Topic) (i : Executed) :
    about t [i.line] = match t with | .instruction => [i.line] | _ => [] := by
  cases t <;> simp [about, Topic.opening, Executed.line]

lemma about_executed_waiting (t : Topic) (i : Executed) (x : Fin 16) :
    about t [i.line, .waiting x] =
      match t with | .instruction => [i.line] | .waitBegin => [.waiting x] | .waitEnd => [] := by
  cases t <;> simp [about, Topic.opening, Executed.line, Line.waiting]

lemma about_finished (t : Topic) (x key : Fin 16) :
    about t [.finished x key] = match t with | .waitEnd => [.finished x key] | _ => [] := by
  cases t <;> simp [about, Topic.opening, Line.finished]

/-! ### Lines about other things -/

/-- The message begins with another letter than lines of any topic. -/
def Line.IsAside (line : Line) : Prop :=
  ∃ letter, letter ∉ ['0', 'W', 'K'] ∧ line.message.toList.head? = some letter

lemma Line.IsAside.not_isPrefixOf (h : line.IsAside) (t : Topic) :
    t.opening.toList.isPrefixOf line.message.toList = false := by
  obtain ⟨letter, hletter, hhead⟩ := h
  obtain ⟨rest, hmessage⟩ := List.head?_eq_some_iff.mp hhead
  rw [hmessage]
  simp only [List.mem_cons, List.not_mem_nil, or_false, not_or] at hletter
  obtain ⟨hzero, hw, hk⟩ := hletter
  cases t <;>
    simp [Topic.opening, List.isPrefixOf_cons_cons, Ne.symm hzero, Ne.symm hw, Ne.symm hk]

lemma about_of_aside (h : ∀ line ∈ lines, line.IsAside) (t : Topic) : about t lines = [] :=
  List.filter_eq_nil_iff.mpr fun line hline => by rw [(h line hline).not_isPrefixOf t]; decide

/-- A call prints a line about another thing, or none. -/
lemma isAside_log {label message : String} (h : (Line.mk label message).IsAside) (l : Logger) :
    ∀ line ∈ l.log label message, line.IsAside :=
  fun _ hline => Logger.eq_of_mem_log hline ▸ h

/-- The first letter of a text is that of its first part. -/
lemma head?_append {s : String} {letter : Char} (h : s.toList.head? = some letter) (s' : String) :
    (s ++ s').toList.head? = some letter := by
  rw [String.toList_append, List.head?_append, h, Option.some_or]

end Log

lemma Fault.message_isAside (label : String) (f : Fault) :
    (Log.Line.mk label f.message).IsAside := by
  cases f with
  | imageTooLarge size limit =>
    exact ⟨'R', by decide, Log.head?_append (Log.head?_append (Log.head?_append rfl _) _) _⟩
  | unknownWord word address =>
    cases address with
    | none => exact ⟨'U', by decide, Log.head?_append rfl _⟩
    | some a =>
      exact ⟨'U', by decide, Log.head?_append (Log.head?_append (Log.head?_append rfl _) _) _⟩
  | stackOverflow address depth =>
    refine ⟨'S', by decide, ?_⟩
    exact Log.head?_append (Log.head?_append (Log.head?_append (Log.head?_append rfl _) _) _) _
  | stackUnderflow address => exact ⟨'S', by decide, Log.head?_append rfl _⟩
  | outOfBounds address length =>
    exact ⟨'M', by decide, Log.head?_append (Log.head?_append rfl _) _⟩

namespace Machine

lemma head?_registerLine (m : Machine) (x : Fin 16) (xs : List (Fin 16)) :
    (m.registerLine (x :: xs)).toList.head? = some 'V' := by
  simp only [registerLine, registerText, List.map_cons, String.toList_intercalate]
  cases xs <;> simp

/-- The report of a machine that does not wait has no line about a wait. -/
lemma report_isAside {m : Machine} (h : m.awaiting = false) (label : String) :
    ∀ text ∈ m.report, (Log.Line.mk label text).IsAside := by
  simp only [report, h, Bool.false_eq_true, if_false, List.append_nil, List.forall_mem_cons,
    List.not_mem_nil, false_imp_iff, implies_true, and_true]
  refine ⟨⟨'P', by decide, ?_⟩, ⟨'V', by decide, head?_registerLine m 0 _⟩,
    ⟨'V', by decide, head?_registerLine m 8 _⟩, ⟨'S', by decide, Log.head?_append rfl _⟩⟩
  simp [counterLine]

end Machine

/-! ### Single events -/

namespace Machine

/-- A wait for a key for VX has begun and has not ended. -/
structure WaitsFor (m : Machine) (x : Fin 16) : Prop where
  awaiting : m.awaiting = true
  keyRegister_eq : m.keyRegister = UInt8.ofNat x

variable {d : Dialect} {m : Machine} {x y k : Fin 16}

lemma WaitsFor.register_unique (h : m.WaitsFor x) (h' : m.WaitsFor y) : x = y := by
  have hxy := congrArg UInt8.toNat (h.keyRegister_eq.symm.trans h'.keyRegister_eq)
  rw [UInt8.toNat_ofNat', UInt8.toNat_ofNat'] at hxy
  omega

lemma Regular.exists_waitsFor (h : m.Regular) (ha : m.awaiting = true) : ∃ x, m.WaitsFor x := by
  have hle := h.keyRegister_le
  refine ⟨⟨m.keyRegister.toNat, by omega⟩, ha, ?_⟩
  rw [UInt8.ofNat_toNat]

/-- The line about the end of a wait tells the register and the key. -/
lemma WaitsFor.resumeLines_eq (h : m.WaitsFor x) (hk : m.keypad.lowest? = some k) {l : Log.Logger}
    (hl : l.threshold = .debug) : Console.resumeLines l m m.poll = [.finished x k] := by
  have hx : m.keyRegister.toNat = x := by
    rw [h.keyRegister_eq, UInt8.toNat_ofNat']
    omega
  have hkey : (UInt8.ofNat k).toNat = k := by
    rw [UInt8.toNat_ofNat']
    omega
  rw [poll_of_down h.awaiting hk, hx, Registers.set?, dif_pos x.isLt, Console.resumeLines]
  simp only [Bool.false_eq_true, if_false, hx, Registers.read_val, Registers.get_set_self, hkey]
  exact Log.Logger.log_of_debug hl _ _

end Machine

namespace Console

open Log (about)

variable {c : Console} {e : Event} {es : List Event} {x : Fin 16}

/-- What an event tells about instructions and waits, with its answer and the machine afterwards. -/
inductive Tells (c : Console) :
    Event → Except Host.Error Answer → List Log.Line → Machine → Prop
  | aside {e : Event} {answer : Except Host.Error Answer} {lines : List Log.Line} {m : Machine}
      (hlines : ∀ line ∈ lines, line.IsAside) (hanswer : ∀ w, answer ≠ .ok (.word w))
      (hawaiting : m.awaiting = c.machine.awaiting)
      (hregister : m.keyRegister = c.machine.keyRegister) : Tells c e answer lines m
  | start {e : Event} {lines : List Log.Line} {m : Machine} (he : e.isStart = true)
      (hlines : ∀ line ∈ lines, line.IsAside) (hm : m.awaiting = false) :
      Tells c e (.ok .done) lines m
  | run {w : UInt16} {m : Machine} (hc : c.machine.awaiting = false) (hm : m.awaiting = false) :
      Tells c .step (.ok (.word w)) [Executed.line ⟨c.machine.pc, w⟩] m
  | beginWait {w : UInt16} {x : Fin 16} {m : Machine} (hc : c.machine.awaiting = false)
      (hw : w.toNat = (Instruction.awaitKey x).encode.toNat) (hm : m.WaitsFor x) :
      Tells c .step (.ok (.word w)) [Executed.line ⟨c.machine.pc, w⟩, .waiting x] m
  | endWait {x k : Fin 16} {m : Machine} (hc : c.machine.WaitsFor x)
      (hk : c.machine.keypad.lowest? = some k) (hm : m.awaiting = false) :
      Tells c .step (.ok .done) [.finished x k] m

/-- Apart from steps, events tell nothing about instructions and waits. -/
lemma Logs.isAside {answer : Except Host.Error Answer} {lines : List Log.Line}
    (h : c.Logs e answer lines) (he : e ≠ .step) : ∀ line ∈ lines, line.IsAside := by
  have hload (image : List UInt8) : (Log.Line.mk "INFO" (loadText image)).IsAside :=
    ⟨'L', by decide, Log.head?_append (Log.head?_append (Log.head?_append rfl _) _) _⟩
  cases h with
  | refuse | tick | setKey | access => nofun
  | startFault _ f => exact Log.isAside_log (f.message_isAside _) c.logger
  | @start _ image hs =>
    cases hs with
    | start | startValue => exact Log.isAside_log (hload image) c.logger
    | reset =>
      rw [startLines, List.forall_mem_append]
      exact ⟨Log.isAside_log (hload image) c.logger,
        Log.isAside_log ⟨'R', by decide, rfl⟩ c.logger⟩
  | poll | stepFault | step => exact absurd rfl he

lemma faultLines_isAside {m : Machine} (h : m.awaiting = false) (l : Log.Logger) (f : Fault) :
    ∀ line ∈ faultLines l m f, line.IsAside := by
  rw [faultLines, List.forall_mem_append]
  refine ⟨Log.isAside_log (f.message_isAside _) l, fun line hline => ?_⟩
  obtain ⟨text, htext, rfl⟩ := Log.Logger.exists_of_mem_logAll hline
  exact Machine.report_isAside h _ text htext

/-- The logger lets all lines through, and the machine is one of a run. -/
structure Tracing (c : Console) : Prop where
  regular : c.Regular
  threshold_eq : c.logger.threshold = .debug

namespace Tracing

variable (h : c.Tracing)
include h

lemma traceLines_eq (address word : UInt16) :
    traceLines c.logger address word = [Executed.line ⟨address, word⟩] := by
  rw [Console.traceLines_eq]
  exact Log.Logger.log_of_debug h.threshold_eq _ _

/-- A step that runs an instruction tells of it, and of the wait that it begins if it does. -/
lemma tells_of_step {s : Machine.Step} (ha : c.machine.awaiting = false)
    (hs : c.machine.step c.dialect = .ok s) :
    c.Tells .step (.ok (.word s.word))
      (traceLines c.logger c.machine.pc s.word ++ waitLines c.logger s.instruction s.machine)
      s.machine := by
  obtain ⟨hr, hs⟩ := Machine.step_eq_ok_iff.mp hs
  rw [h.traceLines_eq]
  cases hm : s.machine.awaiting with
  | false =>
    have hnone : waitLines c.logger s.instruction s.machine = [] := by
      unfold waitLines
      split
      · rw [if_neg (by simp [hm])]
      · rfl
    rw [hnone]
    exact .run ha hm
  | true =>
    have hmachine : s.machine = s.instruction.effect c.dialect c.machine.advance := by rw [hs]
    rw [hmachine] at hm ⊢
    obtain ⟨x, hx, hk⟩ := Machine.exists_awaitKey_of_awaiting ha hm
    have hw := hr.word_eq
    have hwaiting : c.logger.debug (Machine.waitLine x) = [.waiting x] :=
      Log.Logger.log_of_debug h.threshold_eq _ _
    rw [hx, Machine.effect_awaitKey_of_released hk] at hm ⊢
    rw [waitLines, if_pos hm, hwaiting]
    refine .beginWait ha ?_ ⟨rfl, rfl⟩
    rw [hs, hw, hx]

lemma tells_step : c.Tells .step c.step.answer c.step.lines c.step.console.machine := by
  unfold step
  split
  next => exact .aside (List.forall_mem_nil _) (by rintro _ ⟨⟩) rfl rfl
  next =>
    dsimp only
    split
    next ha =>
      cases hk : c.machine.keypad.lowest? with
      | none =>
        rw [Machine.poll_of_released hk, resumeLines, if_pos ha]
        exact .aside (List.forall_mem_nil _) (by rintro _ ⟨⟩) rfl rfl
      | some k =>
        obtain ⟨x, hx⟩ := h.regular.machine.exists_waitsFor ha
        rw [hx.resumeLines_eq hk h.threshold_eq]
        exact .endWait hx hk (by rw [succeed, Machine.poll_of_down ha hk])
    next ha =>
      have ha : c.machine.awaiting = false := by simpa using ha
      split
      next f hs => exact .aside (faultLines_isAside ha c.logger f) (by rintro _ ⟨⟩) rfl rfl
      next s hs => exact h.tells_of_step ha hs

/-- Every event tells one of these things. -/
theorem tells (e : Event) :
    c.Tells e (c.handle e).answer (c.handle e).lines (c.handle e).console.machine := by
  by_cases he : e = .step
  · rw [he]
    exact h.tells_step
  · have ht := transition_handle c e
    have hlines := (logs_handle c e).isAside he
    generalize (c.handle e).answer = answer, (c.handle e).console = c' at ht ⊢
    cases ht with
    | start hs hm =>
      obtain ⟨-, rfl⟩ := Machine.load_eq_ok_iff.mp hm
      exact .start hs.isStart hlines rfl
    | poll | step => exact absurd rfl he
    | _ => exact .aside hlines nofun rfl rfl

lemma after (es : List Event) : (c.after es).Tracing :=
  ⟨h.regular.after es, (settings_after c es).2.2 ▸ h.threshold_eq⟩

lemma handle (e : Event) : (c.handle e).console.Tracing :=
  h.after [e]

end Tracing

/-! ### Runs -/

/-- The instruction that an event has run. -/
def executed? (c : Console) (e : Event) : Option Executed :=
  e.executed? c.machine.pc (c.handle e).answer

/-- The instructions that a run has run. -/
def executed (c : Console) : List Event → List Executed
  | [] => []
  | e :: es => (c.executed? e).toList ++ (c.handle e).console.executed es

/-- With the event a wait has begun. -/
def BeginsWait (c : Console) (e : Event) : Prop :=
  c.machine.awaiting = false ∧ (c.handle e).console.machine.awaiting = true

/-- The event starts no program, and no line about an instruction is printed. -/
def Pauses (c : Console) (e : Event) : Prop :=
  c.KeepsProgram e ∧ about .instruction (c.handle e).lines = []

/-- One line at most is printed about the end of a wait for VX. A step prints it, and it tells the
lowest key that is down at this step. Once a line about an instruction is printed, there has been
such a line. -/
structure EndsWaitOnce (c : Console) (x : Fin 16) (es : List Event) : Prop where
  ends : about .waitEnd (c.log es).flatten = [] ∨
    ∃ before rest k, es = before ++ .step :: rest ∧
      (c.after before).machine.keypad.isDown k = true ∧
      (∀ j < k, (c.after before).machine.keypad.isDown j = false) ∧
      ((c.after before).handle .step).lines = [.finished x k] ∧
      about .waitEnd (c.log es).flatten = [.finished x k]
  ended : ∀ e, about .instruction ((c.after es).handle e).lines ≠ [] →
    about .waitEnd (c.log es).flatten ≠ []

namespace Tells

variable {answer : Except Host.Error Answer} {lines : List Log.Line} {m : Machine}

/-- An event tells of an instruction just when it has run one. -/
lemma about_instruction (h : c.Tells e answer lines m) :
    about .instruction lines = (e.executed? c.machine.pc answer).toList.map Executed.line := by
  cases h with
  | aside hlines hanswer =>
    rw [Log.about_of_aside hlines]
    unfold Event.executed?
    split
    next w => exact absurd rfl (hanswer w)
    next => rfl
  | start he hlines =>
    rw [Log.about_of_aside hlines]
    cases e with
    | step => cases he
    | _ => rfl
  | run => exact Log.about_executed _ _
  | beginWait => exact Log.about_executed_waiting _ _ _
  | endWait => exact Log.about_finished _ _ _

/-- An event that begins no wait tells of none. -/
lemma about_waitBegin (h : c.Tells e answer lines m)
    (hm : ¬ (c.machine.awaiting = false ∧ m.awaiting = true)) : about .waitBegin lines = [] := by
  cases h with
  | aside hlines | start _ hlines => exact Log.about_of_aside hlines _
  | run => exact Log.about_executed _ _
  | beginWait hc _ hx => exact absurd ⟨hc, hx.awaiting⟩ hm
  | endWait => exact Log.about_finished _ _ _

/-- A wait is begun by a step that runs an instruction for it. -/
lemma of_beginsWait (h : c.Tells e answer lines m) (hc : c.machine.awaiting = false)
    (hm : m.awaiting = true) :
    e = .step ∧ ∃ w x, answer = .ok (.word w) ∧ w.toNat = (Instruction.awaitKey x).encode.toNat ∧
      m.WaitsFor x ∧ about .waitBegin lines = [.waiting x] := by
  cases h with
  | aside _ _ hawaiting =>
    rw [hawaiting, hc] at hm
    cases hm
  | start _ _ hm' | run _ hm' | endWait _ _ hm' =>
    rw [hm'] at hm
    cases hm
  | beginWait _ hw hx => exact ⟨rfl, _, _, rfl, hw, hx, Log.about_executed_waiting _ _ _⟩

/-- Without a wait nothing is told of its end, and as long as no instruction is run there is no
wait. -/
lemma of_idle (h : c.Tells e answer lines m) (hc : c.machine.awaiting = false)
    (hlines : about .instruction lines = []) :
    about .waitEnd lines = [] ∧ m.awaiting = false := by
  cases h with
  | aside haside _ hawaiting => exact ⟨Log.about_of_aside haside _, hawaiting.trans hc⟩
  | start _ haside hm => exact ⟨Log.about_of_aside haside _, hm⟩
  | run =>
    rw [Log.about_executed] at hlines
    cases hlines
  | beginWait =>
    rw [Log.about_executed_waiting] at hlines
    cases hlines
  | endWait hx =>
    rw [hx.awaiting] at hc
    cases hc

/-- A wait goes on until a step ends it with the lowest key that is down. -/
lemma of_waitsFor (h : c.Tells e answer lines m) (hx : c.machine.WaitsFor x)
    (he : e.isStart → ∃ err, answer = .error err) :
    (about .waitEnd lines = [] ∧ m.WaitsFor x) ∨
      ∃ k, e = .step ∧ c.machine.keypad.lowest? = some k ∧ lines = [.finished x k] ∧
        m.awaiting = false := by
  cases h with
  | aside haside _ hawaiting hregister =>
    exact .inl ⟨Log.about_of_aside haside _,
      ⟨hawaiting.trans hx.awaiting, hregister.trans hx.keyRegister_eq⟩⟩
  | start hs =>
    obtain ⟨err, herr⟩ := he hs
    cases herr
  | run hc | beginWait hc =>
    rw [hx.awaiting] at hc
    cases hc
  | endWait hy hk hm =>
    obtain rfl := hx.register_unique hy
    exact .inr ⟨_, rfl, hk, rfl, hm⟩

/-- During a wait no instruction is run. -/
lemma about_instruction_of_awaiting (h : c.Tells e answer lines m)
    (hc : c.machine.awaiting = true) : about .instruction lines = [] := by
  cases h with
  | aside hlines | start _ hlines => exact Log.about_of_aside hlines _
  | run hc' | beginWait hc' =>
    rw [hc] at hc'
    cases hc'
  | endWait => exact Log.about_finished _ _ _

end Tells

lemma flatten_log_cons (c : Console) (e : Event) (es : List Event) :
    (c.log (e :: es)).flatten = (c.handle e).lines ++ ((c.handle e).console.log es).flatten := rfl

namespace Tracing

/-- The lines about instructions are those of the instructions that have been run. -/
lemma about_instruction_log (h : c.Tracing) (es : List Event) :
    about .instruction (c.log es).flatten = (c.executed es).map Executed.line := by
  induction es generalizing c with
  | nil => rfl
  | cons e es ih =>
    rw [flatten_log_cons, Log.about_append, ih (h.handle e), (h.tells e).about_instruction,
      executed, List.map_append]
    rfl

/-- After a wait nothing is told until an instruction is run. -/
lemma of_idle (h : c.Tracing) (hc : c.machine.awaiting = false) (hes : c.Along Pauses es) :
    about .waitEnd (c.log es).flatten = [] := by
  induction es generalizing c with
  | nil => rfl
  | cons e es ih =>
    obtain ⟨he, hes⟩ := along_cons.mp hes
    obtain ⟨hlines, hm⟩ := (h.tells e).of_idle hc he.2
    rw [flatten_log_cons, Log.about_append, hlines, ih (h.handle e) hm hes, List.append_nil]

/-- A wait goes on, or a step has ended it. -/
lemma of_waitsFor (h : c.Tracing) (hx : c.machine.WaitsFor x) (hes : c.Along Pauses es) :
    (about .waitEnd (c.log es).flatten = [] ∧ (c.after es).machine.WaitsFor x) ∨
      ∃ before rest k, es = before ++ .step :: rest ∧
        (c.after before).machine.keypad.lowest? = some k ∧
        ((c.after before).handle .step).lines = [.finished x k] ∧
        about .waitEnd (c.log es).flatten = [.finished x k] := by
  induction es generalizing c with
  | nil => exact .inl ⟨rfl, hx⟩
  | cons e es ih =>
    obtain ⟨he, hes⟩ := along_cons.mp hes
    rw [flatten_log_cons, Log.about_append]
    rcases (h.tells e).of_waitsFor hx he.1 with ⟨hlines, hx⟩ | ⟨k, rfl, hk, hlines, hm⟩
    · rw [hlines, List.nil_append]
      rcases ih (h.handle e) hx hes with hwait | ⟨before, rest, k, rfl, hk, hstep, hends⟩
      · exact .inl hwait
      · exact .inr ⟨e :: before, rest, k, rfl, hk, hstep, hends⟩
    · have hrest := (h.handle .step).of_idle hm hes
      refine .inr ⟨[], es, k, rfl, hk, hlines, ?_⟩
      rw [hlines, hrest, Log.about_finished, List.append_nil]

lemma endsWaitOnce (h : c.Tracing) (hx : c.machine.WaitsFor x) (hes : c.Along Pauses es) :
    c.EndsWaitOnce x es := by
  rcases h.of_waitsFor hx hes with ⟨hends, hx⟩ | ⟨before, rest, k, hsplit, hk, hstep, hends⟩
  · refine ⟨.inl hends, fun e he => absurd ?_ he⟩
    exact ((h.after es).tells e).about_instruction_of_awaiting hx.awaiting
  · have hlowest := Keypad.lowest?_eq_some_iff.mp hk
    refine ⟨.inr ⟨before, rest, k, hsplit, hlowest.1, hlowest.2, hstep, hends⟩, fun _ _ => ?_⟩
    rw [hends]
    exact List.cons_ne_nil _ _

end Tracing

/-- On the level `DEBUG` the lines about instructions that a run prints are those of the
instructions that it has run, in order: each with its address, its word and its text, one for every
step that answers a word and none for any other event. A line about the begin of a wait is printed
by the steps with which one begins, for the register of the instruction, and by no other event. As
long as no program is started and no further instruction is told of, such a line is followed by one
line about the end of the wait at most, for the same register and with the lowest key that is down,
and there has been one if an instruction is told of next. -/
theorem debug_log_tells_run (d : Dialect) (seed : Int64) (logger : Log.Logger)
    (hl : logger.threshold = .debug) (es : List Event) :
    let start := new d seed logger
    let c := start.after es
    about .instruction (start.log es).flatten = (start.executed es).map Executed.line ∧
      (∀ e, about .instruction (c.handle e).lines = (c.executed? e).toList.map Executed.line) ∧
      (∀ e, ¬ c.BeginsWait e → about .waitBegin (c.handle e).lines = []) ∧
      ∀ e, c.BeginsWait e →
        e = .step ∧ ∃ w x, (c.handle e).answer = .ok (.word w) ∧
          isInstance "FX0A" w.toNat = true ∧ (Word.ofNat w.toNat).x = x ∧
          about .waitBegin (c.handle e).lines = [.waiting x] ∧
          ∀ fs, (c.handle e).console.Along Pauses fs →
            (c.handle e).console.EndsWaitOnce x fs := by
  intro start c
  have hstart : start.Tracing := ⟨.new d seed logger, hl⟩
  have hc : c.Tracing := hstart.after es
  refine ⟨hstart.about_instruction_log es, fun e => (hc.tells e).about_instruction,
    fun e he => (hc.tells e).about_waitBegin he, fun e he => ?_⟩
  obtain ⟨hstep, w, x, hanswer, hw, hx, hlines⟩ := (hc.tells e).of_beginsWait he.1 he.2
  refine ⟨hstep, w, x, hanswer, ?_, ?_, hlines, fun fs hfs => (hc.handle e).endsWaitOnce hx hfs⟩
  · rw [hw, Instruction.isInstance_encode (by decide)]
    rfl
  · rw [hw, Word.ofNat_toNat]
    rfl

/-- A wait for V3 is looked at once in vain, and then two keys are down. The lower one ends it, and
the program clears the screen next. -/
theorem debug_log_tells_run_of_two_keys :
    let start := new .modern 0 { threshold := .debug }
    let down (k : Int) : Event := .setKey (.integer k) (.flag true)
    let c := start.after [.start [0xF3, 0x0A, 0x00, 0xE0]]
    let waiting := (c.handle .step).console
    let fs : List Event := [.step, down 7, down 2, .step]
    c.BeginsWait .step ∧ waiting.Along Pauses fs ∧
      about .waitBegin (c.handle .step).lines = [⟨"DEBUG", "Waiting for key -> V3"⟩] ∧
      ((waiting.after fs).handle .step).lines = [⟨"DEBUG", "0x0202: 00E0  CLS"⟩] ∧
      ∃ k, about .waitEnd (waiting.log fs).flatten = [.finished 3 k] := by
  intro start down c waiting fs
  obtain ⟨hidle, hawaiting, hword, hquiet, hnext⟩ :
      c.machine.awaiting = false ∧ waiting.machine.awaiting = true ∧
        (c.handle .step).answer = .ok (.word 0xF30A) ∧
        waiting.Along (fun c e => about .instruction (c.handle e).lines = []) fs ∧
        ((waiting.after fs).handle .step).lines = [⟨"DEBUG", "0x0202: 00E0  CLS"⟩] := by
    decide +kernel
  have hbegins : c.BeginsWait .step := ⟨hidle, hawaiting⟩
  have hpauses : waiting.Along Pauses fs := by
    obtain ⟨hlook, hdown, hdown', hend, -⟩ := hquiet
    exact ⟨⟨nofun, hlook⟩, ⟨nofun, hdown⟩, ⟨nofun, hdown'⟩, ⟨nofun, hend⟩, trivial⟩
  obtain ⟨-, -, -, hwait⟩ := debug_log_tells_run .modern 0 { threshold := .debug } rfl
    [.start [0xF3, 0x0A, 0x00, 0xE0]]
  obtain ⟨-, w, x, hw, -, hx, hlines, honce⟩ := hwait .step hbegins
  obtain rfl : 0xF30A = w := Answer.word.inj (Except.ok.inj (hword.symm.trans hw))
  obtain rfl : 3 = x := hx
  have hends : waiting.EndsWaitOnce 3 fs := honce fs hpauses
  have hended := hends.ended .step (by rw [hnext]; decide +kernel)
  rcases hends.ends with hnone | ⟨-, -, k, -, -, -, -, hk⟩
  · exact absurd hnone hended
  · exact ⟨hbegins, hpauses, hlines, hnext, k, hk⟩

end Console

end Chip8
