import Chip8.Console.Event
import Chip8.Proofs.Machine.Step

/-!
# Runs of the console

A run is a list of events. What one event may do is said once, by `Console.Transition`: it fails
and leaves the console as it was, starts a program on a fresh machine, or changes the machine in
one of five ways. Every statement about all runs rests on `Console.transition_handle`.
-/

namespace Chip8

/-- The event starts a program if it succeeds. -/
def Event.isStart : Event → Bool
  | .start _ | .startValue _ | .reset => true
  | _ => false

namespace Console

/-! ### Lists of events -/

@[simp] lemma after_nil (c : Console) : c.after [] = c := rfl

@[simp] lemma after_cons (c : Console) (e : Event) (es : List Event) :
    c.after (e :: es) = (c.handle e).console.after es := rfl

@[simp] lemma after_append (c : Console) (es fs : List Event) :
    c.after (es ++ fs) = (c.after es).after fs :=
  List.foldl_append

/-- The console is one that a host can bring about. -/
def Reachable (c : Console) : Prop :=
  ∃ d seed logger es, (new d seed logger).after es = c

lemma Reachable.after {c : Console} (h : c.Reachable) (es : List Event) :
    (c.after es).Reachable := by
  obtain ⟨d, seed, logger, fs, rfl⟩ := h
  exact ⟨d, seed, logger, fs ++ es, after_append _ fs es⟩

/-- What every event keeps is true after any events. -/
lemma after_induction {P : Console → Prop} (h : ∀ c e, P c → P (c.handle e).console)
    (es : List Event) {c : Console} (hc : P c) : P (c.after es) := by
  induction es generalizing c with
  | nil => exact hc
  | cons e es ih => exact ih (h c e hc)

/-- At every event of the run, what `P` says of the event and of the console before it. -/
def Along (P : Console → Event → Prop) (c : Console) : List Event → Prop
  | [] => True
  | e :: es => P c e ∧ (c.handle e).console.Along P es

@[simp] lemma along_nil (P : Console → Event → Prop) (c : Console) : c.Along P [] := trivial

lemma along_cons {P : Console → Event → Prop} {c : Console} {e : Event} {es : List Event} :
    c.Along P (e :: es) ↔ P c e ∧ (c.handle e).console.Along P es :=
  Iff.rfl

lemma along_append {P : Console → Event → Prop} {c : Console} {es fs : List Event} :
    c.Along P (es ++ fs) ↔ c.Along P es ∧ (c.after es).Along P fs := by
  induction es generalizing c with
  | nil => simp
  | cons e es ih => rw [List.cons_append, along_cons, along_cons, ih, and_assoc, after_cons]

/-- Where `P` fails along a run, it fails at one of its events. -/
lemma exists_of_not_along {P : Console → Event → Prop} {c : Console} {es : List Event}
    (h : ¬ c.Along P es) : ∃ before e rest, es = before ++ e :: rest ∧ ¬ P (c.after before) e := by
  induction es generalizing c with
  | nil => exact absurd trivial h
  | cons e es ih =>
    by_cases he : P c e
    · obtain ⟨before, e', rest, rfl, hrest⟩ := ih fun hes => h (along_cons.mpr ⟨he, hes⟩)
      exact ⟨e :: before, e', rest, rfl, hrest⟩
    · exact ⟨[], e, es, rfl, he⟩

lemma along_of_forall {P : Console → Event → Prop} (h : ∀ c e, P c e) (c : Console)
    (es : List Event) : c.Along P es := by
  induction es generalizing c with
  | nil => trivial
  | cons e es ih => exact ⟨h c e, ih _⟩

instance decidableAlong {P : Console → Event → Prop} [∀ c e, Decidable (P c e)] (c : Console) :
    (es : List Event) → Decidable (c.Along P es)
  | [] => inferInstanceAs (Decidable True)
  | e :: es =>
    have := decidableAlong (P := P) (c.handle e).console es
    inferInstanceAs (Decidable (P c e ∧ (c.handle e).console.Along P es))

/-- What is recorded along a run. Each event may change the record, in view of the console before
it. -/
def record {α : Type} (note : Console → Event → α → α) (c : Console) (r : α) : List Event → α
  | [] => r
  | e :: es => (c.handle e).console.record note (note c e r) es

/-- What is true of a console and a record, and stays so with every event, is true after any
events. -/
lemma record_induction {α : Type} {note : Console → Event → α → α} {P : Console → α → Prop}
    (h : ∀ c e r, P c r → P (c.handle e).console (note c e r)) (es : List Event) {c : Console}
    {r : α} (hr : P c r) : P (c.after es) (c.record note r es) := by
  induction es generalizing c r with
  | nil => exact hr
  | cons e es ih => exact ih (h c e r hr)

/-! ### Single events -/

/-- An event that starts `image` if it succeeds. -/
inductive Starts (c : Console) (image : List UInt8) : Event → Prop
  | start : Starts c image (.start image)
  | startValue {v : Host.Value} (h : v.image = .ok image) : Starts c image (.startValue v)
  | reset (h : c.image = some image) : Starts c image .reset

lemma Starts.isStart {c : Console} {image : List UInt8} {e : Event} (h : c.Starts image e) :
    e.isStart = true := by
  cases h <;> rfl

/-- What an event may do: its answer and the console afterwards. -/
inductive Transition (c : Console) : Event → Except Host.Error Answer → Console → Prop
  | fail (e : Event) (err : Host.Error) : Transition c e (.error err) c
  | start {e : Event} {image : List UInt8} {m : Machine} (he : c.Starts image e)
      (hm : (Machine.fresh c.seed).load image = .ok m) :
      Transition c e (.ok .done) { c with image := some image, machine := m }
  | poll {image : List UInt8} (hi : c.image = some image) (ha : c.machine.awaiting = true) :
      Transition c .step (.ok .done) { c with machine := c.machine.poll }
  | step {image : List UInt8} (hi : c.image = some image) (ha : c.machine.awaiting = false)
      {s : Machine.Step} (hs : c.machine.step c.dialect = .ok s) :
      Transition c .step (.ok (.word s.word)) { c with machine := s.machine }
  | tick : Transition c .tick (.ok .done) { c with machine := c.machine.tick }
  | setKey {key : Host.Value} (pressed : Host.Value) {k : Fin 16}
      (hk : key.index? = some (k : Int)) :
      Transition c (.setKey key pressed) (.ok .done)
        { c with machine :=
          { c.machine with keypad := c.machine.keypad.set k pressed.truth } }
  | readByte {a : Nat} (ha : a < 4096) :
      Transition c (.readByte a) (.ok (.byte (c.machine.memory.read a))) c
  | writeByte {a v : Nat} (ha : a < 4096) (hv : v < 256) :
      Transition c (.writeByte a v) (.ok .done)
        { c with machine :=
          { c.machine with memory := c.machine.memory.write a (UInt8.ofNat v) } }

variable {c : Console}

lemma transition_start {e : Event} {image : List UInt8} (he : c.Starts image e) :
    c.Transition e (c.start image).answer (c.start image).console := by
  unfold start
  split
  · exact .fail e _
  next m hm => exact .start he hm

lemma transition_reset : c.Transition .reset c.reset.answer c.reset.console := by
  unfold reset
  split
  · exact .fail _ _
  next image hi =>
    have h := transition_start (.reset hi)
    dsimp only
    split <;> exact h

lemma transition_startValue (v : Host.Value) :
    c.Transition (.startValue v) (c.startValue v).answer (c.startValue v).console := by
  unfold startValue
  split
  · exact .fail _ _
  next image hi => exact transition_start (.startValue hi)

lemma transition_step : c.Transition .step c.step.answer c.step.console := by
  unfold step
  split
  · exact .fail _ _
  next image hi =>
    dsimp only
    split
    next ha => exact .poll hi ha
    next ha =>
      split
      · exact .fail _ _
      next s hs => exact .step hi (by simpa using ha) hs

lemma transition_setKey (key pressed : Host.Value) :
    c.Transition (.setKey key pressed) (c.setKey key pressed).answer
      (c.setKey key pressed).console := by
  unfold setKey
  split
  · exact .fail _ _
  next z hz =>
    split
    next h => exact .setKey pressed (k := ⟨z.toNat, by omega⟩) (by rw [hz]; simp; omega)
    · exact .fail _ _

/-- An address that passes its check is one of memory. -/
lemma exists_nat_of_rangeFault? {a : Int} (h : Memory.rangeFault? a 1 = none) :
    ∃ n : Nat, n < 4096 ∧ a = n := by
  rw [Memory.rangeFault?_eq_none_iff] at h
  exact ⟨a.toNat, by omega, by omega⟩

lemma transition_readByte (a : Int) :
    c.Transition (.readByte a) (c.readByte a).answer (c.readByte a).console := by
  unfold readByte
  split
  · exact .fail _ _
  next h =>
    obtain ⟨n, hn, rfl⟩ := exists_nat_of_rangeFault? h
    exact .readByte hn

lemma transition_writeByte (a v : Int) :
    c.Transition (.writeByte a v) (c.writeByte a v).answer (c.writeByte a v).console := by
  unfold writeByte
  split
  · exact .fail _ _
  next h =>
    obtain ⟨n, hn, rfl⟩ := exists_nat_of_rangeFault? h
    split
    next hv =>
      obtain ⟨v, rfl⟩ := Int.eq_ofNat_of_zero_le hv.1
      exact .writeByte hn (by omega)
    · exact .fail _ _

/-- Every event is one of these transitions. -/
theorem transition_handle (c : Console) (e : Event) :
    c.Transition e (c.handle e).answer (c.handle e).console := by
  cases e with
  | start image => exact transition_start .start
  | startValue v => exact transition_startValue v
  | reset => exact transition_reset
  | step => exact transition_step
  | tick => exact .tick
  | setKey key pressed => exact transition_setKey key pressed
  | readByte a => exact transition_readByte a
  | writeByte a v => exact transition_writeByte a v

/-! ### Steps -/

lemma step_eq_fail (hi : c.image.isSome) (ha : c.machine.awaiting = false) {f : Fault}
    (hs : c.machine.step c.dialect = .error f) :
    c.step = c.fail f (faultLines c.logger c.machine f) := by
  obtain ⟨image, hi⟩ := Option.isSome_iff_exists.mp hi
  simp only [step, hi, ha, hs]
  rfl

lemma step_eq_succeed (hi : c.image.isSome) (ha : c.machine.awaiting = false) {s : Machine.Step}
    (hs : c.machine.step c.dialect = .ok s) :
    c.step = { c with machine := s.machine }.succeed (.word s.word)
      (traceLines c.logger c.machine.pc s.word ++
        waitLines c.logger s.instruction s.machine) := by
  obtain ⟨image, hi⟩ := Option.isSome_iff_exists.mp hi
  simp only [step, hi, ha, hs]
  rfl

lemma step_of_awaiting (hi : c.image.isSome) (ha : c.machine.awaiting = true) :
    c.step.answer = .ok .done ∧ c.step.console = { c with machine := c.machine.poll } := by
  unfold step
  split
  next hn => rw [hn] at hi; cases hi
  next =>
    dsimp only
    rw [if_pos ha]
    exact ⟨rfl, rfl⟩

lemma step_of_not_awaiting (hi : c.image.isSome) (ha : c.machine.awaiting = false)
    {s : Machine.Step} (hs : c.machine.step c.dialect = .ok s) :
    c.step.answer = .ok (.word s.word) ∧ c.step.console = { c with machine := s.machine } := by
  rw [step_eq_succeed hi ha hs]
  exact ⟨rfl, rfl⟩

/-- What a step has done that answers a word. -/
lemma exists_runs_of_step {w : UInt16} (h : c.step.answer = .ok (.word w)) :
    ∃ i, c.machine.awaiting = false ∧ c.machine.Runs i ∧ w.toNat = i.encode.toNat ∧
      c.step.console = { c with machine := i.effect c.dialect c.machine.advance } := by
  have ht := transition_step (c := c)
  rw [h] at ht
  generalize c.step.console = c' at ht ⊢
  cases ht with
  | step _ ha hs =>
    obtain ⟨hr, hs⟩ := Machine.step_eq_ok_iff.mp hs
    rw [hs]
    exact ⟨_, ha, hr, hr.word_eq, rfl⟩

end Console

end Chip8
