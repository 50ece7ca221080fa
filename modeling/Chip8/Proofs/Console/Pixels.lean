import Chip8.Proofs.Console.Run
import Chip8.Proofs.Instruction.Grammar
import Chip8.Proofs.Machine.Drawing
import Chip8.Proofs.Machine.Frame
import Mathlib.Algebra.Ring.Parity

/-!
# Pixels of a run

Drawing flips pixels, so what is on the screen depends on all that has been drawn since it was
last blank: a pixel is lit just when an odd number of strokes covers it, and a stroke reports a
collision just when it covers such a pixel (`Console.lit_iff_odd_strokes`). Nothing else has a part
in it, whatever else a program or its host does.
-/

namespace Chip8

namespace Stroke

/-- How many of the strokes cover a pixel. -/
def timesCovered (strokes : List Stroke) (y : Fin 32) (x : Fin 64) : Nat :=
  strokes.countP fun s => s.Covers y x

end Stroke

open Stroke

/-! ### Displays and strokes -/

/-- A pixel is lit just when an odd number of the strokes covers it. -/
def Display.Shows (d : Display) (strokes : List Stroke) : Prop :=
  ∀ y x, d.lit y x = true ↔ Odd (timesCovered strokes y x)

namespace Display.Shows

variable {m : Machine} {strokes : List Stroke}

lemma blank : Display.blank.Shows [] := by
  intro y x
  simp [timesCovered]

/-- A stroke adds one to the count of each pixel that it covers, and flips this pixel. -/
lemma draw (h : m.display.Shows strokes) (w : Word) :
    (m.display.draw (m.sprite w.x w.y w.n)).Shows (strokes ++ [⟨w, m⟩]) := by
  intro y x
  have hlit := h y x
  simp only [timesCovered, List.countP_append, List.countP_singleton, decide_eq_true_eq,
    lit_draw] at hlit ⊢
  by_cases hcovers : Covers ⟨w, m⟩ y x
  · rw [if_pos hcovers, Nat.odd_add_one, ← hlit, (covers_sprite_iff w m y x).mpr hcovers,
      Bool.xor_true, Bool.not_eq_true', Bool.not_eq_true]
  · rw [if_neg hcovers, Nat.add_zero, ← hlit,
      Bool.eq_false_iff.mpr (mt (covers_sprite_iff w m y x).mp hcovers), Bool.xor_false]

/-- A stroke collides with what is on the screen if it covers a pixel with an odd count. -/
lemma collides_iff (h : m.display.Shows strokes) (w : Word) :
    m.display.collides (m.sprite w.x w.y w.n) = true ↔
      ∃ y x, Covers ⟨w, m⟩ y x ∧ Odd (timesCovered strokes y x) := by
  rw [Display.collides_iff]
  refine exists_congr fun y => exists_congr fun x => ?_
  rw [h y x, covers_sprite_iff, and_comm]

end Display.Shows

/-- The strokes on the screen after an event on `before` with this answer, if `strokes` were there
already. A successful instance of `DXYN` adds one. An executed `00E0` and a start that succeeds
leave none. -/
def Event.noteStroke (e : Event) (answer : Except Host.Error Answer) (before : Machine)
    (strokes : List Stroke) : List Stroke :=
  match answer with
  | .ok (.word n) =>
    if isInstance "00E0" n.toNat then []
    else if isInstance "DXYN" n.toNat then strokes ++ [⟨.ofNat n.toNat, before⟩]
    else strokes
  | .ok .done => if e.isStart then [] else strokes
  | .ok (.byte _) | .error _ => strokes

namespace Instruction

lemma eq_clearScreen_of_template {i : Instruction} (h : i.template = "00E0") :
    i = .clearScreen := by
  cases i with
  | clearScreen => rfl
  | operate op x y => cases op <;> simp [template] at h
  | _ => simp [template] at h

lemma exists_draw_of_template {i : Instruction} (h : i.template = "DXYN") :
    ∃ x y height, i = .draw x y height := by
  cases i with
  | draw x y height => exact ⟨x, y, height, rfl⟩
  | operate op x y => cases op <;> simp [template] at h
  | _ => simp [template] at h

lemma display_effect_of_template_ne {i : Instruction} (hclear : i.template ≠ "00E0")
    (hdraw : i.template ≠ "DXYN") (d : Dialect) (m : Machine) :
    (i.effect d m).display = m.display := by
  rw [display_effect]
  cases i with
  | clearScreen => exact absurd rfl hclear
  | draw x y height => exact absurd rfl hdraw
  | _ => rfl

end Instruction

/-- Running an instruction changes the display as it changes the strokes. -/
lemma Display.Shows.effect {m : Machine} {strokes : List Stroke} (h : m.display.Shows strokes)
    (i : Instruction) (d : Dialect) {n : UInt16} (hn : n.toNat = i.encode.toNat) :
    (i.effect d m.advance).display.Shows (Event.step.noteStroke (.ok (.word n)) m strokes) := by
  simp (disch := decide) only [Event.noteStroke, hn, Instruction.isInstance_encode,
    Word.ofNat_toNat]
  split
  next hclear =>
    obtain rfl := Instruction.eq_clearScreen_of_template hclear
    exact .blank
  next hclear =>
    split
    next hdraw =>
      obtain ⟨x, y, height, rfl⟩ := Instruction.exists_draw_of_template hdraw
      exact h.draw (Instruction.draw x y height).encode
    next hdraw =>
      rw [Instruction.display_effect_of_template_ne hclear hdraw]
      exact h

namespace Console

variable {c c' : Console} {e : Event} {drawn : List Stroke}

/-- The strokes that are on the screen after a run. -/
def strokes (c : Console) (es : List Event) : List Stroke :=
  c.record (fun c e => e.noteStroke (c.handle e).answer c.machine) [] es

/-- Every event changes the display as it changes the strokes. -/
lemma Transition.shows {answer : Except Host.Error Answer} (ht : c.Transition e answer c')
    (h : c.machine.display.Shows drawn) :
    c'.machine.display.Shows (e.noteStroke answer c.machine drawn) := by
  cases ht with
  | fail | tick | setKey | readByte | writeByte => exact h
  | start hs hm =>
    obtain ⟨-, rfl⟩ := Machine.load_eq_ok_iff.mp hm
    simp only [Event.noteStroke, hs.isStart, if_true]
    exact .blank
  | poll =>
    rw [Machine.display_poll]
    exact h
  | step _ _ hs =>
    obtain ⟨hr, hs⟩ := Machine.step_eq_ok_iff.mp hs
    rw [hs]
    exact h.effect _ _ hr.word_eq

/-- Only starts, `00E0` and `DXYN` change a pixel. -/
lemma Transition.of_display_ne {answer : Except Host.Error Answer} (ht : c.Transition e answer c')
    (h : c'.machine.display ≠ c.machine.display) :
    (e.isStart = true ∧ answer = .ok .done) ∨
      ∃ n, answer = .ok (.word n) ∧
        (isInstance "00E0" n.toNat = true ∨ isInstance "DXYN" n.toNat = true) := by
  cases ht with
  | fail | tick | setKey | readByte | writeByte => exact absurd rfl h
  | start hs hm => exact .inl ⟨hs.isStart, rfl⟩
  | poll => exact absurd (Machine.display_poll _) h
  | step _ _ hs =>
    obtain ⟨hr, hs⟩ := Machine.step_eq_ok_iff.mp hs
    refine .inr ⟨_, rfl, ?_⟩
    by_contra hn
    rw [hs] at h hn
    simp (disch := decide) only [hr.word_eq, Instruction.isInstance_encode, not_or] at hn
    exact h (Instruction.display_effect_of_template_ne hn.1 hn.2 _ _)

lemma shows_strokes (d : Dialect) (seed : Int64) (logger : Log.Logger) (es : List Event) :
    ((new d seed logger).after es).machine.display.Shows ((new d seed logger).strokes es) :=
  record_induction (P := fun c drawn => c.machine.display.Shows drawn)
    (fun c e _ h => (transition_handle c e).shows h) es .blank

/-- After any run a pixel is lit just when an odd number of the strokes since the display was last
blank covers it. A step that draws sets VF to one just when it covers a pixel whose count was odd.
Nothing but drawing, clearing the screen and starting a program changes a pixel. -/
theorem lit_iff_odd_strokes (d : Dialect) (seed : Int64) (logger : Log.Logger)
    (es : List Event) :
    let c := (new d seed logger).after es
    let strokes := (new d seed logger).strokes es
    (∀ y x, c.machine.display.lit y x = true ↔ Odd (timesCovered strokes y x)) ∧
      (∀ n, c.step.answer = .ok (.word n) → isInstance "DXYN" n.toNat = true →
        (c.step.console.machine.registers.get Registers.flag = 1 ↔
          ∃ y x, Covers ⟨.ofNat n.toNat, c.machine⟩ y x ∧ Odd (timesCovered strokes y x))) ∧
      ∀ e, (c.handle e).console.machine.display ≠ c.machine.display →
        (e.isStart = true ∧ (c.handle e).answer = .ok .done) ∨
          ∃ n, (c.handle e).answer = .ok (.word n) ∧
            (isInstance "00E0" n.toNat = true ∨ isInstance "DXYN" n.toNat = true) := by
  intro c strokes
  have hshows : c.machine.display.Shows strokes := shows_strokes d seed logger es
  refine ⟨hshows, fun n hn hdraw => ?_, fun e => (transition_handle c e).of_display_ne⟩
  obtain ⟨i, -, -, hw, hconsole⟩ := exists_runs_of_step hn
  rw [hw, Instruction.isInstance_encode (by decide)] at hdraw
  obtain ⟨x, y, height, rfl⟩ := Instruction.exists_draw_of_template hdraw
  have hflag : c.step.console.machine.registers.get Registers.flag =
      if c.machine.display.collides (c.machine.sprite x y height) then 1 else 0 := by
    rw [hconsole]
    exact Registers.get_set_self _ _ _
  rw [hflag, hw, Word.ofNat_toNat, ← hshows.collides_iff]
  change _ ↔ c.machine.display.collides (c.machine.sprite x y height) = true
  simp

/-- The glyph of the zero has been drawn in the upper left corner of the screen, and its first row
is about to be drawn again in the row below. There it covers a lit pixel and a dark one. -/
theorem lit_iff_odd_strokes_of_overlap :
    let run : List Event :=
      [.start [0xA0, 0x50, 0xD0, 0x15, 0x61, 0x01, 0xD0, 0x11], .step, .step, .step]
    let c := (new .modern 0 {}).after run
    c.machine.display.lit 1 0 = true ∧ ¬ c.machine.display.lit 1 1 = true ∧
      c.step.answer = .ok (.word 0xD011) ∧
      c.step.console.machine.registers.get Registers.flag = 1 ∧
      (c.handle .tick).console.machine.display = c.machine.display := by
  intro run
  dsimp only
  obtain ⟨hlit, hflag, hothers⟩ := lit_iff_odd_strokes .modern 0 {} run
  obtain ⟨hstep, hdark, hcovers⟩ :
      ((new .modern 0 {}).after run).step.answer = .ok (.word 0xD011) ∧
      ¬ Odd (timesCovered ((new .modern 0 {}).strokes run) 1 1) ∧
      Covers ⟨.ofNat 0xD011, ((new .modern 0 {}).after run).machine⟩ 1 0 ∧
      Odd (timesCovered ((new .modern 0 {}).strokes run) 1 0) := by
    decide +kernel
  refine ⟨(hlit 1 0).mpr hcovers.2, (hlit 1 1).not.mpr hdark, hstep,
    (hflag _ hstep (by decide)).mpr ⟨1, 0, hcovers⟩, ?_⟩
  by_contra hne
  rcases hothers .tick hne with ⟨hstart, -⟩ | ⟨n, hn, -⟩
  · cases hstart
  · cases hn

end Console

end Chip8
