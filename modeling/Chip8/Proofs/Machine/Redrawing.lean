import Chip8.Proofs.Machine.Drawing

/-!
# Drawing again

Drawing flips pixels, and which ones depends on the sprite alone. So two sprites can be drawn in
either order, and one that is drawn twice is gone again (`Display.draw_comm`,
`Display.draw_draw_self`). For instructions this holds as long as they find the same sprite the
second time. A draw writes VF, so it leaves alone the sprites whose coordinates come from other
registers (`Machine.sprite_draw`).
-/

namespace Chip8

/-! ### Displays -/

namespace Display

variable {d : Display} {s : Sprite}

lemma draw_comm (d : Display) (s t : Sprite) : (d.draw s).draw t = (d.draw t).draw s := by
  ext y x
  rw [lit_draw, lit_draw, lit_draw, lit_draw, Bool.xor_right_comm]

@[simp] lemma draw_draw_self (d : Display) (s : Sprite) : (d.draw s).draw s = d := by
  ext y x
  simp

/-- The second time a sprite hits the pixels that were dark before the first. -/
lemma collides_draw_self_iff :
    (d.draw s).collides s = true ↔ ∃ y x, s.covers y x = true ∧ d.lit y x = false := by
  rw [collides_iff]
  refine exists₂_congr fun y x => ?_
  rw [lit_draw, and_comm]
  refine and_congr_right fun hcovers => ?_
  simp [hcovers]

/-- Each covered pixel is lit before the first time or before the second. -/
lemma collides_or_collides_draw_self_iff :
    d.collides s = true ∨ (d.draw s).collides s = true ↔ ∃ y x, s.covers y x = true := by
  rw [collides_iff, collides_draw_self_iff]
  constructor
  · rintro (⟨y, x, -, hcovers⟩ | ⟨y, x, hcovers, -⟩)
    · exact ⟨y, x, hcovers⟩
    · exact ⟨y, x, hcovers⟩
  · rintro ⟨y, x, hcovers⟩
    cases hlit : d.lit y x with
    | true => exact .inl ⟨y, x, hlit, hcovers⟩
    | false => exact .inr ⟨y, x, hcovers, hlit⟩

end Display

/-! ### Instructions -/

/-- A stroke covers some pixel if a bit of its sprite is set, wherever it is drawn. -/
lemma Stroke.exists_covers_iff (w : Word) (m : Machine) :
    (∃ y x, Covers ⟨w, m⟩ y x) ↔
      ∃ r < (w.n : Nat), ∃ b < 8, (m.memory.read (m.index.toNat + r)).toNat.testBit b = true := by
  constructor
  · rintro ⟨y, x, r, hr, c, -, -, -, hbit⟩
    exact ⟨r, hr, 7 - c, by omega, hbit⟩
  · rintro ⟨r, hr, b, hb, hbit⟩
    refine ⟨Fin.ofNat 32 _, Fin.ofNat 64 _, r, hr, 7 - b, by omega, rfl, rfl, ?_⟩
    rwa [Nat.sub_sub_self (Nat.le_of_lt_succ hb)]

namespace Machine

lemma execute_draw (d : Dialect) (m : Machine) (x y height : Fin 16) :
    m.execute d (Word.toNat ⟨0xD, x, y, height⟩) = m.draw (m.sprite x y height) :=
  execute_encode d (.draw x y height) m

/-- A draw hits if it covers a lit pixel, and VF tells so. -/
lemma flag_draw_eq_one_iff (m : Machine) (s : Sprite) :
    (m.draw s).registers.get Registers.flag = 1 ↔ m.display.collides s = true := by
  rw [draw, Registers.get_set_self]
  cases m.display.collides s <;> decide

/-- Drawing writes no memory, no index and no register but VF, so other coordinates stay. -/
lemma sprite_draw {x y : Fin 16} (hx : x ≠ Registers.flag) (hy : y ≠ Registers.flag) (m : Machine)
    (s : Sprite) (height : Fin 16) : (m.draw s).sprite x y height = m.sprite x y height := by
  rw [draw, sprite, sprite, Registers.get_set_of_ne hx.symm, Registers.get_set_of_ne hy.symm]

/-- What is left of drawing a sprite twice is the flag. -/
lemma draw_draw_self (m : Machine) (s : Sprite) :
    (m.draw s).draw s =
      m.setRegister Registers.flag (((m.draw s).draw s).registers.get Registers.flag) := by
  simp only [draw, setRegister, Display.draw_draw_self, Registers.set_set, Registers.get_set_self]

/-- Two draw instructions that do not take their coordinates from VF give the same display in either
order, and one that runs twice leaves nothing behind but VF. VF is set one of the two times if the
sprite has a set bit, and the second time if it has covered a dark pixel. -/
theorem execute_draw_twice (d : Dialect) (m : Machine) (x y height x' y' height' : Fin 16)
    (hx : x ≠ Registers.flag) (hy : y ≠ Registers.flag) (hx' : x' ≠ Registers.flag)
    (hy' : y' ≠ Registers.flag) :
    let w : Word := ⟨0xD, x, y, height⟩
    let w' : Word := ⟨0xD, x', y', height'⟩
    let once := m.execute d w.toNat
    let twice := once.execute d w.toNat
    (once.execute d w'.toNat).display = ((m.execute d w'.toNat).execute d w.toNat).display ∧
      twice.display = m.display ∧
      twice = m.setRegister Registers.flag (twice.registers.get Registers.flag) ∧
      (once.registers.get Registers.flag = 1 ∨ twice.registers.get Registers.flag = 1 ↔
        ∃ r < (height : Nat), ∃ b < 8,
          (m.memory.read (m.index.toNat + r)).toNat.testBit b = true) ∧
      (twice.registers.get Registers.flag = 1 ↔
        ∃ py px, Stroke.Covers ⟨w, m⟩ py px ∧ m.display.lit py px = false) := by
  intro w w' once twice
  have honce : once = m.draw (m.sprite x y height) := execute_draw ..
  -- The second time the same sprite is read.
  have htwice : twice = once.draw (m.sprite x y height) := by
    rw [← sprite_draw hx hy m (m.sprite x y height), ← honce]
    exact execute_draw ..
  have horder : (once.execute d w'.toNat).display =
      ((m.execute d w'.toNat).execute d w.toNat).display := by
    rw [execute_draw, execute_draw, execute_draw, honce, sprite_draw hx' hy', sprite_draw hx hy]
    exact Display.draw_comm ..
  have hself : twice = m.setRegister Registers.flag (twice.registers.get Registers.flag) := by
    rw [htwice, honce]
    exact draw_draw_self ..
  refine ⟨horder, by rw [hself]; rfl, hself, ?_, ?_⟩
  · rw [htwice, honce, flag_draw_eq_one_iff, flag_draw_eq_one_iff]
    refine Display.collides_or_collides_draw_self_iff.trans ?_
    refine Iff.trans ?_ (Stroke.exists_covers_iff w m)
    exact exists₂_congr fun py px => Stroke.covers_sprite_iff w m py px
  · rw [htwice, honce, flag_draw_eq_one_iff]
    refine Display.collides_draw_self_iff.trans ?_
    exact exists₂_congr fun py px => and_congr_left' (Stroke.covers_sprite_iff w m py px)

/-- The glyph of the zero is drawn twice in the lower right corner, where it goes on at the other
edges. One of its pixels is lit beforehand, so VF is set both times. It can be drawn before or after
its own first three rows in the upper left corner, into which it reaches. -/
theorem execute_draw_twice_at_corner :
    let m : Machine :=
      { fresh 0 with
        index := 0x50
        registers := .ofFn fun k => if k = 0 then 62 else if k = 1 then 31 else 0
        display := .ofPixels fun y x => y == 0 && x == 1 }
    let once := m.execute .modern (Word.toNat ⟨0xD, 0x0, 0x1, 0x5⟩)
    let twice := once.execute .modern (Word.toNat ⟨0xD, 0x0, 0x1, 0x5⟩)
    (once.execute .modern (Word.toNat ⟨0xD, 0x2, 0x3, 0x3⟩)).display =
        ((m.execute .modern (Word.toNat ⟨0xD, 0x2, 0x3, 0x3⟩)).execute .modern
          (Word.toNat ⟨0xD, 0x0, 0x1, 0x5⟩)).display ∧
      once.display.lit 0 1 = false ∧ twice.display.lit 0 1 = true ∧
      once.registers.get Registers.flag = 1 ∧ twice = m.setRegister Registers.flag 1 := by
  intro m once twice
  obtain ⟨horder, hdisplay, hself, -, hsecond⟩ :=
    execute_draw_twice .modern m 0x0 0x1 0x5 0x2 0x3 0x3 (by decide) (by decide) (by decide)
      (by decide)
  obtain ⟨hdark, hflag, hcovers⟩ :
      once.display.lit 0 1 = false ∧ once.registers.get Registers.flag = 1 ∧
        Stroke.Covers ⟨⟨0xD, 0x0, 0x1, 0x5⟩, m⟩ 31 62 ∧ m.display.lit 31 62 = false := by
    decide +kernel
  have hset : twice.registers.get Registers.flag = 1 := hsecond.mpr ⟨31, 62, hcovers⟩
  rw [hset] at hself
  exact ⟨horder, hdark, by rw [hdisplay]; decide, hflag, hself⟩

end Machine

end Chip8
