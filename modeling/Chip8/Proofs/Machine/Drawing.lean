import Chip8.Proofs.Machine.Frame
import Mathlib.Algebra.Group.Fin.Basic
import Mathlib.Algebra.GroupWithZero.Nat
import Mathlib.Data.List.Nodup

/-!
# Drawing pixel by pixel

Whether a sprite covers a pixel can be told from the pixel, by its distance from the corner of the
sprite, or from the sprite, by the places to which its set bits go. A draw instruction is run in the
first way, for all pixels of the screen at once. It is the same as going through the bits one after
the other and toggling a pixel for each (`Machine.execute_draw_eq_drawByPixels`), because no two
bits of a sprite go to the same place.
-/

namespace Chip8

/-! ### Covered pixels -/

/-- A pixel is covered by the bit that lies as many rows and columns behind the corner. -/
lemma Sprite.covers_iff {s : Sprite} {y : Fin 32} {x : Fin 64} :
    s.covers y x = true ↔
      ∃ r c b, s.rows[r]? = some b ∧ (y - s.y).val = r ∧ (x - s.x).val = c ∧ c < 8 ∧
        b.toNat.testBit (7 - c) = true := by
  unfold covers
  cases h : s.rows[(y - s.y).val]? <;> simp [h]

/-- A draw instruction, with the machine on which it is run. -/
structure Stroke where
  word : Word
  machine : Machine

namespace Stroke

/-- Whether a set bit of the sprite comes to lie on the pixel. Row `r` of the sprite is the byte at
`I + r`, and its column `c` is bit `7 - c` of this byte. The sprite begins at the row VY and the
column VX, both counted around the screen. -/
def Covers (s : Stroke) (y : Fin 32) (x : Fin 64) : Prop :=
  let vx := (s.machine.registers.get s.word.x).toNat
  let vy := (s.machine.registers.get s.word.y).toNat
  ∃ r < (s.word.n : Nat), ∃ c < 8,
    (y : Nat) = (vy + r) % 32 ∧ (x : Nat) = (vx + c) % 64 ∧
      (s.machine.memory.read (s.machine.index.toNat + r)).toNat.testBit (7 - c) = true

instance (s : Stroke) (y : Fin 32) (x : Fin 64) : Decidable (s.Covers y x) :=
  inferInstanceAs (Decidable (∃ r < (s.word.n : Nat), ∃ c < 8, _ ∧ _ ∧ _))

/-- How far around the screen a place is behind the place that `v` stands for. -/
lemma val_sub_ofNat_eq_iff {n : Nat} [NeZero n] (y : Fin n) (v : Nat) {r : Nat} (hr : r < n) :
    (y - Fin.ofNat n v).val = r ↔ (y : Nat) = (v + r) % n := by
  have hval : (Fin.ofNat n r).val = r := Nat.mod_eq_of_lt hr
  calc (y - Fin.ofNat n v).val = r
      ↔ y - Fin.ofNat n v = Fin.ofNat n r := by rw [Fin.ext_iff, hval]
    _ ↔ y = Fin.ofNat n v + Fin.ofNat n r := sub_eq_iff_eq_add'
    _ ↔ (y : Nat) = (v + r) % n := by
      rw [Fin.ext_iff, Fin.val_add, Fin.val_ofNat, Fin.val_ofNat, ← Nat.add_mod]

/-- The sprite that the instruction reads covers the pixels of the stroke. -/
lemma covers_sprite_iff (w : Word) (m : Machine) (y : Fin 32) (x : Fin 64) :
    (m.sprite w.x w.y w.n).covers y x = true ↔ Covers ⟨w, m⟩ y x := by
  have hrows (r : Nat) (b : UInt8) : (m.sprite w.x w.y w.n).rows[r]? = some b ↔
      r < w.n ∧ m.memory.read (m.index.toNat + r) = b := by
    change (m.memory.readAll _ _)[r]? = some b ↔ _
    rw [Memory.getElem?_readAll]
    split <;> simp_all
  rw [Sprite.covers_iff]
  constructor
  · rintro ⟨r, c, b, hb, hy, hx, hc, hbit⟩
    obtain ⟨hr, rfl⟩ := (hrows r b).mp hb
    exact ⟨r, hr, c, hc, (val_sub_ofNat_eq_iff y _ (by omega)).mp hy,
      (val_sub_ofNat_eq_iff x _ (by omega)).mp hx, hbit⟩
  · rintro ⟨r, hr, c, hc, hy, hx, hbit⟩
    have hr : r < w.n := hr
    exact ⟨r, c, _, (hrows r _).mpr ⟨hr, rfl⟩, (val_sub_ofNat_eq_iff y _ (by omega)).mpr hy,
      (val_sub_ofNat_eq_iff x _ (by omega)).mpr hx, hc, hbit⟩

end Stroke

/-! ### Toggling one pixel after the other -/

/-- A display in the course of drawing, and whether a lit pixel has been hit. -/
structure Canvas where
  display : Display
  hit : Bool

namespace Canvas

/-- Toggle one pixel. If it is lit at this moment, it is a hit. -/
def toggle (k : Canvas) (place : Fin 32 × Fin 64) : Canvas where
  display := .ofPixels fun y x => if (y, x) = place then !k.display.lit y x else k.display.lit y x
  hit := k.hit || k.display.lit place.1 place.2

variable {k : Canvas} {places : List (Fin 32 × Fin 64)}

lemma lit_toggle (k : Canvas) (place : Fin 32 × Fin 64) (y : Fin 32) (x : Fin 64) :
    (k.toggle place).display.lit y x = (k.display.lit y x ^^ decide ((y, x) = place)) := by
  rw [toggle, Display.lit_ofPixels]
  split
  next h => rw [decide_eq_true h, Bool.xor_true]
  next h => rw [decide_eq_false h, Bool.xor_false]

/-- A pixel is toggled if it is among the places, provided that none of them comes twice. -/
lemma lit_foldl_toggle (h : places.Nodup) (k : Canvas) (y : Fin 32) (x : Fin 64) :
    (places.foldl toggle k).display.lit y x =
      (k.display.lit y x ^^ places.contains (y, x)) := by
  induction places generalizing k with
  | nil => simp
  | cons place places ih =>
    obtain ⟨hnew, hrest⟩ := List.nodup_cons.mp h
    rw [List.foldl_cons, ih hrest, lit_toggle, Bool.xor_assoc, List.contains_cons]
    congr 1
    by_cases hplace : (y, x) = place
    · simp [hplace, hnew]
    · simp [hplace]

/-- There is a hit if one of the places is lit in the beginning, because none is toggled before its
turn. -/
lemma hit_foldl_toggle (h : places.Nodup) (k : Canvas) :
    (places.foldl toggle k).hit = (k.hit || places.any fun p => k.display.lit p.1 p.2) := by
  induction places generalizing k with
  | nil => simp
  | cons place places ih =>
    obtain ⟨hnew, hrest⟩ := List.nodup_cons.mp h
    have hlater : (places.any fun p => (k.toggle place).display.lit p.1 p.2) =
        places.any fun p => k.display.lit p.1 p.2 := by
      rw [Bool.eq_iff_iff, List.any_eq_true, List.any_eq_true]
      refine exists_congr fun p => and_congr_right fun hp => ?_
      have hne : (p.1, p.2) ≠ place := fun heq => hnew (heq ▸ hp)
      rw [lit_toggle, decide_eq_false hne, Bool.xor_false]
    rw [List.foldl_cons, ih hrest, hlater, List.any_cons, ← Bool.or_assoc]
    rfl

end Canvas

namespace Machine

/-- Column `c` of row `r`: the pixel to which it goes is toggled if bit `7 - c` of the byte at
`I + r` is set. -/
def drawBit (m : Machine) (vx vy r : Nat) (k : Canvas) (c : Nat) : Canvas :=
  if (m.memory.read (m.index.toNat + r)).toNat.testBit (7 - c) then
    k.toggle (Fin.ofNat 32 (vy + r), Fin.ofNat 64 (vx + c))
  else k

def drawRow (m : Machine) (vx vy : Nat) (k : Canvas) (r : Nat) : Canvas :=
  (List.range 8).foldl (m.drawBit vx vy r) k

/-- The coordinates are read before anything is written. Then the rows are drawn one after the
other, each from left to right, and VF is set if there has been a hit. -/
def drawByPixels (m : Machine) (x y height : Fin 16) : Machine :=
  let vx := (m.registers.get x).toNat % 64
  let vy := (m.registers.get y).toNat % 32
  let k := (List.range height).foldl (m.drawRow vx vy) ⟨m.display, false⟩
  { m with
    display := k.display
    registers := m.registers.set Registers.flag (if k.hit then 1 else 0) }

/-! ### The places of a sprite -/

/-- The places to which the set bits of a row go, from left to right. -/
def rowPlaces (m : Machine) (vx vy r : Nat) : List (Fin 32 × Fin 64) :=
  ((List.range 8).filter fun c =>
    (m.memory.read (m.index.toNat + r)).toNat.testBit (7 - c)).map fun c =>
      (Fin.ofNat 32 (vy + r), Fin.ofNat 64 (vx + c))

/-- The places to which the set bits of the first `n` rows go. -/
def places (m : Machine) (vx vy n : Nat) : List (Fin 32 × Fin 64) :=
  (List.range n).flatMap (m.rowPlaces vx vy)

variable {m : Machine} {vx vy n r : Nat}

lemma foldl_drawRow (m : Machine) (vx vy n : Nat) (k : Canvas) :
    (List.range n).foldl (m.drawRow vx vy) k = (m.places vx vy n).foldl Canvas.toggle k := by
  have hrow : m.drawRow vx vy = fun k r => (m.rowPlaces vx vy r).foldl Canvas.toggle k := by
    funext k r
    rw [rowPlaces, List.foldl_map, List.foldl_filter]
    rfl
  rw [places, List.foldl_flatMap, hrow]

lemma mem_rowPlaces {y : Fin 32} {x : Fin 64} :
    (y, x) ∈ m.rowPlaces vx vy r ↔
      ∃ c < 8, (y : Nat) = (vy + r) % 32 ∧ (x : Nat) = (vx + c) % 64 ∧
        (m.memory.read (m.index.toNat + r)).toNat.testBit (7 - c) = true := by
  simp only [rowPlaces, List.mem_map, List.mem_filter, List.mem_range, Prod.mk.injEq,
    Fin.ext_iff, Fin.val_ofNat]
  refine exists_congr fun c => ?_
  constructor
  · rintro ⟨⟨hc, hbit⟩, hy, hx⟩
    exact ⟨hc, hy.symm, hx.symm, hbit⟩
  · rintro ⟨hc, hy, hx, hbit⟩
    exact ⟨⟨hc, hbit⟩, hy.symm, hx.symm⟩

/-- No two bits of a sprite go to the same place: it has at most 15 rows, and 8 columns. -/
lemma nodup_places (m : Machine) (vx vy : Nat) (hn : n < 16) : (m.places vx vy n).Nodup := by
  rw [places, List.nodup_flatMap]
  constructor
  · intro r _
    refine List.Nodup.map_on ?_ (List.nodup_range.filter _)
    intro c hc c' hc' heq
    have hc := List.mem_range.mp (List.mem_filter.mp hc).1
    have hc' := List.mem_range.mp (List.mem_filter.mp hc').1
    have hx := congrArg (fun p => p.2.val) heq
    simp only [Fin.val_ofNat] at hx
    omega
  · refine List.nodup_range.imp_of_mem fun hr hr' hne => ?_
    rintro ⟨y, x⟩ hp hp'
    obtain ⟨-, -, hy, -⟩ := mem_rowPlaces.mp hp
    obtain ⟨-, -, hy', -⟩ := mem_rowPlaces.mp hp'
    rw [List.mem_range] at hr hr'
    omega

section

variable (m : Machine) (x y height : Fin 16)

/-- The places to which the set bits of the sprite go that a draw instruction reads. -/
def spritePlaces : List (Fin 32 × Fin 64) :=
  m.places ((m.registers.get x).toNat % 64) ((m.registers.get y).toNat % 32) height

lemma nodup_spritePlaces : (m.spritePlaces x y height).Nodup :=
  m.nodup_places _ _ height.isLt

/-- The sprite covers just the places to which its set bits go. -/
lemma covers_sprite (py : Fin 32) (px : Fin 64) :
    (m.sprite x y height).covers py px = (m.spritePlaces x y height).contains (py, px) := by
  rw [Bool.eq_iff_iff, Stroke.covers_sprite_iff ⟨0xD, x, y, height⟩, List.contains_iff_mem]
  simp only [spritePlaces, places, List.mem_flatMap, List.mem_range, mem_rowPlaces,
    Nat.mod_add_mod, Stroke.Covers]

lemma display_draw_sprite :
    m.display.draw (m.sprite x y height) =
      ((m.spritePlaces x y height).foldl Canvas.toggle ⟨m.display, false⟩).display := by
  ext py px
  rw [Display.lit_draw, covers_sprite, Canvas.lit_foldl_toggle (nodup_spritePlaces ..)]

lemma collides_sprite :
    m.display.collides (m.sprite x y height) =
      ((m.spritePlaces x y height).foldl Canvas.toggle ⟨m.display, false⟩).hit := by
  rw [Canvas.hit_foldl_toggle (nodup_spritePlaces ..), Bool.false_or, Bool.eq_iff_iff,
    Display.collides_iff, List.any_eq_true]
  simp only [Prod.exists, covers_sprite, List.contains_iff_mem]
  exact exists_congr fun py => exists_congr fun px => and_comm

end

/-- The draw instruction does what drawing its sprite pixel by pixel does. -/
theorem execute_draw_eq_drawByPixels (d : Dialect) (m : Machine) (x y height : Fin 16) :
    m.execute d (Word.toNat ⟨0xD, x, y, height⟩) = m.drawByPixels x y height := by
  have hexecute : m.execute d (Word.toNat ⟨0xD, x, y, height⟩) = m.draw (m.sprite x y height) :=
    execute_encode d (.draw x y height) m
  rw [hexecute, draw, display_draw_sprite, collides_sprite, drawByPixels, foldl_drawRow]
  rfl

end Machine

end Chip8
