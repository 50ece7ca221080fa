import Chip8.Size

/-!
# Display

The display is a grid of 32 rows with 64 pixels each, every one lit or dark. Drawing a sprite
flips the pixels under its set bits. A sprite that reaches over an edge goes on at the opposite
one, so whether it covers a pixel depends on the distance from its origin around the screen.
-/

namespace Chip8

/-- A picture of eight columns, one byte a row, and the place of its upper left corner. -/
structure Sprite where
  y : Fin 32
  x : Fin 64
  rows : List UInt8
deriving DecidableEq, Repr

namespace Sprite

/-- Whether a set bit of the sprite lies on the pixel. The highest bit is on the left. -/
def covers (s : Sprite) (y : Fin 32) (x : Fin 64) : Bool :=
  let row := (y - s.y).val
  let column := (x - s.x).val
  match s.rows[row]? with
  | some b => column < 8 && b.toNat.testBit (7 - column)
  | none => false

end Sprite

/-- The pixels of the screen by rows. -/
structure Display where
  rows : Vector (Vector Bool 64) 32
deriving DecidableEq

namespace Display

def width : Nat := 64

def height : Nat := 32

def lit (d : Display) (y : Fin 32) (x : Fin 64) : Bool :=
  d.rows[y][x]

@[ext] theorem ext {d e : Display} (h : ∀ y x, d.lit y x = e.lit y x) : d = e := by
  obtain ⟨d⟩ := d
  obtain ⟨e⟩ := e
  congr 1
  exact Vector.ext fun y hy => Vector.ext fun x hx => h ⟨y, hy⟩ ⟨x, hx⟩

/-- The display with the pixels that `f` lights. -/
def ofPixels (f : Fin 32 → Fin 64 → Bool) : Display :=
  ⟨.ofFn fun y => .ofFn (f y)⟩

@[simp] theorem lit_ofPixels (f : Fin 32 → Fin 64 → Bool) (y : Fin 32) (x : Fin 64) :
    (ofPixels f).lit y x = f y x := by
  simp [lit, ofPixels]

def blank : Display := ⟨.replicate 32 (.replicate 64 false)⟩

@[simp] theorem lit_blank (y : Fin 32) (x : Fin 64) : blank.lit y x = false := by
  simp [lit, blank]

/-- Flip the pixels that the sprite covers. -/
def draw (d : Display) (s : Sprite) : Display :=
  ofPixels fun y x => d.lit y x ^^ s.covers y x

@[simp] theorem lit_draw (d : Display) (s : Sprite) (y : Fin 32) (x : Fin 64) :
    (d.draw s).lit y x = (d.lit y x ^^ s.covers y x) := by
  simp [draw]

/-- Whether the sprite covers a lit pixel. -/
def collides (d : Display) (s : Sprite) : Bool :=
  (List.finRange 32).any fun y => (List.finRange 64).any fun x => d.lit y x && s.covers y x

theorem collides_iff {d : Display} {s : Sprite} :
    d.collides s = true ↔ ∃ y x, d.lit y x = true ∧ s.covers y x = true := by
  simp [collides]

end Display

end Chip8
