/-!
# Random bytes

Random bytes come from a counter-based generator: the Threefry function with two 32-bit words
and twenty rounds, which scrambles a pair of words under a key. Drawing a byte replaces the key
by one of the values of the function and takes the byte from another, so that the sequence
depends on the first key alone.
-/

namespace Chip8.Random

/-- A pair of words, as key and as block. -/
structure Pair where
  fst : UInt32
  snd : UInt32
deriving DecidableEq, Repr

/-- Move the bits of a word to the left and those that leave it to the right end. -/
def rotateLeft (w r : UInt32) : UInt32 :=
  (w <<< r) ||| (w >>> (32 - r))

/-- One round adds the second word to the first and mixes the sum into the rotated second. -/
def round (p : Pair) (r : UInt32) : Pair :=
  let sum := p.fst + p.snd
  ⟨sum, rotateLeft p.snd r ^^^ sum⟩

/-- Add two words of the key schedule and the number of the injection. -/
def inject (p : Pair) (a b i : UInt32) : Pair :=
  ⟨p.fst + a, p.snd + b + i⟩

/-- The rotations of four rounds before an odd injection. -/
def oddRotations : List UInt32 := [13, 15, 26, 6]

/-- The rotations of four rounds before an even injection. -/
def evenRotations : List UInt32 := [17, 29, 16, 24]

/-- The value of the function for a key and a block. -/
def scramble (key block : Pair) : Pair :=
  let k0 := key.fst
  let k1 := key.snd
  let k2 := k0 ^^^ k1 ^^^ 0x1BD11BDA
  let p := inject block k0 k1 0
  let p := inject (oddRotations.foldl round p) k1 k2 1
  let p := inject (evenRotations.foldl round p) k2 k0 2
  let p := inject (oddRotations.foldl round p) k0 k1 3
  let p := inject (evenRotations.foldl round p) k1 k2 4
  inject (oddRotations.foldl round p) k2 k0 5

/-- Seeds are 64-bit numbers with a sign. -/
def seed? (z : Int) : Option Int64 :=
  if Int64.minValue.toInt ≤ z ∧ z ≤ Int64.maxValue.toInt then some (Int64.ofInt z) else none

/-- The first key for a seed holds its lowest 32 bits. -/
def ofSeed (seed : Int64) : Pair :=
  ⟨0, UInt32.ofInt seed.toInt⟩

def next (key : Pair) : Pair :=
  scramble key ⟨0, 0⟩

/-- The byte that is drawn under a key. -/
def byte (key : Pair) : UInt8 :=
  let word := scramble (scramble key ⟨0, 1⟩) ⟨0, 0⟩
  (word.fst ^^^ word.snd).toUInt8

end Chip8.Random
