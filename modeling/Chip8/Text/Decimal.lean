/-!
# Decimals with two places

A binary64 number is a sign, a significand and a power of two. Its text with two places is the
exact value rounded to hundredths, where a half goes to the even neighbour, and it keeps the
sign of a number that rounds to zero.
-/

namespace Chip8.Decimal

/-- The whole number nearest to `num / den`, the even one of two that are equally near. -/
def roundDiv (num den : Nat) : Nat :=
  let q := num / den
  let r := num % den
  if 2 * r < den then q
  else if den < 2 * r then q + 1
  else q + q % 2

/-- The quotient is off by at most half of the divisor. -/
theorem roundDiv_near {num den : Nat} (h : 0 < den) :
    2 * num ≤ (2 * roundDiv num den + 1) * den ∧
      2 * (roundDiv num den * den) ≤ 2 * num + den := by
  have hd := Nat.div_add_mod num den
  have hr := Nat.mod_lt num h
  have hc : num / den * den = den * (num / den) := Nat.mul_comm _ _
  simp only [roundDiv]
  split
  · simp only [Nat.add_mul, Nat.mul_assoc]; omega
  · split
    · simp only [Nat.add_mul, Nat.mul_assoc, Nat.mul_add]; omega
    · rcases Nat.mod_two_eq_zero_or_one (num / den) with hq | hq <;>
        simp only [hq, Nat.add_mul, Nat.mul_assoc, Nat.mul_add] <;> omega

/-- A number that the divisor divides is not rounded. -/
theorem roundDiv_mul {q den : Nat} (h : 0 < den) : roundDiv (q * den) den = q := by
  simp [roundDiv, Nat.mul_div_cancel _ h, h]

/-- The sign, the significand and the power of two of a finite binary64 number. -/
structure Binary where
  negative : Bool
  significand : Nat
  exponent : Int
deriving DecidableEq, Repr

/-- The value in hundredths, without its sign. -/
def Binary.hundredths (b : Binary) : Nat :=
  roundDiv ((100 * b.significand) <<< b.exponent.toNat) (1 <<< (-b.exponent).toNat)

/-- Two digits stand behind the point and at least one in front of it. -/
def Binary.text (b : Binary) : String :=
  let h := b.hundredths
  (if b.negative then "-" else "") ++ (h / 100).repr ++ "." ++
    (h / 10 % 10).repr ++ (h % 10).repr

/-- The parts of the number with these 64 bits, if it is finite. -/
def Binary.ofBits? (bits : Nat) : Option Binary :=
  let scale : Nat := (bits >>> 52) % (1 <<< 11)
  let fraction : Nat := bits % (1 <<< 52)
  let negative := bits.testBit 63
  if scale = 2047 then none
  else if scale = 0 then some ⟨negative, fraction, -1074⟩
  else some ⟨negative, (1 <<< 52) + fraction, (scale : Int) - 1075⟩

/-- The text of any number. Infinity has a sign, and what is not a number has none. -/
def ofFloat (x : Float) : String :=
  let bits := x.toBits.toNat
  match Binary.ofBits? bits with
  | some b => b.text
  | none =>
    if bits % (1 <<< 52) ≠ 0 then "nan"
    else if bits.testBit 63 then "-inf"
    else "inf"

end Chip8.Decimal
