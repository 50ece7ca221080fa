/-!
# Hexadecimal numbers

Addresses, bytes and instruction words are written with upper-case digits and filled up with
zeros on the left. A number below zero keeps its sign in front of the zeros, and the sign
counts towards the width.
-/

namespace Chip8.Hex

/-- The upper-case digits of `n`, without leading zeros. -/
def digits (n : Nat) : List Char :=
  (Nat.toDigits 16 n).map Char.toUpper

theorem digits_of_lt {n : Nat} (h : n < 16) : digits n = [n.digitChar.toUpper] := by
  simp [digits, Nat.toDigits_of_lt_base h]

theorem digits_of_le {n : Nat} (h : 16 ≤ n) :
    digits n = digits (n / 16) ++ [(n % 16).digitChar.toUpper] := by
  simp [digits, Nat.toDigits_of_base_le (by decide : 1 < 16) h]

theorem digits_ne_nil (n : Nat) : digits n ≠ [] := by
  simp [digits, Nat.toDigits_ne_nil]

/-- Write `n` with at least `width` digits. -/
def ofNat (width n : Nat) : String :=
  String.ofList ((digits n).leftpad width '0')

@[simp] theorem toList_ofNat (width n : Nat) :
    (ofNat width n).toList = (digits n).leftpad width '0' := by
  simp [ofNat]

/-- Write `z` with at least `width` characters, the sign included. -/
def ofInt (width : Nat) : Int → String
  | .ofNat n => ofNat width n
  | .negSucc n => "-" ++ ofNat (width - 1) (n + 1)

@[simp] theorem ofInt_natCast (width n : Nat) : ofInt width (n : Int) = ofNat width n := rfl

@[simp] theorem ofInt_negSucc (width n : Nat) :
    ofInt width (.negSucc n) = "-" ++ ofNat (width - 1) (n + 1) := rfl

end Chip8.Hex
