import Chip8.Proofs.Instruction.Grammar
import Chip8.Proofs.List
import Mathlib.Algebra.Group.Nat.Defs

/-!
# Reading numbers

A hexadecimal number can be read back from its text, whatever the width to which it was filled up:
zeros in front of it do not count (`Hex.value?_ofNat`), and the sign of a number below zero stands
in front of the zeros (`Hex.intValue?_ofInt`). Decimal numbers are never filled up
(`Decimal.value?_repr`).
-/

namespace Chip8

namespace Hex

/-! ### Numbers digit by digit -/

@[simp] lemma digits_val (x : Fin 16) : digits x = [digit x] :=
  digits_of_lt x.isLt

lemma toList_ofNat_one (x : Fin 16) : (ofNat 1 x).toList = [digit x] := by
  rw [toList_ofNat, digits_val]
  rfl

/-- The last digit stands behind the digits of what remains. -/
lemma digits_concat {n : Nat} (h : 0 < n) (x : Fin 16) :
    digits (16 * n + x) = digits n ++ [digit x] := by
  have hdiv : (16 * n + x) / 16 = n := by omega
  have hmod : (16 * n + x) % 16 = x := by omega
  rw [digits_of_le (by omega), hdiv, hmod]
  rfl

/-- A number is a single digit, or a positive number with one more digit behind it. -/
@[elab_as_elim]
theorem digits_induction {motive : Nat → Prop} (single : ∀ x : Fin 16, motive x)
    (concat : ∀ n (x : Fin 16), 0 < n → motive n → motive (16 * n + x)) (n : Nat) : motive n := by
  induction n using Nat.strongRecOn with
  | ind n ih =>
    rcases Nat.lt_or_ge n 16 with hn | hn
    · exact single ⟨n, hn⟩
    · have hsplit : 16 * (n / 16) + (Fin.ofNat 16 n : Nat) = n := Nat.div_add_mod n 16
      rw [← hsplit]
      exact concat _ _ (by omega) (ih _ (by omega))

/-- Only digits occur in a number. -/
lemma exists_digit_of_mem_digits (n : Nat) : ∀ c ∈ digits n, ∃ x, c = digit x := by
  induction n using digits_induction with
  | single x => simp
  | concat n x hn ih =>
    rw [digits_concat hn]
    simp only [List.mem_append, List.mem_singleton]
    rintro c (hc | rfl)
    · exact ih c hc
    · exact ⟨x, rfl⟩

lemma exists_digit_of_mem_ofNat {width n : Nat} {c : Char} (h : c ∈ (ofNat width n).toList) :
    ∃ x, c = digit x := by
  rw [toList_ofNat, List.leftpad, List.mem_append] at h
  rcases h with h | h
  · exact ⟨0, List.eq_of_mem_replicate h⟩
  · exact exists_digit_of_mem_digits n c h

/-! ### Reading -/

/-- The number below sixteen that a digit writes. -/
def digitValue? (c : Char) : Option (Fin 16) :=
  (List.finRange 16).find? (digit · == c)

@[simp] lemma digitValue?_digit (x : Fin 16) : digitValue? (digit x) = some x := by
  revert x; decide

/-- The number that digits write, the highest first. -/
def value? (cs : List Char) : Option Nat :=
  cs.foldlM (fun n c => (digitValue? c).map fun x => 16 * n + x.val) 0

lemma value?_concat {cs : List Char} {n : Nat} (h : value? cs = some n) (x : Fin 16) :
    value? (cs ++ [digit x]) = some (16 * n + x) := by
  rw [value?] at h
  simp [value?, h]

lemma value?_zeros (k : Nat) : value? (List.replicate k '0') = some 0 := by
  induction k with
  | zero => rfl
  | succ k ih =>
    rw [List.replicate_succ']
    exact value?_concat ih 0

/-- Zeros in front of a number do not count. -/
theorem value?_ofNat (width n : Nat) : value? (ofNat width n).toList = some n := by
  rw [toList_ofNat, List.leftpad]
  generalize width - (digits n).length = zeros
  induction n using digits_induction with
  | single x =>
    rw [digits_val, value?_concat (value?_zeros zeros) x]
    simp
  | concat n x hn ih =>
    rw [digits_concat hn, ← List.append_assoc]
    exact value?_concat ih x

/-- The number that digits write, which is below zero if a sign stands in front of them. -/
def intValue? (cs : List Char) : Option Int :=
  if cs.head? = some '-' then (value? cs.tail).map fun n : Nat => -(n : Int)
  else (value? cs).map Int.ofNat

theorem intValue?_ofInt (width : Nat) (z : Int) :
    intValue? (ofInt width z).toList = some z := by
  cases z with
  | ofNat n =>
    have hsign : (ofNat width n).toList.head? ≠ some '-' := by
      intro h
      obtain ⟨x, hx⟩ := exists_digit_of_mem_ofNat (List.mem_of_mem_head? h)
      revert x
      decide
    rw [ofInt, intValue?, if_neg hsign, value?_ofNat]
    rfl
  | negSucc n =>
    have htail : (ofInt width (.negSucc n)).toList = '-' :: (ofNat (width - 1) (n + 1)).toList := by
      rw [ofInt_negSucc, String.toList_append]
      rfl
    rw [htail, intValue?, List.head?_cons, if_pos rfl, List.tail_cons, value?_ofNat]
    rfl

/-! ### Widths -/

/-- A number that is not too large is filled up to the width. -/
lemma length_ofNat {width n : Nat} (hw : 0 < width) (h : n < 16 ^ width) :
    (ofNat width n).toList.length = width := by
  have hn : (digits n).length ≤ width := by
    simpa [digits] using (Nat.length_toDigits_le_iff (by decide) hw).mpr h
  rw [toList_ofNat, List.length_leftpad, Nat.max_eq_left hn]

/-- No number is shorter than the width. -/
lemma le_length_ofInt (width : Nat) (z : Int) : width ≤ (ofInt width z).toList.length := by
  cases z with
  | ofNat n =>
    rw [ofInt, toList_ofNat, List.length_leftpad]
    exact Nat.le_max_left _ _
  | negSucc n =>
    rw [ofInt_negSucc, String.toList_append, List.length_append, toList_ofNat,
      List.length_leftpad]
    have hle := Nat.le_max_left (width - 1) (digits (n + 1)).length
    simp only [String.reduceToList, List.length_singleton]
    omega

end Hex

/-! ### Decimal numbers -/

namespace Decimal

/-- The number that decimal digits write. -/
def value? (cs : List Char) : Option Nat :=
  if cs.all Char.isDigit then some (Nat.ofDigitChars 10 cs 0) else none

lemma all_isDigit_repr (n : Nat) : n.repr.toList.all Char.isDigit = true := by
  rw [Nat.repr_eq_ofList_toDigits, String.toList_ofList, List.all_eq_true]
  intro c hc
  exact Nat.isDigit_of_mem_toDigits (by decide) (by decide) hc

theorem value?_repr (n : Nat) : value? n.repr.toList = some n := by
  rw [value?, if_pos (all_isDigit_repr n), Nat.repr_eq_ofList_toDigits, String.toList_ofList,
    Nat.ofDigitChars_toDigits (by decide) (by decide)]

end Decimal

end Chip8
