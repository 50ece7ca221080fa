import Chip8.Machine.CallStack
import Mathlib.Tactic.Common

/-!
# Slots of the call stack

As long as its pointer stays between zero and sixteen, the call stack is a stack: a push fills
the slot at the pointer, and a pop clears the slot below it and gives what was there. A stack is
regular if in addition every slot below the pointer holds an address at which a program may
continue and every other slot is zero.
-/

namespace Chip8.CallStack

variable {s t : CallStack}

/-- The number that the pointer stands for, which is the number of addresses on the stack. -/
def depth (s : CallStack) : Int :=
  s.pointer.toInt

/-- The content of a slot. -/
def slot (s : CallStack) (k : Fin 16) : UInt16 :=
  getElem s.slots (k : Nat) (val_lt_sixteen k)

/-- Stacks with the same depth and the same slots are equal. -/
@[ext] lemma ext (hd : s.depth = t.depth) (hs : ∀ k, s.slot k = t.slot k) : s = t := by
  obtain ⟨slots, p⟩ := s
  obtain ⟨slots', q⟩ := t
  simp only [mk.injEq]
  exact ⟨Vector.ext fun k hk => hs ⟨k, hk⟩, Int32.toInt_inj.mp hd⟩

@[simp] lemma depth_empty : empty.depth = 0 := rfl

lemma depth_eq_zero_iff : s.depth = 0 ↔ s.pointer = 0 := by
  rw [depth, ← Int32.toInt_zero, Int32.toInt_inj]

@[simp] lemma slot_empty (k : Fin 16) : empty.slot k = 0 := by
  simp [slot, empty]

/-! ### Pushing and popping -/

/-- A write changes the slot that the pointer stands for, if there is one. -/
lemma slot_write_eq (s : CallStack) (p : Int32) (a : UInt16) (k : Fin 16) :
    (s.write p a).slot k = if (k : Int) = locate p then a else s.slot k := by
  unfold write
  split
  · rw [if_neg (by omega)]
  · simp only [slot, Vector.getElem_setIfInBounds]
    exact if_congr (by omega) rfl rfl

/-- A read takes the slot that the pointer stands for, or the one nearest to it. -/
lemma read_eq_slot {p : Int32} {k : Fin 16} (h : (k : Nat) = min (locate p).toNat 15) :
    s.read p = s.slot k := by
  simp only [read, slot, h]

lemma locate_of_nonneg {p : Int32} (h₀ : 0 ≤ p.toInt) : locate p = p.toInt :=
  if_neg (by omega)

lemma slot_write {p : Int32} (h₀ : 0 ≤ p.toInt) (a : UInt16) (k : Fin 16) :
    (s.write p a).slot k = if (k : Int) = p.toInt then a else s.slot k := by
  rw [slot_write_eq, locate_of_nonneg h₀]

lemma toInt_add_one {p : Int32} (h₀ : 0 ≤ p.toInt) (h : p.toInt < 16) :
    (p + 1).toInt = p.toInt + 1 := by
  rw [Int32.toInt_add, Int32.toInt_one]
  exact Int.bmod_eq_of_le (by omega) (by omega)

lemma toInt_sub_one {p : Int32} (h₀ : 0 < p.toInt) (h : p.toInt ≤ 16) :
    (p - 1).toInt = p.toInt - 1 := by
  rw [Int32.toInt_sub, Int32.toInt_one]
  exact Int.bmod_eq_of_le (by omega) (by omega)

lemma depth_push (h₀ : 0 ≤ s.depth) (h : s.depth < 16) (a : UInt16) :
    (s.push a).depth = s.depth + 1 :=
  toInt_add_one h₀ h

lemma slot_push (h₀ : 0 ≤ s.depth) (a : UInt16) (k : Fin 16) :
    (s.push a).slot k = if (k : Int) = s.depth then a else s.slot k :=
  slot_write h₀ a k

lemma depth_pop (h₀ : 0 < s.depth) (h : s.depth ≤ 16) : s.pop.depth = s.depth - 1 :=
  toInt_sub_one h₀ h

lemma slot_pop (h₀ : 0 < s.depth) (h : s.depth ≤ 16) (k : Fin 16) :
    s.pop.slot k = if (k : Int) = s.depth - 1 then 0 else s.slot k := by
  have hp : (s.pointer - 1).toInt = s.depth - 1 := toInt_sub_one h₀ h
  rw [← hp]
  exact slot_write (by omega) 0 k

/-- The address that was pushed last is in the slot below the pointer. -/
lemma top_eq_slot {k : Fin 16} (h : s.depth = k + 1) : s.top = s.slot k := by
  have hp : (s.pointer - 1).toInt = k := by
    rw [toInt_sub_one (p := s.pointer) (by rw [← depth]; omega) (by rw [← depth]; omega), ← depth]
    omega
  rw [top]
  apply read_eq_slot
  rw [locate_of_nonneg (by omega), hp]
  omega

/-! ### Regular stacks -/

/-- The pointer is at one of the slots or behind the last one. Below it are addresses at which a
program may continue, and nothing is left behind in the other slots. -/
structure Regular (s : CallStack) : Prop where
  depth_nonneg : 0 ≤ s.depth
  depth_le : s.depth ≤ 16
  slot_free : ∀ k : Fin 16, s.depth ≤ k → s.slot k = 0
  two_le_slot : ∀ k : Fin 16, k < s.depth → 2 ≤ (s.slot k).toNat
  slot_le : ∀ k : Fin 16, k < s.depth → (s.slot k).toNat ≤ 0x1000

namespace Regular

protected lemma empty : Regular empty where
  depth_nonneg := by simp
  depth_le := by simp
  slot_free k _ := slot_empty k
  two_le_slot k hk := absurd hk (by simp)
  slot_le k hk := absurd hk (by simp)

/-- The slot of the last address, if there is one. -/
lemma exists_slot_below (h : s.Regular) (h₀ : s.depth ≠ 0) : ∃ k : Fin 16, s.depth = k + 1 := by
  have h₁ := h.depth_nonneg
  have h₂ := h.depth_le
  exact ⟨⟨(s.depth - 1).toNat, by omega⟩, by simp only; omega⟩

lemma top_le (h : s.Regular) (h₀ : s.depth ≠ 0) : s.top.toNat ≤ 0x1000 := by
  obtain ⟨k, hk⟩ := h.exists_slot_below h₀
  rw [top_eq_slot hk]
  exact h.slot_le k (by omega)

lemma push (h : s.Regular) (hs : s.depth < 16) {a : UInt16} (h₂ : 2 ≤ a.toNat)
    (ha : a.toNat ≤ 0x1000) : (s.push a).Regular := by
  have hd := depth_push h.depth_nonneg hs a
  have hk := slot_push h.depth_nonneg a
  have h₀ := h.depth_nonneg
  refine ⟨by omega, by omega, fun k hle => ?_, fun k hlt => ?_, fun k hlt => ?_⟩
  · rw [hk, if_neg (by omega)]
    exact h.slot_free k (by omega)
  · rw [hk]
    split
    · exact h₂
    · exact h.two_le_slot k (by omega)
  · rw [hk]
    split
    · exact ha
    · exact h.slot_le k (by omega)

lemma pop (h : s.Regular) (hs : s.depth ≠ 0) : s.pop.Regular := by
  have h₀ := h.depth_nonneg
  have h₁ := h.depth_le
  have hd := depth_pop (s := s) (by omega) h₁
  have hk := slot_pop (s := s) (by omega) h₁
  refine ⟨by omega, by omega, fun k hle => ?_, fun k hlt => ?_, fun k hlt => ?_⟩
  · rw [hk]
    split
    · rfl
    · exact h.slot_free k (by omega)
  · rw [hk, if_neg (by omega)]
    exact h.two_le_slot k (by omega)
  · rw [hk, if_neg (by omega)]
    exact h.slot_le k (by omega)

end Regular

/-! ### Frames -/

/-- The slots below `n` hold the same addresses. -/
def SameBelow (n : Int) (s t : CallStack) : Prop :=
  ∀ k : Fin 16, k < n → t.slot k = s.slot k

namespace SameBelow

variable {n : Int} {u : CallStack}

protected lemma refl (n : Int) (s : CallStack) : SameBelow n s s :=
  fun _ _ => rfl

protected lemma trans (h : SameBelow n s t) (h' : SameBelow n t u) : SameBelow n s u :=
  fun k hk => (h' k hk).trans (h k hk)

/-- A push fills a slot above. -/
lemma push (h₀ : 0 ≤ s.depth) (h : n ≤ s.depth) (a : UInt16) : SameBelow n s (s.push a) := by
  intro k hk
  rw [slot_push h₀, if_neg (by omega)]

/-- A pop clears a slot above, if it does not go below `n`. -/
lemma pop (h₀ : 0 < s.depth) (h₁ : s.depth ≤ 16) (h : n < s.depth) : SameBelow n s s.pop := by
  intro k hk
  rw [slot_pop h₀ h₁, if_neg (by omega)]

/-- A pop gives back what a push has put on the stack and brings back the stack from before, if
nothing else has changed below. -/
theorem top_and_pop_eq {a : UInt16} (h : SameBelow (s.depth + 1) (s.push a) t) (hs : s.Regular)
    (ht : t.Regular) (hd : t.depth = s.depth + 1) : t.top = a ∧ t.pop = s := by
  have h₀ := hs.depth_nonneg
  have h₁ := ht.depth_le
  have hslot : ∀ k : Fin 16, k < s.depth + 1 →
      t.slot k = if (k : Int) = s.depth then a else s.slot k := by
    intro k hk
    rw [h k hk, slot_push h₀]
  constructor
  · obtain ⟨k, hk⟩ := ht.exists_slot_below (by omega)
    rw [top_eq_slot hk, hslot k (by omega), if_pos (by omega)]
  · have hpop := depth_pop (s := t) (by omega) h₁
    refine CallStack.ext (by omega) fun k => ?_
    rw [slot_pop (by omega) h₁]
    -- the slot of the push is free again, and those above it are free in both stacks
    split
    · exact (hs.slot_free k (by omega)).symm
    · by_cases hk : (k : Int) < s.depth
      · rw [hslot k (by omega), if_neg (by omega)]
      · rw [hs.slot_free k (by omega), ht.slot_free k (by omega)]

end SameBelow

end Chip8.CallStack
