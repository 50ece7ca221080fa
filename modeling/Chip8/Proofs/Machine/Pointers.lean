import Chip8.Proofs.Machine.Slots

/-!
# Pushing and popping at any pointer

Nothing confines the pointer of the call stack to its slots. Wherever it is, a pop after a push
brings it back. The pop returns the address of the push if the pointer stands for a slot, and then
it leaves this slot cleared. At all other pointers the stack stays as it was, and the pop returns
what is in the first slot or in the last one (`CallStack.pop_after_push`). From a pointer at the
slots, pops return addresses in the reverse order of their pushes, as long as there were slots left
for them (`CallStack.popAll_pushAll`).
-/

namespace Chip8.CallStack

variable {s : CallStack}

/-! ### A push and a pop -/

@[simp] lemma pointer_pop_push (s : CallStack) (a : UInt16) : (s.push a).pop.pointer = s.pointer :=
  Int32.add_sub_cancel _ _

/-- Both the push and the pop write to the slot that the pointer stands for. -/
lemma slot_pop_push (s : CallStack) (a : UInt16) (k : Fin 16) :
    (s.push a).pop.slot k = if (k : Int) = locate s.pointer then 0 else s.slot k := by
  have hpop : (s.push a).pop.slot k = ((s.push a).write (s.push a).pop.pointer 0).slot k := rfl
  have hpush : (s.push a).slot k = (s.write s.pointer a).slot k := rfl
  rw [hpop, pointer_pop_push, slot_write_eq, hpush, slot_write_eq]
  split <;> rfl

/-- The pop reads where the push has written. -/
lemma top_push (s : CallStack) (a : UInt16) :
    (s.push a).top = (s.write s.pointer a).read s.pointer := by
  have htop : (s.push a).top = (s.push a).read (s.push a).pop.pointer := rfl
  rw [htop, pointer_pop_push]
  rfl

/-! ### Which pointers stand for slots -/

section

variable {p : Int32}

lemma exists_located (h : -16 ≤ p.toInt ∧ p.toInt ≤ 15) :
    ∃ k : Fin 16, locate p = k ∧ (k : Int) = if p.toInt < 0 then p.toInt + 16 else p.toInt := by
  have hrange : 0 ≤ locate p ∧ locate p < 16 := by
    unfold locate
    omega
  exact ⟨⟨(locate p).toNat, toNat_lt_sixteen hrange⟩, (Int.toNat_of_nonneg hrange.1).symm,
    Int.toNat_of_nonneg hrange.1⟩

lemma not_located (h : ¬ (-16 ≤ p.toInt ∧ p.toInt ≤ 15)) (j : Fin 16) : (j : Int) ≠ locate p := by
  unfold locate
  omega

end

section

variable {k : Fin 16}

lemma top_push_of_located (h : locate s.pointer = k) (a : UInt16) : (s.push a).top = a := by
  have hk : (k : Nat) = min (locate s.pointer).toNat 15 := by omega
  rw [top_push, read_eq_slot hk, slot_write_eq, if_pos h.symm]

/-- All is as before if the slot was free. -/
lemma pop_push_eq_self_iff (h : locate s.pointer = k) (a : UInt16) :
    (s.push a).pop = s ↔ s.slot k = 0 := by
  constructor
  · intro hself
    rw [← hself, slot_pop_push, if_pos h.symm]
  · intro hfree
    refine CallStack.ext (congrArg Int32.toInt (pointer_pop_push s a)) fun j => ?_
    rw [slot_pop_push]
    split
    next hj =>
      obtain rfl : j = k := Fin.ext (by omega)
      exact hfree.symm
    · rfl

/-- Where the pointer stands for no slot, nothing is written, and the pop reads the nearest slot. -/
lemma pop_push_of_not_located (h : ¬ (-16 ≤ s.pointer.toInt ∧ s.pointer.toInt ≤ 15))
    (hk : (k : Nat) = min (locate s.pointer).toNat 15) (a : UInt16) :
    (∀ j, (s.push a).pop.slot j = s.slot j) ∧ (s.push a).top = s.slot k := by
  constructor
  · intro j
    rw [slot_pop_push, if_neg (not_located h j)]
  · rw [top_push, read_eq_slot hk, slot_write_eq, if_neg (not_located h k)]

end

/-- A pop that reads the same slot for all addresses does not return all of them. -/
lemma top_push_eq_iff :
    (∀ a, (s.push a).top = a) ↔ -16 ≤ s.pointer.toInt ∧ s.pointer.toInt ≤ 15 := by
  constructor
  · intro hall
    by_contra h
    obtain ⟨k, hk⟩ : ∃ k : Fin 16, (k : Nat) = min (locate s.pointer).toNat 15 :=
      ⟨⟨_, by omega⟩, rfl⟩
    have htop (a : UInt16) : s.slot k = a :=
      (pop_push_of_not_located h hk a).2.symm.trans (hall a)
    exact absurd ((htop 0).symm.trans (htop 1)) (by decide)
  · intro h a
    obtain ⟨k, hk, -⟩ := exists_located h
    exact top_push_of_located hk a

/-! ### Many pushes and pops -/

/-- Push addresses one after the other. -/
def pushAll (s : CallStack) (addresses : List UInt16) : CallStack :=
  addresses.foldl push s

/-- Pop `n` times. The addresses that this returns come with the stack that it leaves. -/
def popAll : Nat → CallStack → List UInt16 × CallStack
  | 0, s => ([], s)
  | n + 1, s => (s.top :: (popAll n s.pop).1, (popAll n s.pop).2)

/-- One more pop comes behind the others. -/
lemma popAll_succ (n : Nat) (s : CallStack) :
    popAll (n + 1) s = ((popAll n s).1 ++ [(popAll n s).2.top], (popAll n s).2.pop) := by
  induction n generalizing s with
  | zero => rfl
  | succ n ih => rw [popAll, ih s.pop, popAll, List.cons_append]

/-- The stack `t` is `s` with the next `n` slots cleared. -/
structure Cleared (n : Nat) (s t : CallStack) : Prop where
  pointer : t.pointer = s.pointer
  slot : ∀ k : Fin 16, t.slot k = if s.depth ≤ k ∧ k < s.depth + n then 0 else s.slot k

protected lemma Cleared.zero (s : CallStack) : Cleared 0 s s where
  pointer := rfl
  slot k := by
    split
    · omega
    · rfl

/-- A pop below the cleared slots returns the address of the push, and clears one more slot. -/
lemma Cleared.pop {n : Nat} {a : UInt16} {t : CallStack} (h : Cleared n (s.push a) t)
    (h₀ : 0 ≤ s.depth) (hs : s.depth < 16) : t.top = a ∧ Cleared (n + 1) s t.pop := by
  have hpush := depth_push h₀ hs a
  have hdepth : t.depth = s.depth + 1 := (congrArg Int32.toInt h.pointer).trans hpush
  constructor
  · obtain ⟨k, hk⟩ : ∃ k : Fin 16, (k : Int) = s.depth :=
      ⟨⟨s.depth.toNat, toNat_lt_sixteen ⟨h₀, hs⟩⟩, Int.toNat_of_nonneg h₀⟩
    rw [top_eq_slot (k := k) (by omega), h.slot, if_neg (by omega), slot_push h₀, if_pos hk]
  · refine ⟨?_, fun k => ?_⟩
    · rw [pointer_pop, h.pointer]
      exact pointer_pop_push s a
    · rw [slot_pop (by omega) (by omega), h.slot, slot_push h₀]
      by_cases hk : (k : Int) = s.depth
      · rw [if_pos (by omega), if_pos (by omega)]
      · rw [if_neg (by omega), if_neg hk]
        exact if_congr (by omega) rfl rfl

/-- As many pops as pushes return the addresses, the last one first, and clear their slots. -/
theorem popAll_pushAll (h₀ : 0 ≤ s.depth) {addresses : List UInt16}
    (h : s.depth + addresses.length ≤ 16) :
    ∃ t, popAll addresses.length (s.pushAll addresses) = (addresses.reverse, t) ∧
      Cleared addresses.length s t := by
  induction addresses generalizing s with
  | nil => exact ⟨s, rfl, .zero s⟩
  | cons a addresses ih =>
    rw [List.length_cons] at h
    have hs : s.depth < 16 := by omega
    have hpush := depth_push h₀ hs a
    -- The first address lies below the others, so it is popped last.
    obtain ⟨t, hpops, hcleared⟩ := ih (s := s.push a) (by omega) (by omega)
    obtain ⟨htop, hpop⟩ := hcleared.pop h₀ hs
    refine ⟨t.pop, ?_, hpop⟩
    have hpushes : s.pushAll (a :: addresses) = (s.push a).pushAll addresses := rfl
    rw [hpushes, List.length_cons, popAll_succ, hpops, htop, List.reverse_cons]

/-- A pop after a push brings the pointer back. From the sixteenth slot before the first one up to
the last one it returns the address and clears the slot, and elsewhere it returns what is in the
nearest slot and nothing changes. Many pops undo as many pushes from a pointer at the slots. -/
theorem pop_after_push (s : CallStack) :
    let p := s.pointer.toInt
    (∀ a, (s.push a).pop.pointer = s.pointer) ∧
      ((∀ a, (s.push a).top = a) ↔ -16 ≤ p ∧ p ≤ 15) ∧
      (-16 ≤ p → p ≤ 15 → ∃ k : Fin 16, (k : Int) = (if p < 0 then p + 16 else p) ∧ ∀ a,
        (∀ j, (s.push a).pop.slot j = if j = k then 0 else s.slot j) ∧
          ((s.push a).pop = s ↔ s.slot k = 0)) ∧
      (16 ≤ p → ∀ a, (∀ j, (s.push a).pop.slot j = s.slot j) ∧ (s.push a).top = s.slot 15) ∧
      (p < -16 → ∀ a, (∀ j, (s.push a).pop.slot j = s.slot j) ∧ (s.push a).top = s.slot 0) ∧
      ∀ addresses : List UInt16, 0 ≤ p → p + addresses.length ≤ 16 →
        ∃ t, popAll addresses.length (s.pushAll addresses) = (addresses.reverse, t) ∧
          t.pointer = s.pointer := by
  refine ⟨pointer_pop_push s, top_push_eq_iff, ?slot, ?above, ?below, ?many⟩
  case slot =>
    intro h h'
    obtain ⟨k, hlocated, hk⟩ := exists_located ⟨h, h'⟩
    refine ⟨k, hk, fun a => ⟨fun j => ?_, pop_push_eq_self_iff hlocated a⟩⟩
    rw [slot_pop_push, hlocated]
    exact if_congr (by omega) rfl rfl
  case above =>
    intro h
    have hlocate := locate_of_nonneg (p := s.pointer) (by omega)
    exact pop_push_of_not_located (by omega) (by rw [hlocate]; omega)
  case below =>
    intro h
    have hlocate : locate s.pointer = s.pointer.toInt + 16 := if_pos (by omega)
    exact pop_push_of_not_located (by omega) (by rw [hlocate]; omega)
  case many =>
    intro addresses h₀ h
    obtain ⟨t, hpops, hcleared⟩ := popAll_pushAll h₀ h
    exact ⟨t, hpops, hcleared.pointer⟩

/-- The first pointer that stands for a slot, the last one and their neighbours, and two addresses
that fill the stack. -/
theorem pop_after_push_at_edges :
    let s (p : Int32) : CallStack := ⟨.ofFn fun k => UInt16.ofNat (k + 1), p⟩
    ((s (-17)).push 0x200).top = 1 ∧
      (((s (-16)).push 0x200).top = 0x200 ∧ ((s (-16)).push 0x200).pop ≠ s (-16)) ∧
      ((s 15).push 0x200).pop.slot 15 = 0 ∧
      ((s 16).push 0x200).top = 16 ∧
      ∃ t, popAll 2 ((s 14).pushAll [0x200, 0x300]) = ([0x300, 0x200], t) ∧ t.pointer = 14 := by
  intro s
  obtain ⟨-, -, -, -, hbelow, -⟩ := pop_after_push (s (-17))
  obtain ⟨-, hreturns, hfirst, -⟩ := pop_after_push (s (-16))
  obtain ⟨-, -, hlast, -⟩ := pop_after_push (s 15)
  obtain ⟨-, -, -, habove, -, -⟩ := pop_after_push (s 16)
  obtain ⟨-, -, -, -, -, hmany⟩ := pop_after_push (s 14)
  obtain ⟨first, hslot, hcleared⟩ := hfirst (by decide) (by decide)
  obtain rfl : first = 0 := Fin.ext (Int.ofNat_inj.mp (hslot.trans (by decide)))
  obtain ⟨last, hslot', hcleared'⟩ := hlast (by decide) (by decide)
  obtain rfl : last = 15 := Fin.ext (Int.ofNat_inj.mp (hslot'.trans (by decide)))
  have hkept : ((s (-16)).push 0x200).pop ≠ s (-16) := fun h =>
    absurd ((hcleared 0x200).2.mp h) (by decide)
  exact ⟨(hbelow (by decide) 0x200).2, ⟨hreturns.mpr (by decide) 0x200, hkept⟩,
    (hcleared' 0x200).1 15, (habove (by decide) 0x200).2,
    hmany [0x200, 0x300] (by decide) (by decide)⟩

end Chip8.CallStack
