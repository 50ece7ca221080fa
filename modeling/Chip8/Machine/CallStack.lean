import Chip8.Size

/-!
# Call stack

The stack has sixteen slots for return addresses and a pointer to the first free slot. The
pointer is a 32-bit number that nothing confines to the slots. One below zero counts from the
end of the stack. Where even that names no slot, a read takes the nearest slot and a write is
dropped.
-/

namespace Chip8

/-- Return addresses and the pointer to the first free slot. -/
structure CallStack where
  slots : Vector UInt16 16
  pointer : Int32
deriving DecidableEq

namespace CallStack

def size : Nat := 16

def empty : CallStack := ⟨.replicate 16 0, 0⟩

/-- The slot number that a pointer stands for. -/
def locate (p : Int32) : Int :=
  if p.toInt < 0 then p.toInt + 16 else p.toInt

/-- The slot that a pointer stands for, or the slot nearest to it. -/
def read (s : CallStack) (p : Int32) : UInt16 :=
  s.slots[min (locate p).toNat 15]

/-- Put an address into the slot that a pointer stands for, if there is one. -/
def write (s : CallStack) (p : Int32) (a : UInt16) : CallStack :=
  if locate p < 0 then s else { s with slots := s.slots.setIfInBounds (locate p).toNat a }

/-- The address goes into the first free slot. -/
def push (s : CallStack) (a : UInt16) : CallStack :=
  { s.write s.pointer a with pointer := s.pointer + 1 }

/-- The address that was pushed last. -/
def top (s : CallStack) : UInt16 :=
  s.read (s.pointer - 1)

/-- The slot that becomes free is cleared. -/
def pop (s : CallStack) : CallStack :=
  { s.write (s.pointer - 1) 0 with pointer := s.pointer - 1 }

/-- The number of slots below the pointer. A pointer below zero leaves out slots at the end. -/
def visibleCount (p : Int32) : Nat :=
  if p.toInt < 0 then (p.toInt + 16).toNat else p.toInt.toNat

/-- The addresses below the pointer, the oldest first. -/
def visible (s : CallStack) : List UInt16 :=
  s.slots.toList.take (visibleCount s.pointer)

@[simp] theorem visible_empty : empty.visible = [] := rfl

/-- No more addresses are visible than there are slots. A pointer below zero leaves out as many
slots at the end as it says, and all of them from -16 on. -/
theorem length_visible (s : CallStack) :
    s.visible.length =
      if s.pointer.toInt < 0 then (s.pointer.toInt + 16).toNat
      else min s.pointer.toInt.toNat 16 := by
  rw [visible, List.length_take, Vector.length_toList, visibleCount]
  split <;> omega

/-- The visible addresses are those of the first slots. -/
theorem getElem?_visible (s : CallStack) {k : Nat} (hk : k < s.visible.length) :
    s.visible[k]? = s.slots[k]? := by
  rw [visible, List.length_take] at hk
  rw [visible, List.getElem?_take_of_lt (by omega), Vector.getElem?_toList]

@[simp] theorem pointer_write (s : CallStack) (p : Int32) (a : UInt16) :
    (s.write p a).pointer = s.pointer := by
  unfold write; split <;> rfl

@[simp] theorem pointer_push (s : CallStack) (a : UInt16) :
    (s.push a).pointer = s.pointer + 1 := rfl

@[simp] theorem pointer_pop (s : CallStack) : s.pop.pointer = s.pointer - 1 := rfl

end CallStack

end Chip8
