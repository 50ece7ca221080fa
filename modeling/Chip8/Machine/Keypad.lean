import Chip8.Size

/-!
# Keypad

The keypad has sixteen keys, each up or down.
-/

namespace Chip8

structure Keypad where
  keys : Vector Bool 16
deriving DecidableEq

namespace Keypad

def size : Nat := 16

def released : Keypad := ⟨.replicate 16 false⟩

def isDown (p : Keypad) (k : Fin 16) : Bool :=
  p.keys[k]

@[simp] theorem isDown_released (k : Fin 16) : released.isDown k = false := by
  simp [isDown, released]

@[ext] theorem ext {p q : Keypad} (h : ∀ k, p.isDown k = q.isDown k) : p = q := by
  obtain ⟨p⟩ := p
  obtain ⟨q⟩ := q
  congr 1
  exact Vector.ext fun k hk => h ⟨k, hk⟩

def set (p : Keypad) (k : Fin 16) (down : Bool) : Keypad :=
  ⟨p.keys.set k down⟩

theorem isDown_set (p : Keypad) (k j : Fin 16) (down : Bool) :
    (p.set k down).isDown j = if k = j then down else p.isDown j := by
  simp [isDown, set, Vector.getElem_set, Fin.ext_iff]

/-- The lowest key that is down. -/
def lowest? (p : Keypad) : Option (Fin 16) :=
  (List.finRange 16).find? p.isDown

theorem lowest?_eq_none_iff {p : Keypad} : p.lowest? = none ↔ ∀ k, p.isDown k = false := by
  simp [lowest?]

theorem isDown_of_lowest? {p : Keypad} {k : Fin 16} (h : p.lowest? = some k) :
    p.isDown k = true :=
  List.find?_some h

end Keypad

end Chip8
