import Chip8.Proofs.Console.History
import Chip8.Proofs.Machine.Ownership
import Mathlib.Algebra.Group.Int.Defs

/-!
# Loading a list of items

A host may load any list of items. The first item that is no byte decides the error, before the
length of the list is looked at (`Console.startValue_of_refused`). A list of bytes that fits into
memory starts on a fresh machine, behind the glyphs and with zeros around it (`Console.load_items`).
-/

namespace Chip8

/-! ### Items -/

namespace Host.Value

/-- Why an item of a list is no byte, if it is none. Truth values are numbers. -/
def refusal? : Value → Option Misuse
  | .integer z => if 0 ≤ z ∧ z ≤ 255 then none else some .itemOutOfRange
  | .flag _ => none
  | v => some (.notInteger v.kind)

lemma byte_of_refusal?_eq_some {v : Value} {m : Misuse} (h : v.refusal? = some m) :
    v.byte = .error m := by
  cases v with
  | integer z =>
    simp only [refusal?] at h
    split at h
    · cases h
    next hz =>
      obtain rfl := Option.some.inj h
      exact if_neg (by omega)
  | flag b => cases h
  | _ =>
    obtain rfl := Option.some.inj h
    rfl

/-- The byte of an item that is not refused is the number that the item stands for. -/
lemma exists_byte_of_refusal?_eq_none {v : Value} (h : v.refusal? = none) :
    ∃ b, v.byte = .ok b ∧ v.index? = some (b.toNat : Int) := by
  cases v with
  | integer z =>
    simp only [refusal?] at h
    split at h
    next hz =>
      refine ⟨UInt8.ofNat z.toNat, if_pos (by omega), ?_⟩
      rw [index?, UInt8.toNat_ofNat']
      congr 1
      omega
    · cases h
  | flag b => cases b <;> exact ⟨_, rfl, rfl⟩
  | _ => cases h

variable {items : List Value}

/-- The items are looked at from the left, so the first that is refused decides. -/
lemma mapM_byte_of_refused {m : Misuse} (h : items.findSome? refusal? = some m) :
    items.mapM byte = .error m := by
  induction items with
  | nil => cases h
  | cons v items ih =>
    rw [List.findSome?_cons] at h
    rw [List.mapM_cons]
    split at h
    next hv =>
      obtain rfl := Option.some.inj h
      rw [byte_of_refusal?_eq_some hv]
      rfl
    next hv =>
      obtain ⟨b, hb, -⟩ := exists_byte_of_refusal?_eq_none hv
      rw [hb, ih h]
      rfl

/-- If no item is refused, the bytes are the numbers of the items. -/
lemma exists_mapM_byte (h : items.findSome? refusal? = none) :
    ∃ image, items.mapM byte = .ok image ∧
      items.map index? = image.map fun b => some (b.toNat : Int) := by
  induction items with
  | nil => exact ⟨[], rfl, rfl⟩
  | cons v items ih =>
    rw [List.findSome?_cons] at h
    split at h
    next hv => cases h
    next hv =>
      obtain ⟨b, hb, hindex⟩ := exists_byte_of_refusal?_eq_none hv
      obtain ⟨image, himage, hitems⟩ := ih h
      refine ⟨b :: image, ?_, ?_⟩
      · rw [List.mapM_cons, hb, himage]
        rfl
      · rw [List.map_cons, hindex, hitems, List.map_cons]

end Host.Value

open Host

/-! ### Machines -/

/-- The bytes that have been written one after the other, read one by one. -/
lemma Memory.getElem?_eq_read_writeAll (m : Memory) {a i : Nat} {bs : List UInt8}
    (hi : i < bs.length) (ha : a + i < 4096) : bs[i]? = some ((m.writeAll a bs).read (a + i)) := by
  rw [read_writeAll m a (a + i) bs ha, if_pos (Nat.le_add_right a i), Nat.add_sub_cancel_left,
    List.getD_eq_getElem _ _ hi, List.getElem?_eq_getElem hi]

/-- The first key for a seed holds the seed modulo `2 ^ 32`. -/
lemma Random.toNat_snd_ofSeed (seed : Int64) :
    ((ofSeed seed).snd.toNat : Int) = seed.toInt % 2 ^ 32 := by
  have hkey : (ofSeed seed).snd = UInt32.ofNat (seed.toInt % 2 ^ 32).toNat := rfl
  rw [hkey, UInt32.toNat_ofNat']
  omega

namespace Machine

variable {m m' : Machine} {image : List UInt8}

/-- The bytes of the image stand behind the start of programs, and nothing else has changed. -/
structure Replaces (image : List UInt8) (m m' : Machine) : Prop where
  byte : ∀ i < image.length, image[i]? = some (m'.memory.read (0x200 + i))
  other : ∀ a < 4096, a < 0x200 ∨ 0x200 + image.length ≤ a → m'.memory.read a = m.memory.read a
  rest : m' = { m with memory := m'.memory }

lemma replaces_writeAll (m : Machine) (h : image.length ≤ 3584) :
    Replaces image m { m with memory := m.memory.writeAll 0x200 image } where
  byte i hi := Memory.getElem?_eq_read_writeAll _ hi (by omega)
  other a ha hout := Memory.read_writeAll_of_not_mem ha (by omega)
  rest := rfl

/-- An image is refused if it is too large, and else it replaces just the bytes behind the start of
programs. -/
theorem load_cases (m : Machine) (image : List UInt8) :
    (3584 < image.length ∧ m.load image = .error (.imageTooLarge image.length 3584)) ∨
      (image.length ≤ 3584 ∧ ∃ m', m.load image = .ok m' ∧ Replaces image m m') := by
  rcases Nat.lt_or_ge 3584 image.length with h | h
  · exact .inl ⟨h, if_pos h⟩
  · exact .inr ⟨h, _, load_eq_ok_iff.mpr ⟨h, rfl⟩, replaces_writeAll m h⟩

/-- The machine on which a list of items begins to run. It holds the numbers of the items, the
glyphs and the key for the seed, and is zero, dark, up or empty in all other parts. -/
structure Loaded (seed : Int64) (items : List Value) (m : Machine) : Prop where
  item : ∀ i < items.length,
    items[i]?.bind Value.index? = some ((m.memory.read (0x200 + i)).toNat : Int)
  font : ∀ k < 80, Font.bytes[k]? = some (m.memory.read (0x50 + k))
  blank : ∀ a < 4096, a < 0x50 ∨ (0xA0 ≤ a ∧ a < 0x200) ∨ 0x200 + items.length ≤ a →
    m.memory.read a = 0
  pc : m.pc = 0x200
  random : m.random.fst = 0 ∧ (m.random.snd.toNat : Int) = seed.toInt % 2 ^ 32
  rest : m = { zero with memory := m.memory, pc := m.pc, random := m.random }

lemma memory_started (seed : Int64) (image : List UInt8) :
    (started seed image).memory = (Memory.zero.writeAll 0x50 Font.bytes).writeAll 0x200 image := rfl

lemma loaded_started (seed : Int64) {items : List Value}
    (h : items.map Value.index? = image.map fun b => some (b.toNat : Int))
    (hlength : image.length ≤ 3584) : Loaded seed items (started seed image) := by
  have hitems : items.length = image.length := by
    simpa using congrArg List.length h
  have hfont : Font.bytes.length = 80 := rfl
  constructor
  · intro i hi
    rw [hitems] at hi
    have hbyte := Memory.getElem?_eq_read_writeAll
      (Memory.zero.writeAll 0x50 Font.bytes) hi (by omega : 0x200 + i < 4096)
    have hi' := congrArg (·[i]?) h
    simp only [List.getElem?_map, hbyte, Option.map_eq_some_iff, Option.map_some] at hi'
    obtain ⟨v, hv, hindex⟩ := hi'
    rw [hv, memory_started]
    exact hindex
  · intro k hk
    rw [memory_started, Memory.read_writeAll_of_not_mem (by omega) (by omega)]
    exact Memory.getElem?_eq_read_writeAll _ (by omega) (by omega)
  · intro a ha hout
    rw [memory_started, Memory.read_writeAll_of_not_mem ha (by omega),
      Memory.read_writeAll_of_not_mem ha (by omega), Memory.read_zero]
  · rfl
  · exact ⟨rfl, Random.toNat_snd_ofSeed seed⟩
  · rfl

end Machine

namespace Console

variable {items : List Value}

/-- The first item that is refused decides the error, however long the list is. -/
lemma startValue_of_refused (c : Console) {m : Misuse}
    (h : items.findSome? Value.refusal? = some m) :
    c.startValue (.sequence items) = c.refuse m := by
  rw [startValue, Value.image, Value.mapM_byte_of_refused h]

/-- A list of bytes is started as an image. -/
lemma startValue_of_bytes (c : Console) (h : items.findSome? Value.refusal? = none) :
    ∃ image, items.map Value.index? = image.map (fun b => some (b.toNat : Int)) ∧
      c.startValue (.sequence items) = c.start image := by
  obtain ⟨image, himage, hitems⟩ := Value.exists_mapM_byte h
  refine ⟨image, hitems, ?_⟩
  rw [startValue, Value.image, himage]

lemma start_of_too_large (c : Console) {image : List UInt8} (h : 3584 < image.length) :
    let f := Fault.imageTooLarge image.length 3584
    c.start image = c.fail f (c.logger.error f.message) := by
  have hload : (Machine.fresh c.seed).load image = .error (.imageTooLarge image.length 3584) :=
    if_pos h
  rw [start, hload]

/-- A list of items is refused for its first item that is no byte, whatever its length. A list of
bytes faults if it is too large, and else the machine is fresh with these bytes behind the start of
programs. On any machine an image that is not too large replaces these bytes and nothing else. -/
theorem load_items (c : Console) (items : List Value) :
    (match items.findSome? Value.refusal? with
      | some m => c.startValue (.sequence items) = c.refuse m
      | none =>
        if 3584 < items.length then
          let f := Fault.imageTooLarge items.length 3584
          c.startValue (.sequence items) = c.fail f (c.logger.error f.message)
        else
          ∃ image m, items.map Value.index? = image.map (fun b => some (b.toNat : Int)) ∧
            (c.startValue (.sequence items)).answer = .ok .done ∧
            (c.startValue (.sequence items)).console =
              { c with image := some image, machine := m } ∧
            Machine.Loaded c.seed items m) ∧
      ∀ (m : Machine) (image : List UInt8),
        (3584 < image.length ∧ m.load image = .error (.imageTooLarge image.length 3584)) ∨
          (image.length ≤ 3584 ∧ ∃ m', m.load image = .ok m' ∧ Machine.Replaces image m m') := by
  refine ⟨?_, Machine.load_cases⟩
  split
  next m hm => exact startValue_of_refused c hm
  next hnone =>
    obtain ⟨image, hitems, hstart⟩ := startValue_of_bytes c hnone
    have hlength : items.length = image.length := by
      simpa using congrArg List.length hitems
    rw [hstart, hlength]
    split
    next hlarge => exact start_of_too_large c hlarge
    next hfits =>
      have hok := answer_start (c := c) (Nat.le_of_not_lt hfits)
      exact ⟨image, .started c.seed image, hitems, hok,
        Starts.console_eq .start hok, Machine.loaded_started c.seed hitems (Nat.le_of_not_lt hfits)⟩

end Console

end Chip8
