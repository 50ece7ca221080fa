import Chip8.Proofs.Instruction.Grammar

/-!
# Words that are selected by digits

The machine looks at fewer digits of a word than the table of forms. It runs a word as the one in
which the digits that it does not look at are those of an instruction
(`Instruction.encode_of_dispatch?`). Only comparisons of two registers and skips by a key have such
digits.
-/

namespace Chip8

/-- The word that the machine takes a word for. The last digit of a comparison of two registers
does not count, and of the last two digits of a skip by a key only whether they are those of the
negative one. -/
def Word.resolved (w : Word) : Word :=
  match w.kind with
  | 0x5 | 0x9 => { w with n := 0x0 }
  | 0xE => if w.byte = 0xA1 then w else { w with y := 0x9, n := 0xE }
  | _ => w

namespace Word

variable {w : Word}

@[simp] lemma kind_resolved (w : Word) : w.resolved.kind = w.kind := by
  unfold resolved
  split
  case h_3 => split <;> rfl
  all_goals rfl

@[simp] lemma x_resolved (w : Word) : w.resolved.x = w.x := by
  unfold resolved
  split
  case h_3 => split <;> rfl
  all_goals rfl

/-- The kinds of words that have digits that do not count. -/
def looseKinds : List (Fin 16) := [0x5, 0x9, 0xE]

/-- In words of the other kinds every digit counts. -/
lemma resolved_eq_self (h : looseKinds.contains w.kind = false) : w.resolved = w := by
  unfold resolved
  split
  case h_4 => rfl
  all_goals
    next hk =>
      rw [hk] at h
      exact absurd h (by decide)

lemma toNat_ofInt_eq (z : Int) : (ofInt z).toNat = (z % 65536).toNat := by
  have h := toNat_ofInt z
  omega

@[simp] lemma ofInt_emod (z : Int) : ofInt (z % 65536) = ofInt z := by
  rw [ofInt, ofInt, Int.emod_emod]

lemma resolved_of_comparison (h : w.kind = 0x5 ∨ w.kind = 0x9) :
    w.resolved = { w with n := 0x0 } := by
  obtain ⟨k, x, y, n⟩ := w
  rcases h with rfl | rfl <;> rfl

lemma resolved_of_keySkip (h : w.kind = 0xE) :
    w.resolved = if w.byte = 0xA1 then w else { w with y := 0x9, n := 0xE } := by
  obtain ⟨k, x, y, n⟩ := w
  obtain rfl : k = 0xE := h
  rfl

end Word

/-- The lowest sixteen bits of a number are an instance of a template. -/
def Matches (z : Int) (template : String) : Prop :=
  isInstance template (z % 65536).toNat = true

namespace Instruction

variable {z : Int} {i : Instruction}

lemma encode_of_ofNumber? (h : ofNumber? z = some i) :
    z = i.encode.toNat ∧ i.encode = Word.ofInt z := by
  unfold ofNumber? at h
  split at h
  next hz =>
    obtain rfl := Option.some.inj h
    exact ⟨hz, hz ▸ by decide⟩
  · split at h
    next hz =>
      obtain rfl := Option.some.inj h
      exact ⟨hz, hz ▸ by decide⟩
    · cases h

/-- The last two digits of an instruction of kind F are those that select it. -/
lemma encode_of_ofByte? {x : Fin 16} {b : UInt8} (h : ofByte? x b = some i) :
    i.encode = .ofByte 0xF x b := by
  unfold ofByte? at h
  split at h
  case h_10 => cases h
  all_goals
    obtain rfl := Option.some.inj h
    rfl

/-- The instruction that the machine runs for a number is written as the word that the machine
takes its lowest sixteen bits for. -/
theorem encode_of_dispatch? (h : dispatch? z = some i) :
    i.encode = (Word.ofInt z).resolved := by
  unfold dispatch? at h
  generalize hw : Word.ofInt z = w at h
  obtain ⟨k, x, y, n⟩ := w
  dsimp only at h
  split at h
  case h_1 => exact (encode_of_ofNumber? h).2.trans hw
  -- kinds with an address, with a byte and with two registers
  case h_2 | h_3 | h_11 | h_12 =>
    obtain rfl := Option.some.inj h
    exact Word.ofAddress_address _ _ _ _
  case h_4 | h_5 | h_7 | h_8 | h_13 =>
    obtain rfl := Option.some.inj h
    exact Word.ofByte_byte _ _ _ _
  case h_6 | h_10 | h_14 =>
    obtain rfl := Option.some.inj h
    rfl
  case h_9 =>
    obtain ⟨op, hop, rfl⟩ := Option.map_eq_some_iff.mp h
    obtain rfl := Operation.ofCode?_eq_some_iff.mp hop
    rfl
  case h_15 =>
    obtain rfl := Option.some.inj h
    simp only [Word.resolved]
    split
    next hb =>
      rw [← Word.ofByte_byte 0xE x y n, hb]
      rfl
    · rfl
  case h_16 =>
    obtain rfl : k = 0xF := by grind
    exact (encode_of_ofByte? h).trans (Word.ofByte_byte 0xF x y n)

lemma template_mem_all (i : Instruction) : i.template ∈ Template.all := by
  obtain ⟨f, hf, -, hread⟩ := exists_form_of_ofWord? (ofWord?_encode i)
  rw [← map_template_read i.encode, ← hread]
  exact List.mem_map_of_mem (f := fun f => (f.read i.encode).template) hf

/-! ### What a number tells about the instruction that it runs -/

section

variable (h : dispatch? z = some i)
include h

lemma kind_of_dispatch? : (Word.ofInt z).kind = i.encode.kind := by
  rw [encode_of_dispatch? h, Word.kind_resolved]

lemma x_of_dispatch? : (Word.ofInt z).x = i.encode.x := by
  rw [encode_of_dispatch? h, Word.x_resolved]

/-- Instructions of kind 0 run for their own number alone. -/
lemma eq_of_dispatch? (hi : i.encode.kind = 0x0) : z = i.encode.toNat := by
  have hk := (kind_of_dispatch? h).trans hi
  unfold dispatch? at h
  simp only [hk] at h
  exact (encode_of_ofNumber? h).1

/-- Apart from comparisons of registers and skips by a key, the number is an instance of the
template of its instruction. -/
lemma matches_template {template : String} (ht : i.template = template)
    (hi : Word.looseKinds.contains i.encode.kind = false) : Matches z template := by
  rw [← kind_of_dispatch? h] at hi
  have hw : i.encode = Word.ofInt z := (encode_of_dispatch? h).trans (Word.resolved_eq_self hi)
  rw [Matches, ← Word.toNat_ofInt_eq, ← hw, ← ht, isInstance_encode i.template_mem_all]

end

/-! ### Numbers that run the same instruction -/

lemma ofNumber?_eq_none (hz : z ≠ 0x00E0) (hz' : z ≠ 0x00EE) : ofNumber? z = none := by
  rw [ofNumber?, if_neg hz, if_neg hz']

/-- Beyond its lowest sixteen bits a number counts only for the instructions of kind 0, which it
does not run if it is not their number. -/
theorem dispatch?_emod (z : Int) :
    dispatch? z =
      if (z % 65536 = 0x00E0 ∨ z % 65536 = 0x00EE) ∧ z ≠ z % 65536 then none
      else dispatch? (z % 65536) := by
  split
  next h =>
    have hk : (Word.ofInt z).kind = 0x0 := by
      rw [← Word.ofInt_emod]
      rcases h.1 with hz | hz <;> rw [hz] <;> rfl
    simp only [dispatch?, hk]
    exact ofNumber?_eq_none (by omega) (by omega)
  next h =>
    have hn : ofNumber? z = ofNumber? (z % 65536) := by
      by_cases hz : z = z % 65536
      · rw [← hz]
      · rw [ofNumber?_eq_none (by omega) (by omega), ofNumber?_eq_none (by omega) (by omega)]
    simp only [dispatch?, Word.ofInt_emod, hn]

section

variable {w : Word}

/-- Every word of a kind that has digits that do not count runs some instruction. -/
lemma isSome_dispatch?_of_loose (h : Word.looseKinds.contains w.kind = true) :
    (dispatch? w.toNat).isSome = true := by
  simp only [Word.looseKinds, List.contains_cons, List.contains_nil, Bool.or_false,
    Bool.or_eq_true, beq_iff_eq] at h
  rcases h with h | h | h <;> simp [dispatch?, h]

/-- The digits that do not count make no difference to what a word runs. -/
theorem dispatch?_resolved (w : Word) : dispatch? w.resolved.toNat = dispatch? w.toNat := by
  cases h : dispatch? w.toNat with
  | some i =>
    have hi := encode_of_dispatch? h
    rw [Word.ofInt_natCast, Word.ofNat_toNat] at hi
    rw [← hi]
    exact dispatch?_of_ofWord? (ofWord?_encode i)
  | none =>
    have hw : Word.looseKinds.contains w.kind = false := by
      by_contra hw
      have hsome := isSome_dispatch?_of_loose (Bool.of_not_eq_false hw)
      rw [h] at hsome
      cases hsome
    rw [Word.resolved_eq_self hw, h]

/-- A word that the machine takes as it is runs nothing but the instruction that it is. -/
lemma ofWord?_of_dispatch? (h : dispatch? w.toNat = some i) (hw : w.resolved = w) :
    ofWord? w = some i := by
  have hi := encode_of_dispatch? h
  rw [Word.ofInt_natCast, Word.ofNat_toNat, hw] at hi
  exact ofWord?_eq_some_iff.mpr hi.symm

end

end Instruction

end Chip8
