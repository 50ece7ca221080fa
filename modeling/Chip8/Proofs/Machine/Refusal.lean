import Chip8.Proofs.Instruction.Selection
import Chip8.Proofs.Machine.Frame

/-!
# Numbers that are no instruction

The machine can be given any number to run. Of a number that does not fit into sixteen bits it looks
at the lowest sixteen, and what the table of forms refuses to read as an instruction either leaves
the machine as it is or runs as a skip (`Machine.refused_words_skip_at_most`).
-/

namespace Chip8

namespace Instruction

variable {i : Instruction}

/-- The instructions of the kinds that have digits that do not count are skips. -/
lemma exists_skipIf_of_loose (h : Word.looseKinds.contains i.encode.kind = true) (d : Dialect)
    (m : Machine) : ∃ c, i.effect d m = m.skipIf c := by
  cases i with
  | skipIfSame | skipUnlessSame | skipIfPressed | skipUnlessPressed => exact ⟨_, rfl⟩
  | _ => cases h

end Instruction

namespace Machine

open Instruction

variable {d : Dialect} {m : Machine} {w : Word}

lemma execute_resolved (d : Dialect) (m : Machine) (w : Word) :
    m.execute d w.resolved.toNat = m.execute d w.toNat := by
  rw [execute, execute, dispatch?_resolved]

/-- A refused word is not taken as it is, or it runs nothing. -/
lemma execute_of_resolved_eq_self (h : ofWord? w = none) (hw : w.resolved = w) :
    m.execute d w.toNat = m := by
  cases hd : dispatch? w.toNat with
  | none => rw [execute, hd]
  | some i =>
    rw [ofWord?_of_dispatch? hd hw] at h
    cases h

lemma exists_execute_eq_skipIf (h : Word.looseKinds.contains w.kind = true) (d : Dialect)
    (m : Machine) : ∃ c, m.execute d w.toNat = m.skipIf c := by
  obtain ⟨i, hi⟩ := Option.isSome_iff_exists.mp (isSome_dispatch?_of_loose h)
  have hk : (Word.ofInt w.toNat).kind = i.encode.kind := kind_of_dispatch? hi
  rw [Word.ofInt_natCast, Word.ofNat_toNat] at hk
  rw [execute, hi]
  exact exists_skipIf_of_loose (hk ▸ h) d m

/-- A refused key skip runs as the positive one, because the negative one is not refused. -/
lemma resolved_of_refused_keySkip (h : ofWord? w = none) (hk : w.kind = 0xE) :
    w.resolved = { w with y := 0x9, n := 0xE } := by
  have hw := Word.resolved_of_keySkip hk
  split at hw
  next =>
    obtain ⟨i, hi⟩ := Option.isSome_iff_exists.mp
      (isSome_dispatch?_of_loose (w := w) (by rw [hk]; rfl))
    rw [ofWord?_of_dispatch? hi hw] at h
    cases h
  next => exact hw

lemma ofWord?_of_identify_eq_error {z : Int} {address : Option Int} {f : Fault}
    (h : identify z address = .error f) : ofWord? (.ofInt z) = none := by
  unfold identify at h
  split at h
  · cases h
  next hnone => exact hnone

/-- A number runs as its lowest sixteen bits do, except that the instructions of kind 0 run for
their own number alone. A word that is refused as an instruction changes nothing, unless it is a
comparison of two registers with a last digit other than zero, which runs as the one with zero, or
of the kind of the skips by a key, which runs as the positive one. So it changes at most the
counter, as a skip does. -/
theorem refused_words_skip_at_most (d : Dialect) (m : Machine) :
    (∀ z : Int, m.execute d z =
      if (z % 65536 = 0x00E0 ∨ z % 65536 = 0x00EE) ∧ z ≠ z % 65536 then m
      else m.execute d (z % 65536)) ∧
    ∀ (w : Word) (address : Option Int) (f : Fault), identify w.toNat address = .error f →
      (w.kind = 0x5 ∨ w.kind = 0x9 →
        m.execute d w.toNat = m.execute d ({ w with n := 0x0 } : Word).toNat) ∧
      (w.kind = 0xE →
        m.execute d w.toNat = m.execute d ({ w with y := 0x9, n := 0xE } : Word).toNat) ∧
      (w.kind ∉ [0x5, 0x9, 0xE] → m.execute d w.toNat = m) ∧
      (m.execute d w.toNat = m ∨ m.execute d w.toNat = { m with pc := m.pc + 2 }) := by
  constructor
  · intro z
    by_cases h : (z % 65536 = 0x00E0 ∨ z % 65536 = 0x00EE) ∧ z ≠ z % 65536
    · rw [execute, dispatch?_emod z, if_pos h, if_pos h]
    · rw [execute, dispatch?_emod z, if_neg h, if_neg h, execute]
  · intro w address f hf
    have hnone := ofWord?_of_identify_eq_error hf
    rw [Word.ofInt_natCast, Word.ofNat_toNat] at hnone
    have hidle : w.kind ∉ [0x5, 0x9, 0xE] → m.execute d w.toNat = m := by
      intro hk
      have hstrict : Word.looseKinds.contains w.kind = false :=
        Bool.eq_false_iff.mpr (mt List.contains_iff_mem.mp hk)
      exact execute_of_resolved_eq_self hnone (Word.resolved_eq_self hstrict)
    refine ⟨fun hk => ?_, fun hk => ?_, hidle, ?_⟩
    · rw [← execute_resolved d m w, Word.resolved_of_comparison hk]
    · rw [← execute_resolved d m w, resolved_of_refused_keySkip hnone hk]
    · by_cases hk : w.kind ∈ [0x5, 0x9, 0xE]
      · obtain ⟨c, hc⟩ := exists_execute_eq_skipIf (List.contains_iff_mem.mpr hk) d m
        cases c with
        | false => exact .inl hc
        | true => exact .inr hc
      · exact .inl (hidle hk)

/-- With two equal registers a comparison with a stray last digit skips. A number beyond sixteen
bits that ends in the word of a return does nothing, and neither does an operation without a
code. -/
theorem refused_words_skip_at_most_of_stray_digits :
    let m := Machine.fresh 0
    m.execute .legacy (-0xAED9) = m.execute .legacy 0x5127 ∧
      m.execute .legacy 0x5127 = m.execute .legacy 0x5120 ∧
      m.execute .legacy 0xE1FF = m.execute .legacy 0xE19E ∧
      m.execute .legacy 0x100EE = m ∧ m.execute .legacy 0x812F = m := by
  intro m
  obtain ⟨hwide, hrefused⟩ := refused_words_skip_at_most .legacy m
  obtain ⟨hcomparison, -⟩ := hrefused ⟨0x5, 0x1, 0x2, 0x7⟩ none _ rfl
  obtain ⟨-, hkeySkip, -⟩ := hrefused ⟨0xE, 0x1, 0xF, 0xF⟩ none _ rfl
  obtain ⟨-, -, hoperation, -⟩ := hrefused ⟨0x8, 0x1, 0x2, 0xF⟩ none _ rfl
  exact ⟨hwide (-0xAED9), hcomparison (.inl rfl), hkeySkip rfl, hwide 0x100EE,
    hoperation (by decide)⟩

end Machine

end Chip8
