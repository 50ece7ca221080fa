import Chip8.Proofs.Console.Run
import Chip8.Proofs.Instruction.Grammar
import Chip8.Proofs.Machine.Frame
import Chip8.Proofs.Machine.Step
import Mathlib.Logic.Function.Iterate

/-!
# Random bytes of a run

The random bytes that programs draw form one sequence for each value of the lowest 32 bits of the
seed. How many bytes a program has drawn since its start decides which key the machine has and
which byte is drawn next (`Console.draws_follow_sequence`). Nothing else has a part in it: neither
the program nor the dialect, and neither keys, ticks and waits nor events that fail.
-/

namespace Chip8

namespace Random

/-- The bytes that are drawn one after the other, if `word` is the lowest 32 bits of the seed. -/
def sequence (word : UInt32) (j : Nat) : UInt8 :=
  byte (next^[j] ⟨0, word⟩)

/-- The first key for a seed holds the number of the seed modulo `2 ^ 32`. -/
lemma ofSeed_eq {z : Int} {seed : Int64} (h : seed? z = some seed) :
    ofSeed seed = ⟨0, UInt32.ofNat (z % 0x100000000).toNat⟩ := by
  have hmin : Int64.minValue.toInt = -2 ^ 63 := rfl
  have hmax : Int64.maxValue.toInt = 2 ^ 63 - 1 := rfl
  rw [seed?, hmin, hmax] at h
  split at h
  next hz =>
    obtain rfl := Option.some.inj h
    rw [ofSeed, Int64.toInt_ofInt_of_le hz.1 (by omega)]
    rfl
  · cases h

end Random

/-- What a program sees of a random byte: the mask of the instruction, and the value that the
register has afterwards. -/
structure Draw where
  mask : UInt8
  value : UInt8
deriving DecidableEq

namespace Draw

/-- The draws get the bytes of a sequence in order, each through its mask. -/
def Follow (bytes : Nat → UInt8) (draws : List Draw) : Prop :=
  ∀ j draw, draws[j]? = some draw → draw.value = bytes j &&& draw.mask

namespace Follow

variable {bytes : Nat → UInt8} {draws : List Draw}

lemma nil (bytes : Nat → UInt8) : Follow bytes [] := by
  intro j draw h
  cases h

lemma concat (h : Follow bytes draws) (mask : UInt8) :
    Follow bytes (draws ++ [⟨mask, bytes draws.length &&& mask⟩]) := by
  intro j draw hj
  rcases Nat.lt_trichotomy j draws.length with hlt | rfl | hlt
  · rw [List.getElem?_append_left hlt] at hj
    exact h j draw hj
  · rw [List.getElem?_concat_length] at hj
    obtain rfl := Option.some.inj hj
    rfl
  · rw [List.getElem?_eq_none (by rw [List.length_append]; exact hlt)] at hj
    cases hj

end Follow

end Draw

/-- The draws of a program after an event with this answer. A successful instance of `CXNN` adds
what it leaves in VX, and a start that succeeds begins anew. -/
def Event.noteDraw (e : Event) (answer : Except Host.Error Answer) (after : Machine)
    (draws : List Draw) : List Draw :=
  match answer with
  | .ok (.word n) =>
    let w := Word.ofNat n.toNat
    if isInstance "CXNN" n.toNat then draws ++ [⟨w.byte, after.registers.get w.x⟩] else draws
  | .ok .done => if e.isStart then [] else draws
  | .ok (.byte _) | .error _ => draws

/-! ### Instructions -/

namespace Instruction

lemma exists_random_of_template {i : Instruction} (h : i.template = "CXNN") :
    ∃ x mask, i = .random x mask := by
  cases i with
  | random x mask => exact ⟨x, mask, rfl⟩
  | operate op x y => cases op <;> simp [template] at h
  | _ => simp [template] at h

lemma random_effect_of_template_ne {i : Instruction} (h : i.template ≠ "CXNN") (d : Dialect)
    (m : Machine) : (i.effect d m).random = m.random := by
  rw [random_effect]
  cases i with
  | random x mask => exact absurd rfl h
  | _ => rfl

end Instruction

namespace Console

/-- What a run draws, as far as it belongs to the last program that has been started. -/
def draws (c : Console) (es : List Event) : List Draw :=
  c.record (fun c e => e.noteDraw (c.handle e).answer (c.handle e).console.machine) [] es

/-- The key of the machine and the draws of the program are where the sequence is after as many
bytes as have been drawn. -/
structure InSequence (seed : Int64) (word : UInt32) (c : Console) (draws : List Draw) : Prop where
  seed_eq : c.seed = seed
  random_eq : c.machine.random = Random.next^[draws.length] ⟨0, word⟩
  follow : Draw.Follow (Random.sequence word) draws

namespace InSequence

variable {seed : Int64} {word : UInt32} {c c' : Console} {e : Event} {draws : List Draw}

lemma started (hseed : Random.ofSeed seed = ⟨0, word⟩) (h : c.seed = seed)
    (hrandom : c.machine.random = Random.ofSeed seed) : c.InSequence seed word [] :=
  ⟨h, hrandom.trans hseed, .nil _⟩

/-- An instruction draws the next byte of the sequence or leaves the key alone. -/
lemma effect (h : c.InSequence seed word draws) (i : Instruction) (d : Dialect) {n : UInt16}
    (hn : n.toNat = i.encode.toNat) :
    { c with machine := i.effect d c.machine.advance }.InSequence seed word
      (Event.step.noteDraw (.ok (.word n)) (i.effect d c.machine.advance) draws) := by
  have hinstance := Instruction.isInstance_encode (t := "CXNN") (by decide) i
  simp only [Event.noteDraw, hn, Word.ofNat_toNat]
  split
  next hdraw =>
    obtain ⟨x, mask, rfl⟩ := Instruction.exists_random_of_template (hinstance.mp hdraw)
    have hvalue : ((Instruction.random x mask).effect d c.machine.advance).registers.get x =
        Random.sequence word draws.length &&& mask := by
      rw [Random.sequence, ← h.random_eq]
      exact Registers.get_set_self _ x _
    have hbyte : (Instruction.random x mask).encode.byte = mask := Word.byte_ofByte 0xC x mask
    have hx : (Instruction.random x mask).encode.x = x := rfl
    rw [hbyte, hx, hvalue]
    refine ⟨h.seed_eq, ?_, h.follow.concat mask⟩
    rw [List.length_append, List.length_singleton, Function.iterate_succ_apply', ← h.random_eq]
    exact Instruction.random_effect d _ _
  next hdraw =>
    have hrandom := Instruction.random_effect_of_template_ne (mt hinstance.mpr hdraw) d
      c.machine.advance
    exact ⟨h.seed_eq, hrandom.trans h.random_eq, h.follow⟩

/-- Every event keeps to the sequence: it draws the next byte, goes back to the first key with a
fresh machine, or leaves the key alone. -/
lemma of_transition (hseed : Random.ofSeed seed = ⟨0, word⟩) (h : c.InSequence seed word draws)
    {answer : Except Host.Error Answer} (ht : c.Transition e answer c') :
    c'.InSequence seed word (e.noteDraw answer c'.machine draws) := by
  cases ht with
  | fail | readByte => exact h
  | start hs hm =>
    obtain ⟨-, rfl⟩ := Machine.load_eq_ok_iff.mp hm
    simp only [Event.noteDraw, hs.isStart, if_true]
    exact started hseed h.seed_eq (congrArg Random.ofSeed h.seed_eq)
  | poll => exact ⟨h.seed_eq, (Machine.random_poll _).trans h.random_eq, h.follow⟩
  | step _ _ hs =>
    obtain ⟨hr, hs⟩ := Machine.step_eq_ok_iff.mp hs
    rw [hs]
    exact h.effect _ _ hr.word_eq
  | tick | setKey | writeByte => exact ⟨h.seed_eq, h.random_eq, h.follow⟩

end InSequence

lemma inSequence_draws {seed : Int64} {word : UInt32} (hseed : Random.ofSeed seed = ⟨0, word⟩)
    (d : Dialect) (logger : Log.Logger) (es : List Event) :
    ((new d seed logger).after es).InSequence seed word ((new d seed logger).draws es) :=
  record_induction (fun c e _ h => h.of_transition hseed (transition_handle c e)) es
    (.started hseed rfl rfl)

/-- After any run the key is the first one for the seed, replaced as often as the program has drawn
a byte, and the draws have got the bytes of the sequence that the seed modulo `2 ^ 32` determines.
So every run of any console gets the same bytes in the same order if the seeds agree modulo
`2 ^ 32`. -/
theorem draws_follow_sequence {z : Int} {seed : Int64} (hz : Random.seed? z = some seed)
    (d : Dialect) (logger : Log.Logger) (es : List Event) :
    let c := new d seed logger
    let word := UInt32.ofNat (z % 0x100000000).toNat
    (c.after es).machine.random = Random.next^[(c.draws es).length] ⟨0, word⟩ ∧
      Draw.Follow (Random.sequence word) (c.draws es) ∧
      ∀ (z' : Int) (seed' : Int64), Random.seed? z' = some seed' →
        z' % 0x100000000 = z % 0x100000000 → ∀ d' logger' es',
          Draw.Follow (Random.sequence word) ((new d' seed' logger').draws es') := by
  intro c word
  have h : (c.after es).InSequence seed word (c.draws es) :=
    inSequence_draws (Random.ofSeed_eq hz) d logger es
  refine ⟨h.random_eq, h.follow, ?_⟩
  intro z' seed' hz' hmod d' logger' es'
  have hseed' := Random.ofSeed_eq hz'
  rw [hmod] at hseed'
  exact (inSequence_draws hseed' d' logger' es').follow

/-- A program that ends with a fault and one that is started anew while it waits for a key, in
other dialects and with seeds that differ by `2 ^ 32`. -/
theorem draws_follow_sequence_of_two_programs :
    let es : List Event := [.start [0xC1, 0xFF, 0xC2, 0x0F], .step, .step, .step]
    let es' : List Event :=
      [.start [0xF0, 0x0A, 0xC3, 0xFF, 0xC4, 0xFF], .step, .tick, .reset,
        .setKey (.integer 2) (.flag true), .step, .step, .step]
    (new .modern 0x100000005 {}).draws es = [⟨0xFF, 1⟩, ⟨0x0F, 4⟩] ∧
      (new .legacy 5 {}).draws es' = [⟨0xFF, 1⟩, ⟨0xFF, 180⟩] ∧
      ((new .modern 0x100000005 {}).after es).machine.random = Random.next^[2] ⟨0, 5⟩ ∧
      Draw.Follow (Random.sequence 5) ((new .modern 0x100000005 {}).draws es) ∧
      Draw.Follow (Random.sequence 5) ((new .legacy 5 {}).draws es') := by
  intro es es'
  have hz : Random.seed? 0x100000005 = some 0x100000005 := by decide +kernel
  have hz' : Random.seed? 5 = some 5 := by decide +kernel
  have hword : UInt32.ofNat ((0x100000005 : Int) % 0x100000000).toNat = 5 := by decide
  have hdraws : (new .modern 0x100000005 {}).draws es = [⟨0xFF, 1⟩, ⟨0x0F, 4⟩] := by
    decide +kernel
  have hdraws' : (new .legacy 5 {}).draws es' = [⟨0xFF, 1⟩, ⟨0xFF, 180⟩] := by
    decide +kernel
  obtain ⟨hrandom, hfollow, hcongruent⟩ := draws_follow_sequence hz .modern {} es
  rw [hword] at hrandom hfollow hcongruent
  refine ⟨hdraws, hdraws', ?_, hfollow, hcongruent 5 5 hz' (by decide) .legacy {} es'⟩
  rw [hrandom, hdraws]
  rfl

end Console

end Chip8
