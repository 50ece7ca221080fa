import Chip8.Instruction.Assembly
import Chip8.Proofs.Instruction.Selection
import Chip8.Proofs.List
import Mathlib.Data.Int.Bitwise
import Mathlib.Data.List.Nodup

/-!
# The table of forms

A row of the table can be looked up by masking a number, whatever its size and its sign: the mask
keeps the fixed digits of the pattern, and the row matches if they are those of the pattern
(`Form.matchesNumber_eq_fits`). Any two patterns ask for different digits at some place, so the
order of the rows is of no account, and the table gives every number the instruction and the name
that the grammar gives it (`Instruction.identify_by_grammar`).
-/

namespace Chip8

/-! ### Masks -/

/-- A mask of sixteen bits leaves the lowest sixteen bits of a number alone, also of one below
zero. -/
lemma land_natCast (z : Int) {mask : Nat} (h : mask < 2 ^ 16) :
    Int.land z mask = ((z % 65536).toNat &&& mask : Nat) := by
  cases z with
  | ofNat n =>
    have hmod : (Int.ofNat n % 65536).toNat = n % 2 ^ 16 := by simp; omega
    have hand : n &&& mask = n % 2 ^ 16 &&& mask % 2 ^ 16 := by
      rw [← Nat.and_mod_two_pow, Nat.mod_eq_of_lt (Nat.lt_of_le_of_lt Nat.and_le_right h)]
    rw [hmod]
    rw [Nat.mod_eq_of_lt h] at hand
    exact congrArg Int.ofNat hand
  | negSucc n =>
    have hmod : (Int.negSucc n % 65536).toNat = 2 ^ 16 - (n % 2 ^ 16 + 1) := by omega
    rw [hmod]
    refine congrArg Int.ofNat (Nat.eq_of_testBit_eq fun k => ?_)
    rw [Nat.testBit_ldiff, Nat.testBit_and,
      Nat.testBit_two_pow_sub_succ (Nat.mod_lt n (by decide)), Nat.testBit_mod_two_pow]
    by_cases hk : k < 16
    · simp [hk, Bool.and_comm]
    · -- beyond the sixteen bits the mask has none
      have hmask : mask.testBit k = false :=
        Nat.testBit_lt_two_pow (Nat.lt_of_lt_of_le h (Nat.pow_le_pow_right (by decide) (by omega)))
      simp [hmask]

/-- Bits in common are found digit by digit. -/
lemma and_sixteen_mul_add (m m' : Nat) (x x' : Fin 16) :
    (16 * m + x) &&& (16 * m' + x') = 16 * (m &&& m') + (x &&& x' : Fin 16) := by
  have hdiv (k : Nat) (z : Fin 16) : (16 * k + z) / 2 ^ 4 = k := by omega
  have hmod (k : Nat) (z : Fin 16) : (16 * k + z) % 2 ^ 4 = z := by omega
  have hlast : ((x &&& x' : Fin 16) : Nat) = (x : Nat) &&& (x' : Nat) :=
    Nat.mod_eq_of_lt (Nat.lt_of_le_of_lt Nat.and_le_left x.isLt)
  rw [← Nat.div_add_mod ((16 * m + x) &&& (16 * m' + x')) (2 ^ 4), Nat.and_div_two_pow,
    Nat.and_mod_two_pow, hdiv, hdiv, hmod, hmod, hlast]
  rfl

namespace Word

/-- The bits that two words have in common. -/
def and (v w : Word) : Word :=
  ⟨v.kind &&& w.kind, v.x &&& w.x, v.y &&& w.y, v.n &&& w.n⟩

lemma toNat_eq (w : Word) : w.toNat = 16 * (16 * (16 * w.kind + w.x) + w.y) + w.n := by
  simp only [toNat]; omega

lemma toNat_and (v w : Word) : (v.and w).toNat = v.toNat &&& w.toNat := by
  have hkind : (v.kind : Nat) &&& (w.kind : Nat) = (v.kind &&& w.kind : Fin 16) := by
    simp
  simp only [toNat_eq, and_sixteen_mul_add, hkind, and]

/-- Masking a number keeps the digits of its lowest sixteen bits that the mask covers. -/
theorem land_toNat (z : Int) (mask : Word) :
    Int.land z mask.toNat = ((ofInt z).and mask).toNat := by
  rw [land_natCast z mask.toNat_lt, toNat_and, toNat_ofInt_eq]

end Word

/-- The fields of a number as masks and shifts cut them out of it. -/
structure Fields where
  kind : Int
  x : Int
  y : Int
  n : Int
  byte : Int
  address : Int

namespace Fields

def cut (z : Int) : Fields where
  kind := Int.land z 0xF000 >>> (12 : Nat)
  x := Int.land z 0x0F00 >>> (8 : Nat)
  y := Int.land z 0x00F0 >>> (4 : Nat)
  n := Int.land z 0x000F
  byte := Int.land z 0x00FF
  address := Int.land z 0x0FFF

def ofWord (w : Word) : Fields where
  kind := w.kind
  x := w.x
  y := w.y
  n := w.n
  byte := w.byte.toNat
  address := w.address

/-- Masks and shifts cut out the digits of the word. -/
lemma cut_eq_ofWord (z : Int) : cut z = ofWord (.ofInt z) := by
  have hall (d : Fin 16) : d &&& 15 = d := by revert d; decide
  have hnone (d : Fin 16) : d &&& 0 = 0 := by revert d; decide
  have hmask := Word.land_toNat z
  generalize Word.ofInt z = w at hmask
  have hkind : Int.land z 0xF000 = _ := hmask ⟨15, 0, 0, 0⟩
  have hx : Int.land z 0x0F00 = _ := hmask ⟨0, 15, 0, 0⟩
  have hy : Int.land z 0x00F0 = _ := hmask ⟨0, 0, 15, 0⟩
  have hn : Int.land z 0x000F = _ := hmask ⟨0, 0, 0, 15⟩
  have hbyte : Int.land z 0x00FF = _ := hmask ⟨0, 0, 15, 15⟩
  have haddress : Int.land z 0x0FFF = _ := hmask ⟨0, 15, 15, 15⟩
  simp only [Word.and, hall, hnone, Word.toNat] at hkind hx hy hn hbyte haddress
  simp only [cut, ofWord, hkind, hx, hy, hn, hbyte, haddress, mk.injEq, Int.shiftRight_eq_div_pow,
    Word.toNat_byte, Word.val_address]
  and_intros <;> simp

/-- What the fields of a number have to do with it and with one another. -/
structure Recompose (f : Fields) (z : Int) : Prop where
  whole : z % 65536 = 4096 * f.kind + f.address
  address : f.address = 256 * f.x + f.byte
  byte : f.byte = 16 * f.y + f.n
  digit : ∀ d ∈ [f.kind, f.x, f.y, f.n], 0 ≤ d ∧ d < 16

lemma recompose_cut (z : Int) : (cut z).Recompose z := by
  rw [cut_eq_ofWord]
  have hz := Word.toNat_ofInt z
  generalize Word.ofInt z = w at hz
  constructor
  · rw [← hz]
    simp [ofWord, Word.toNat, add_assoc]
  · simp [ofWord, add_assoc]
  · simp [ofWord]
  · intro d hd
    simp only [ofWord, List.mem_cons, List.not_mem_nil, or_false] at hd
    omega

end Fields

/-! ### Rows -/

namespace Pattern

/-- The mask that keeps the digits that the pattern fixes. -/
def mask (p : Pattern) : Word :=
  let digit (place : Option (Fin 16)) : Fin 16 := if place.isSome then 15 else 0
  ⟨digit p.kind, digit p.x, digit p.y, digit p.n⟩

/-- The digits that the pattern fixes, with zeros at the other places. -/
def fixed (p : Pattern) : Word :=
  ⟨p.kind.getD 0, p.x.getD 0, p.y.getD 0, p.n.getD 0⟩

lemma allows_iff_and_eq (place : Option (Fin 16)) (d : Fin 16) :
    allows place d = true ↔ (d &&& if place.isSome then 15 else 0) = place.getD 0 := by
  revert d
  cases place with
  | none => decide
  | some digit => revert digit; decide

lemma fits_iff_and_eq (p : Pattern) (w : Word) : p.fits w = true ↔ w.and p.mask = p.fixed := by
  simp only [fits, Bool.and_eq_true, allows_iff_and_eq, Word.and, mask, fixed, Word.mk.injEq,
    and_assoc]

/-- Whether two places ask for different digits. -/
def differ : Option (Fin 16) → Option (Fin 16) → Bool
  | some d, some e => d != e
  | _, _ => false

/-- Whether there is a place at which the patterns ask for different digits. -/
def clash (p q : Pattern) : Bool :=
  differ p.kind q.kind || differ p.x q.x || differ p.y q.y || differ p.n q.n

lemma not_differ_of_allows {place place' : Option (Fin 16)} {d : Fin 16}
    (h : allows place d = true) (h' : allows place' d = true) : differ place place' = false := by
  cases place with
  | none => rfl
  | some e =>
    cases place' with
    | none => rfl
    | some e' =>
      rw [allows_some_iff] at h h'
      simp [differ, ← h, ← h']

/-- No word fits two patterns that clash. -/
lemma not_clash_of_fits {p q : Pattern} {w : Word} (hp : p.fits w = true) (hq : q.fits w = true) :
    p.clash q = false := by
  simp only [fits, Bool.and_eq_true] at hp hq
  obtain ⟨⟨⟨hk, hx⟩, hy⟩, hn⟩ := hp
  obtain ⟨⟨⟨hk', hx'⟩, hy'⟩, hn'⟩ := hq
  simp only [clash, not_differ_of_allows hk hk', not_differ_of_allows hx hx',
    not_differ_of_allows hy hy', not_differ_of_allows hn hn', Bool.or_false]

end Pattern

namespace Form

/-- Whether a number has, under the mask of the pattern, the digits that the pattern fixes. -/
def matchesNumber (f : Form) (z : Int) : Bool :=
  Int.land z f.pattern.mask.toNat == f.pattern.fixed.toNat

/-- A number matches a row just when its lowest sixteen bits fit the pattern. -/
theorem matchesNumber_eq_fits (f : Form) (z : Int) :
    f.matchesNumber z = f.pattern.fits (.ofInt z) := by
  rw [Bool.eq_iff_iff, Pattern.fits_iff_and_eq, matchesNumber, Word.land_toNat, beq_iff_eq,
    Nat.cast_inj, Word.toNat_inj]

end Form

namespace Instruction

/-- The masks and what must be left under them, row by row. -/
example : forms.map (fun f => (f.pattern.mask.toNat, f.pattern.fixed.toNat)) =
    [(0xFFFF, 0x00E0), (0xFFFF, 0x00EE), (0xF000, 0x1000), (0xF000, 0x2000), (0xF000, 0x3000),
     (0xF000, 0x4000), (0xF00F, 0x5000), (0xF000, 0x6000), (0xF000, 0x7000), (0xF00F, 0x8000),
     (0xF00F, 0x8001), (0xF00F, 0x8002), (0xF00F, 0x8003), (0xF00F, 0x8004), (0xF00F, 0x8005),
     (0xF00F, 0x8006), (0xF00F, 0x8007), (0xF00F, 0x800E), (0xF00F, 0x9000), (0xF000, 0xA000),
     (0xF000, 0xB000), (0xF000, 0xC000), (0xF000, 0xD000), (0xF0FF, 0xE09E), (0xF0FF, 0xE0A1),
     (0xF0FF, 0xF007), (0xF0FF, 0xF00A), (0xF0FF, 0xF015), (0xF0FF, 0xF018), (0xF0FF, 0xF01E),
     (0xF0FF, 0xF029), (0xF0FF, 0xF033), (0xF0FF, 0xF055), (0xF0FF, 0xF065)] := by decide

/-! ### The order of the rows -/

lemma pairwise_clash_forms : forms.Pairwise fun f g => f.pattern.clash g.pattern = true := by
  have h : (forms.map Form.pattern).Pairwise fun p q => p.clash q = true := by decide
  exact List.pairwise_map.mp h

/-- No number matches two rows. -/
lemma countP_matchesNumber_le_one (z : Int) : forms.countP (·.matchesNumber z) ≤ 1 := by
  apply List.countP_le_one
  apply pairwise_clash_forms.imp
  intro f g hclash ⟨hf, hg⟩
  rw [Form.matchesNumber_eq_fits] at hf hg
  rw [Pattern.not_clash_of_fits hf hg] at hclash
  cases hclash

/-- The instruction that the first matching row of a table reads. -/
def lookUp? (table : List Form) (z : Int) : Option Instruction :=
  (table.find? (·.matchesNumber z)).map (·.read (.ofInt z))

/-- The table gives the instruction of a number in any order of its rows. -/
lemma lookUp?_eq_of_perm {table : List Form} (h : table.Perm forms) (z : Int) :
    lookUp? table z = ofWord? (.ofInt z) := by
  have hfits : (fun f : Form => f.matchesNumber z) = fun f => f.pattern.fits (.ofInt z) :=
    funext fun f => f.matchesNumber_eq_fits z
  rw [lookUp?, h.find?_eq (countP_matchesNumber_le_one z), hfits]
  rfl

/-- Identify a number by a table. -/
def identifyBy (table : List Form) (z : Int) (address : Option Int) : Except Fault Instruction :=
  match lookUp? table z with
  | some i => .ok i
  | none => .error (.unknownWord z address)

/-- Disassemble a number by a table. -/
def disassembleBy (table : List Form) (z : Int) : String :=
  match lookUp? table z with
  | some i => i.line.text
  | none => (AssemblyLine.mk "DW" [.word z]).text

section

variable {table : List Form} (h : table.Perm forms) (z : Int)
include h

lemma identifyBy_eq_of_perm (address : Option Int) :
    identifyBy table z address = identify z address := by
  cases hi : ofWord? (.ofInt z) <;> simp [identifyBy, identify, lookUp?_eq_of_perm h, hi]

lemma disassembleBy_eq_of_perm : disassembleBy table z = disassemble z := by
  cases hi : ofWord? (.ofInt z) <;>
    simp [disassembleBy, disassemble, AssemblyLine.ofInt, lookUp?_eq_of_perm h, hi]

end

/-! ### Names -/

/-- The templates of the instruction set, each with the name of its instruction. -/
def names : List (String × String) :=
  [("00E0", "CLS"), ("00EE", "RET"), ("1NNN", "JP"), ("2NNN", "CALL"), ("3XNN", "SE_VX_NN"),
   ("4XNN", "SNE_VX_NN"), ("5XY0", "SE_VX_VY"), ("6XNN", "LD_VX_NN"), ("7XNN", "ADD_VX_NN"),
   ("8XY0", "LD_VX_VY"), ("8XY1", "OR"), ("8XY2", "AND"), ("8XY3", "XOR"), ("8XY4", "ADD_VX_VY"),
   ("8XY5", "SUB"), ("8XY6", "SHR"), ("8XY7", "SUBN"), ("8XYE", "SHL"), ("9XY0", "SNE_VX_VY"),
   ("ANNN", "LD_I"), ("BNNN", "JP_OFFSET"), ("CXNN", "RND"), ("DXYN", "DRW"), ("EX9E", "SKP"),
   ("EXA1", "SKNP"), ("FX07", "LD_VX_DT"), ("FX0A", "LD_VX_K"), ("FX15", "LD_DT_VX"),
   ("FX18", "LD_ST_VX"), ("FX1E", "ADD_I_VX"), ("FX29", "LD_F_VX"), ("FX33", "LD_B_VX"),
   ("FX55", "LD_MEM_VX"), ("FX65", "LD_VX_MEM")]

lemma map_fst_names : names.map Prod.fst = Template.all := rfl

/-- The table has these templates and names, row by row. -/
lemma map_read_eq_names (w : Word) :
    forms.map (fun f => ((f.read w).template, (f.read w).mnemonic)) = names := rfl

lemma nodup_templates : Template.all.Nodup := by decide

lemma mem_names (i : Instruction) : (i.template, i.mnemonic) ∈ names := by
  obtain ⟨f, hf, -, hread⟩ := exists_form_of_ofWord? (ofWord?_encode i)
  have hrow := List.mem_map_of_mem
    (f := fun f : Form => ((f.read i.encode).template, (f.read i.encode).mnemonic)) hf
  rw [map_read_eq_names] at hrow
  simpa only [hread] using hrow

/-- A template has one name. -/
lemma eq_mnemonic_of_mem_names {i : Instruction} {name : String}
    (h : (i.template, name) ∈ names) : name = i.mnemonic := by
  have hrow := List.inj_on_of_nodup_map (map_fst_names ▸ nodup_templates) h i.mem_names rfl
  exact congrArg Prod.snd hrow

section

variable {z : Int} {i : Instruction} {address : Option Int}

/-- The number of an instruction is an instance of the template of this instruction alone. -/
lemma matches_iff_of_identify (h : identify z address = .ok i) {t : String}
    (ht : t ∈ Template.all) : Matches z t ↔ i.template = t := by
  rw [identify_eq_ok_iff] at h
  rw [Matches, ← Word.toNat_ofInt_eq, h, isInstance_encode ht]

/-- An instance of a template is an instruction. -/
lemma exists_identify_of_matches {t : String} (ht : t ∈ Template.all) (h : Matches z t)
    (address : Option Int) : ∃ i, identify z address = .ok i := by
  have hsome : (ofWord? (.ofInt z)).isSome = true := by
    rw [← isInstruction_toNat, Word.toNat_ofInt_eq, isInstruction, List.any_eq_true]
    exact ⟨t, ht, h⟩
  obtain ⟨i, hi⟩ := Option.isSome_iff_exists.mp hsome
  exact ⟨i, by rw [identify, hi]⟩

/-- A number has the name of the template that it is an instance of. -/
lemma mnemonic_eq_ok_iff {name : String} :
    (identify z address).map mnemonic = .ok name ↔ ∃ t, (t, name) ∈ names ∧ Matches z t := by
  constructor
  · intro h
    cases hi : identify z address with
    | error f => rw [hi] at h; cases h
    | ok i =>
      rw [hi] at h
      obtain rfl := Except.ok.inj h
      exact ⟨i.template, i.mem_names, (matches_iff_of_identify hi i.template_mem_all).mpr rfl⟩
  · rintro ⟨t, hname, hmatches⟩
    have ht : t ∈ Template.all := map_fst_names ▸ List.mem_map_of_mem hname
    obtain ⟨i, hi⟩ := exists_identify_of_matches ht hmatches address
    obtain rfl := (matches_iff_of_identify hi ht).mp hmatches
    rw [hi, eq_mnemonic_of_mem_names hname]
    rfl

/-- A number that is no instance of a template is refused, and the fault carries all of it. -/
lemma identify_eq_error_iff {f : Fault} :
    identify z address = .error f ↔
      f = .unknownWord z address ∧ ∀ t ∈ Template.all, ¬ Matches z t := by
  constructor
  · intro h
    constructor
    · rw [identify] at h
      split at h
      · cases h
      · exact (Except.error.inj h).symm
    · intro t ht hmatches
      obtain ⟨i, hi⟩ := exists_identify_of_matches ht hmatches address
      rw [hi] at h
      cases h
  · rintro ⟨rfl, hnone⟩
    cases hi : identify z address with
    | ok i =>
      have hmatches := (matches_iff_of_identify hi i.template_mem_all).mpr rfl
      exact absurd hmatches (hnone _ i.template_mem_all)
    | error f =>
      rw [identify] at hi
      split at hi
      · cases hi
      · exact hi.symm

/-- What a number is identified as is told by its lowest sixteen bits. -/
lemma toOption_identify_emod (z : Int) (address address' : Option Int) :
    (identify z address).toOption = (identify (z % 65536) address').toOption := by
  simp only [identify, Word.ofInt_emod]
  cases ofWord? (.ofInt z) <;> rfl

end

/-- Identification accepts just the numbers whose lowest sixteen bits are an instance of a template,
and gives them the name of the template. At most one row of the table matches a number, so the order
of the rows makes no difference. A number that is refused is reported as a whole, and the fields of
every number make up its lowest sixteen bits. -/
theorem identify_by_grammar (z : Int) (address : Option Int) :
    forms.countP (·.matchesNumber z) ≤ 1 ∧
    (∀ table, table.Perm forms →
      identifyBy table z address = identify z address ∧ disassembleBy table z = disassemble z) ∧
    (∀ address', (identify z address).toOption = (identify (z % 65536) address').toOption) ∧
    (∀ name, (identify z address).map mnemonic = .ok name ↔
      ∃ t, (t, name) ∈ names ∧ Matches z t) ∧
    (∀ f, identify z address = .error f ↔
      f = .unknownWord z address ∧ ∀ t ∈ Template.all, ¬ Matches z t) ∧
    Fields.cut z = .ofWord (.ofInt z) ∧ (Fields.cut z).Recompose z :=
  ⟨countP_matchesNumber_le_one z,
    fun _ h => ⟨identifyBy_eq_of_perm h z address, disassembleBy_eq_of_perm h z⟩,
    toOption_identify_emod z address, fun _ => mnemonic_eq_ok_iff, fun _ => identify_eq_error_iff,
    Fields.cut_eq_ofWord z, Fields.recompose_cut z⟩

/-- The rows in reverse order, and a number below zero whose lowest sixteen bits are `0xF365`. -/
theorem identify_by_grammar_of_reverse :
    forms.reverse.Perm forms ∧
      identifyBy forms.reverse (-3227) none = .ok (.loadRegisters 0x3) ∧
      (identify (-3227) none).map mnemonic = .ok "LD_VX_MEM" := by
  have hperm : forms.reverse.Perm forms := List.reverse_perm forms
  have hi : identify (-3227) none = .ok (.loadRegisters 0x3) := by decide
  obtain ⟨-, horder, -, hname, -⟩ := identify_by_grammar (-3227) none
  refine ⟨hperm, (horder forms.reverse hperm).1.trans hi, (hname "LD_VX_MEM").mpr ⟨"FX65", ?_, ?_⟩⟩
  · simp [names]
  · rw [Matches]
    decide

end Instruction

end Chip8
