import Chip8.Proofs.Instruction.Encoding
import Chip8.Text.Hex

/-!
# The grammar of instruction words

The instruction set is laid down by templates of four places, one for each hexadecimal digit of a
word: a digit stands for itself and a letter behind the digits for any digit. The table of forms
reads a word as an instruction just when its text is an instance of a template
(`Instruction.isInstruction_toNat`).
-/

namespace Chip8

/-! ### Words in four digits -/

namespace Hex

/-- The digit that is written for a number below sixteen. -/
def digit (x : Fin 16) : Char :=
  (Nat.digitChar x).toUpper

lemma leftpad_digits_one {n : Nat} (h : n < 16) :
    (digits n).leftpad 1 '0' = [digit (Fin.ofNat 16 n)] := by
  rw [digits_of_lt h, digit, Fin.val_ofNat, Nat.mod_eq_of_lt h]
  rfl

/-- The last digit stands behind the text of the others. -/
lemma leftpad_digits_succ {width n : Nat} (h : 0 < width) :
    (digits n).leftpad (width + 1) '0' =
      (digits (n / 16)).leftpad width '0' ++ [digit (Fin.ofNat 16 n)] := by
  rw [digit, Fin.val_ofNat]
  rcases Nat.lt_or_ge n 16 with hn | hn
  · -- a single digit, with nothing but zeros in front of it
    have hzero : digits (n / 16) = ['0'] := by
      rw [Nat.div_eq_of_lt hn, digits_of_lt (by omega)]
      rfl
    rw [digits_of_lt hn, hzero, Nat.mod_eq_of_lt hn]
    simp only [List.leftpad, List.length_singleton, Nat.add_sub_cancel]
    rw [← List.replicate_succ', Nat.sub_add_cancel h]
  · rw [digits_of_le hn]
    simp [List.leftpad]

/-- The text of a word shows its digits. -/
theorem toList_ofNat_toNat (w : Word) :
    (ofNat 4 w.toNat).toList = [digit w.kind, digit w.x, digit w.y, digit w.n] := by
  obtain ⟨k, x, y, n⟩ := w
  have hdigit : ∀ (m : Nat) (z : Fin 16), Fin.ofNat 16 (16 * m + z) = z := by
    intro m z
    simp only [Fin.ext_iff, Fin.val_ofNat]
    omega
  have h₃ : Word.toNat ⟨k, x, y, n⟩ = 16 * (16 * (16 * k + x) + y) + n := by
    simp only [Word.toNat]
    omega
  have hdiv : ∀ (m : Nat) (z : Fin 16), (16 * m + z) / 16 = m := by omega
  have hk : Fin.ofNat 16 (k : Nat) = k := Fin.ext (Nat.mod_eq_of_lt k.isLt)
  rw [toList_ofNat, h₃, leftpad_digits_succ (by omega), leftpad_digits_succ (by omega),
    leftpad_digits_succ (by omega), hdiv, hdiv, hdiv, leftpad_digits_one (by omega), hk, hdigit,
    hdigit, hdigit]
  rfl

end Hex

/-! ### Templates -/

namespace Template

/-- The letters that stand for any digit. -/
def letters : List Char := ['X', 'Y', 'N']

/-- Whether a digit may stand at a place of a template. -/
def admits (place digit : Char) : Bool :=
  letters.contains place || place == digit

/-- Whether each digit of a text may stand at its place of a template. -/
def fits : List Char → List Char → Bool
  | [], [] => true
  | place :: template, digit :: text => admits place digit && fits template text
  | _, _ => false

/-- The templates of the instruction set. -/
def all : List String :=
  ["00E0", "00EE", "1NNN", "2NNN", "3XNN", "4XNN", "5XY0", "6XNN", "7XNN",
   "8XY0", "8XY1", "8XY2", "8XY3", "8XY4", "8XY5", "8XY6", "8XY7", "8XYE",
   "9XY0", "ANNN", "BNNN", "CXNN", "DXYN", "EX9E", "EXA1",
   "FX07", "FX0A", "FX15", "FX18", "FX1E", "FX29", "FX33", "FX55", "FX65"]

end Template

/-- Whether a number, in four hexadecimal digits, is an instance of a template. -/
def isInstance (template : String) (n : Nat) : Bool :=
  Template.fits template.toList (Hex.ofNat 4 n).toList

/-- Whether a number is an instance of a template of the instruction set. -/
def isInstruction (n : Nat) : Bool :=
  Template.all.any (isInstance · n)

namespace Template

/-- What a place of a template asks of a digit. -/
def place (c : Char) : Option (Fin 16) :=
  if letters.contains c then none else (List.finRange 16).find? (Hex.digit · == c)

/-- The pattern that a template of four places stands for. -/
def pattern? (template : String) : Option Pattern :=
  match template.toList with
  | [k, x, y, n] => some ⟨place k, place x, place y, place n⟩
  | _ => none

/-- The characters that occur in templates. -/
def alphabet : List Char :=
  letters ++ (List.finRange 16).map Hex.digit

lemma allows_place : ∀ c ∈ alphabet, ∀ d : Fin 16,
    Pattern.allows (place c) d = admits c (Hex.digit d) := by
  -- a check of the list, not of all characters
  have h : alphabet.all (fun c =>
      decide (∀ d, Pattern.allows (place c) d = admits c (Hex.digit d))) = true := by decide
  simpa only [List.all_eq_true, decide_eq_true_eq] using h

lemma mem_alphabet : ∀ t ∈ all, ∀ c ∈ t.toList, c ∈ alphabet := by
  have h : all.all (fun t => t.toList.all alphabet.contains) = true := by decide
  simpa only [List.all_eq_true, List.contains_iff_mem] using h

/-- The table has the patterns that the templates stand for, in the same order. -/
lemma map_pattern? : all.map pattern? = Instruction.forms.map fun f => some f.pattern := by
  decide

/-- A word is an instance of a template just when it fits the pattern. -/
lemma isInstance_toNat {t : String} {p : Pattern} (ht : t ∈ all) (hp : pattern? t = some p)
    (w : Word) : isInstance t w.toNat = p.fits w := by
  have hc := mem_alphabet t ht
  rw [isInstance, Hex.toList_ofNat_toNat]
  unfold pattern? at hp
  split at hp
  next k x y n heq =>
    obtain rfl := Option.some.inj hp
    rw [heq] at hc ⊢
    simp only [List.forall_mem_cons] at hc
    simp only [fits, Pattern.fits, allows_place, hc, Bool.and_true, Bool.and_assoc]
  · cases hp

end Template

namespace Instruction

/-- The template of the words that an instruction is written as. -/
def template : Instruction → String
  | .clearScreen => "00E0"
  | .ret => "00EE"
  | .jump _ => "1NNN"
  | .call _ => "2NNN"
  | .skipIfByte _ _ => "3XNN"
  | .skipUnlessByte _ _ => "4XNN"
  | .skipIfSame _ _ => "5XY0"
  | .setByte _ _ => "6XNN"
  | .addByte _ _ => "7XNN"
  | .operate .copy _ _ => "8XY0"
  | .operate .or _ _ => "8XY1"
  | .operate .and _ _ => "8XY2"
  | .operate .xor _ _ => "8XY3"
  | .operate .add _ _ => "8XY4"
  | .operate .sub _ _ => "8XY5"
  | .operate .shiftRight _ _ => "8XY6"
  | .operate .subFrom _ _ => "8XY7"
  | .operate .shiftLeft _ _ => "8XYE"
  | .skipUnlessSame _ _ => "9XY0"
  | .setIndex _ => "ANNN"
  | .jumpOffset _ => "BNNN"
  | .random _ _ => "CXNN"
  | .draw _ _ _ => "DXYN"
  | .skipIfPressed _ => "EX9E"
  | .skipUnlessPressed _ => "EXA1"
  | .readDelay _ => "FX07"
  | .awaitKey _ => "FX0A"
  | .setDelay _ => "FX15"
  | .setSound _ => "FX18"
  | .addIndex _ => "FX1E"
  | .glyph _ => "FX29"
  | .storeDecimal _ => "FX33"
  | .storeRegisters _ => "FX55"
  | .loadRegisters _ => "FX65"

/-! ### The table and the templates -/

lemma map_template_read (w : Word) :
    forms.map (fun f => (f.read w).template) = Template.all := rfl

lemma exists_form_of_mem_all {t : String} (ht : t ∈ Template.all) (w : Word) :
    ∃ f ∈ forms, (f.read w).template = t := by
  rwa [← map_template_read w, List.mem_map] at ht

/-- What a form reads is of the template that its pattern comes from. -/
lemma pattern?_template_read (w : Word) :
    ∀ f ∈ forms, Template.pattern? (f.read w).template = some f.pattern := by
  have h := Template.map_pattern?
  rw [← map_template_read w, List.map_map] at h
  exact List.map_inj_left.mp h

lemma isInstance_template_read (w : Word) :
    ∀ f ∈ forms, isInstance (f.read w).template w.toNat = f.pattern.fits w := by
  intro f hf
  have ht : (f.read w).template ∈ Template.all :=
    map_template_read w ▸ List.mem_map_of_mem hf
  exact Template.isInstance_toNat ht (pattern?_template_read w f hf) w

/-- The word of an instruction is an instance of the template of this instruction alone. -/
theorem isInstance_encode {t : String} (ht : t ∈ Template.all) (i : Instruction) :
    isInstance t i.encode.toNat = true ↔ i.template = t := by
  obtain ⟨f, hf, rfl⟩ := exists_form_of_mem_all ht i.encode
  rw [isInstance_template_read i.encode f hf]
  constructor
  · intro hfits
    rw [encode_injective (encode_read_of_fits f hf i.encode hfits)]
  · intro hi
    obtain ⟨g, hg, hfits, hread⟩ := exists_form_of_ofWord? (ofWord?_encode i)
    -- both forms have the pattern of the template
    have hpattern : some f.pattern = some g.pattern := by
      rw [← pattern?_template_read i.encode f hf, ← pattern?_template_read i.encode g hg, hread, hi]
    rwa [Option.some.inj hpattern]

/-- The words that the table reads as instructions are those of the grammar. -/
theorem isInstruction_toNat (w : Word) : isInstruction w.toNat = (ofWord? w).isSome := by
  have hfits : isInstruction w.toNat = true ↔ ∃ f ∈ forms, f.pattern.fits w = true := by
    rw [isInstruction, ← map_template_read w, List.any_map, List.any_eq_true]
    refine exists_congr fun f => and_congr_right fun hf => ?_
    rw [← isInstance_template_read w f hf]
    rfl
  rw [Bool.eq_iff_iff, hfits, ofWord?, find?, Option.isSome_map, List.find?_isSome]

/-- A number of four digits that is no instruction is the cause of the fault. -/
lemma eq_of_identify_eq_error {n : Nat} {address : Option Int} {f : Fault} (hn : n < 65536)
    (h : identify n address = .error f) :
    isInstruction n = false ∧ f = .unknownWord n address := by
  have htable := isInstruction_toNat (.ofNat n)
  rw [Word.toNat_ofNat, Nat.mod_eq_of_lt hn] at htable
  rw [identify, Word.ofInt_natCast] at h
  split at h
  · cases h
  next hnone =>
    rw [htable, hnone]
    exact ⟨rfl, (Except.error.inj h).symm⟩

end Instruction

end Chip8
