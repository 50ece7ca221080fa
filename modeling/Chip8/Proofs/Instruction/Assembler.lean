import Chip8.Instruction.Assembly
import Chip8.Proofs.Text.Numerals

/-!
# The assembler

Assembly text is read back in the order in which it was written: the text into a line
(`AssemblyLine.read?_text`), the line into an instruction (`Instruction.ofLine?_line`), and the
instruction into its word. So no two instructions have the same text, and a number is lost only as
far as its instruction does not tell it (`assemble?_disassemble`).
-/

namespace Chip8

/-! ### Operands -/

/-- Whether a text has neither blanks nor commas, which separate the parts of a line. -/
def isPlain (s : String) : Bool :=
  s.toList.all fun c => c != ' ' && c != ','

@[simp] lemma isPlain_append (s t : String) : isPlain (s ++ t) = (isPlain s && isPlain t) := by
  simp [isPlain]

lemma isPlain_digit (x : Fin 16) : (Hex.digit x != ' ' && Hex.digit x != ',') = true := by
  revert x; decide

@[simp] lemma isPlain_ofNat (width n : Nat) : isPlain (Hex.ofNat width n) = true := by
  rw [isPlain, List.all_eq_true]
  intro c hc
  obtain ⟨x, rfl⟩ := Hex.exists_digit_of_mem_ofNat hc
  exact isPlain_digit x

@[simp] lemma isPlain_ofInt (width : Nat) (z : Int) : isPlain (Hex.ofInt width z) = true := by
  cases z with
  | ofNat n => exact isPlain_ofNat width n
  | negSucc n =>
    rw [Hex.ofInt_negSucc, isPlain_append, isPlain_ofNat]
    rfl

namespace Operand

lemma isPlain_text (o : Operand) : isPlain o.text = true := by
  cases o with
  | register x | byte b | address a | word z =>
    simp only [text, isPlain_append, isPlain_ofNat, isPlain_ofInt]
    rfl
  | height n => revert n; decide
  | _ => rfl

/-- The operand that the digits of a hexadecimal number write. Their count tells bytes and addresses
from data. -/
def ofDigits? (cs : List Char) : Option Operand :=
  match cs.length with
  | 2 => (Hex.value? cs).map fun n => .byte (UInt8.ofNat n)
  | 3 => (Hex.value? cs).bind fun n => if h : n < 4096 then some (.address ⟨n, h⟩) else none
  | _ => (Hex.intValue? cs).map .word

/-- The operand that a text writes. -/
def read? : List Char → Option Operand
  | ['I'] => some .index
  | ['[', 'I', ']'] => some .memory
  | ['D', 'T'] => some .delay
  | ['S', 'T'] => some .sound
  | ['K'] => some .key
  | ['F'] => some .glyph
  | ['B'] => some .decimal
  | ['V', c] => (Hex.digitValue? c).map .register
  | '0' :: 'x' :: cs => ofDigits? cs
  | cs => (Decimal.value? cs).bind fun n => if h : n < 16 then some (.height ⟨n, h⟩) else none

lemma read?_hex (s : String) : read? ("0x" ++ s).toList = ofDigits? s.toList := by
  rw [String.toList_append]
  rfl

lemma ofDigits?_ofInt (z : Int) : ofDigits? (Hex.ofInt 4 z).toList = some (.word z) := by
  have hlength := Hex.le_length_ofInt 4 z
  unfold ofDigits?
  split
  · omega
  · omega
  · rw [Hex.intValue?_ofInt]
    rfl

@[simp] theorem read?_text (o : Operand) : read? o.text.toList = some o := by
  cases o with
  | register x =>
    rw [text, String.toList_append, Hex.toList_ofNat_one]
    simp [read?]
  | byte b =>
    have hlength := Hex.length_ofNat (by decide : 0 < 2) b.toNat_lt
    rw [text, read?_hex, ofDigits?, hlength]
    simp only [Hex.value?_ofNat]
    simp
  | address a =>
    have hlength := Hex.length_ofNat (by decide : 0 < 3) a.isLt
    rw [text, read?_hex, ofDigits?, hlength]
    simp only [Hex.value?_ofNat]
    simp
  | word z => rw [text, read?_hex, ofDigits?_ofInt]
  | height n => revert n; decide
  | _ => rfl

end Operand

/-! ### Lines -/

namespace AssemblyLine

/-- The name and the operands of a text. Each of them ends at a blank, and commas do not count. -/
def fields (text : String) : List (List Char) :=
  (text.toList.filter (· != ',')).splitOn ' '

/-- The line that a text writes. -/
def read? (text : String) : Option AssemblyLine :=
  match fields text with
  | [] => none
  | name :: operands => (operands.mapM Operand.read?).map fun os => ⟨String.ofList name, os⟩

lemma filter_of_isPlain {s : String} (h : isPlain s = true) :
    s.toList.filter (· != ',') = s.toList := by
  rw [isPlain, List.all_eq_true] at h
  apply List.filter_eq_self.mpr
  intro c hc
  exact (Bool.and_eq_true_iff.mp (h c hc)).2

lemma blank_notMem_of_isPlain {s : String} (h : isPlain s = true) : ' ' ∉ s.toList := by
  intro hblank
  rw [isPlain, List.all_eq_true] at h
  exact absurd (h ' ' hblank) (by decide)

lemma filter_intercalate {α : Type} (p : α → Bool) (sep : List α) (xs : List (List α)) :
    (sep.intercalate xs).filter p = (sep.filter p).intercalate (xs.map (List.filter p)) := by
  induction xs with
  | nil => simp
  | cons x xs ih =>
    cases xs with
    | nil => simp
    | cons y ys => simp_all [List.intercalate_cons_cons]

/-- Without its commas a text is its name and its operands with a blank between any two. -/
lemma filter_text {l : AssemblyLine} (hname : isPlain l.name = true) :
    l.text.toList.filter (· != ',') =
      [' '].intercalate (l.name.toList :: l.operands.map fun o => o.text.toList) := by
  have hoperands (os : List Operand) :
      (os.map fun o => o.text.toList).map (List.filter (· != ',')) =
        os.map fun o => o.text.toList := by
    simp [filter_of_isPlain, Operand.isPlain_text]
  obtain ⟨name, operands⟩ := l
  cases operands with
  | nil => simp [text, filter_of_isPlain hname]
  | cons o os =>
    have hmap : ((o :: os).map Operand.text).map String.toList =
        (o :: os).map fun o => o.text.toList := by
      simp
    have hblank : " ".toList.filter (· != ',') = [' '] := by simp
    have hcomma : ", ".toList.filter (· != ',') = [' '] := by simp
    simp only [text, String.toList_append, String.toList_intercalate, List.filter_append,
      filter_intercalate, filter_of_isPlain hname, hmap, hoperands, hblank, hcomma]
    exact List.intercalate_cons_cons.symm

lemma fields_text {l : AssemblyLine} (hname : isPlain l.name = true) :
    fields l.text = l.name.toList :: l.operands.map fun o => o.text.toList := by
  rw [fields, filter_text hname]
  apply List.splitOn_intercalate
  · simp only [List.mem_cons, List.mem_map]
    rintro cs (rfl | ⟨o, -, rfl⟩)
    · exact blank_notMem_of_isPlain hname
    · exact blank_notMem_of_isPlain o.isPlain_text
  · exact List.cons_ne_nil _ _

lemma mapM_read? (os : List Operand) :
    (os.map fun o => o.text.toList).mapM Operand.read? = some os := by
  rw [List.mapM_map_eq_some Operand.read?_text, List.map_id']

/-- A line can be read back from its text if its name is a single word. -/
theorem read?_text {l : AssemblyLine} (hname : isPlain l.name = true) : read? l.text = some l := by
  rw [read?, fields_text hname]
  simp only [mapM_read?, Option.map_some, String.ofList_toList]

theorem text_injective {l l' : AssemblyLine} (hname : isPlain l.name = true)
    (hname' : isPlain l'.name = true) (h : l.text = l'.text) : l = l' := by
  have hread := read?_text hname
  rw [h, read?_text hname'] at hread
  exact (Option.some.inj hread).symm

end AssemblyLine

/-! ### Instructions -/

namespace Instruction

/-- The instructions with these operands, by their names. -/
def withOperands : List Operand → List (String × Instruction)
  | [] => [("CLS", .clearScreen), ("RET", .ret)]
  | [.address a] => [("JP", .jump a), ("CALL", .call a)]
  | [.register x] => [("SKP", .skipIfPressed x), ("SKNP", .skipUnlessPressed x)]
  | [.register x, .byte b] =>
    [("SE", .skipIfByte x b), ("SNE", .skipUnlessByte x b), ("LD", .setByte x b),
     ("ADD", .addByte x b), ("RND", .random x b)]
  | [.register x, .register y] =>
    [("SE", .skipIfSame x y), ("SNE", .skipUnlessSame x y), ("LD", .operate .copy x y),
     ("OR", .operate .or x y), ("AND", .operate .and x y), ("XOR", .operate .xor x y),
     ("ADD", .operate .add x y), ("SUB", .operate .sub x y), ("SHR", .operate .shiftRight x y),
     ("SUBN", .operate .subFrom x y), ("SHL", .operate .shiftLeft x y)]
  | [.register x, .register y, .height n] => [("DRW", .draw x y n)]
  | [.index, .address a] => [("LD", .setIndex a)]
  | [.register 0, .address a] => [("JP", .jumpOffset a)]
  | [.register x, .delay] => [("LD", .readDelay x)]
  | [.register x, .key] => [("LD", .awaitKey x)]
  | [.delay, .register x] => [("LD", .setDelay x)]
  | [.sound, .register x] => [("LD", .setSound x)]
  | [.index, .register x] => [("ADD", .addIndex x)]
  | [.glyph, .register x] => [("LD", .glyph x)]
  | [.decimal, .register x] => [("LD", .storeDecimal x)]
  | [.memory, .register x] => [("LD", .storeRegisters x)]
  | [.register x, .memory] => [("LD", .loadRegisters x)]
  | _ => []

/-- The instruction that a line writes. -/
def ofLine? (l : AssemblyLine) : Option Instruction :=
  (withOperands l.operands).lookup l.name

@[simp] theorem ofLine?_line (i : Instruction) : ofLine? i.line = some i := by
  cases i with
  | operate op x y => cases op <;> rfl
  | _ => rfl

lemma isPlain_name_line (i : Instruction) : isPlain i.line.name = true := by
  cases i with
  | operate op x y => cases op <;> simp [isPlain, line, Operation.mnemonic]
  | _ => simp [isPlain, line]

/-- Only data has this name. -/
lemma name_line_ne (i : Instruction) : i.line.name ≠ "DW" := by
  cases i with
  | operate op x y => cases op <;> simp [line, Operation.mnemonic]
  | _ => simp [line]

end Instruction

/-! ### Assembly -/

namespace AssemblyLine

/-- The line of a number that is shown as data. -/
def data (z : Int) : AssemblyLine :=
  ⟨"DW", [.word z]⟩

lemma isPlain_name_data (z : Int) : isPlain (data z).name = true := by
  simp [isPlain, data]

/-- The number that a line writes. -/
def number? (l : AssemblyLine) : Option Int :=
  match l.name, l.operands with
  | "DW", [.word z] => some z
  | _, _ => (Instruction.ofLine? l).map fun i => (i.encode.toNat : Int)

@[simp] lemma number?_data (z : Int) : (data z).number? = some z := rfl

@[simp] lemma number?_line (i : Instruction) : i.line.number? = some (i.encode.toNat : Int) := by
  have hline := i.ofLine?_line
  unfold number?
  split
  next hname _ => exact absurd hname i.name_line_ne
  · rw [hline]
    rfl

end AssemblyLine

/-- The number that a text writes. -/
def assemble? (text : String) : Option Int :=
  (AssemblyLine.read? text).bind AssemblyLine.number?

lemma assemble?_text_line (i : Instruction) :
    assemble? i.line.text = some (i.encode.toNat : Int) := by
  rw [assemble?, AssemblyLine.read?_text i.isPlain_name_line]
  exact AssemblyLine.number?_line i

lemma assemble?_text_data (z : Int) : assemble? (AssemblyLine.data z).text = some z := by
  rw [assemble?, AssemblyLine.read?_text (AssemblyLine.isPlain_name_data z)]
  exact AssemblyLine.number?_data z

/-- No instruction has the text of data, not even of its own number. -/
lemma text_line_ne_text_data (i : Instruction) (z : Int) :
    i.line.text ≠ (AssemblyLine.data z).text := by
  intro h
  have hline := AssemblyLine.text_injective i.isPlain_name_line
    (AssemblyLine.isPlain_name_data z) h
  exact i.name_line_ne (congrArg AssemblyLine.name hline)

lemma text_line_inj {i j : Instruction} : i.line.text = j.line.text ↔ i = j := by
  constructor
  · intro h
    have hline := AssemblyLine.text_injective i.isPlain_name_line j.isPlain_name_line h
    have hi := i.ofLine?_line
    rw [hline, j.ofLine?_line] at hi
    exact (Option.some.inj hi).symm
  · rintro rfl
    rfl

section

variable {z : Int} {i : Instruction} {f : Fault} {address : Option Int}

lemma disassemble_of_identify_eq_ok (h : Instruction.identify z address = .ok i) :
    disassemble z = i.line.text := by
  rw [disassemble, AssemblyLine.ofInt,
    Instruction.ofWord?_eq_some_iff.mpr (Instruction.identify_eq_ok_iff.mp h)]

lemma disassemble_of_identify_eq_error (h : Instruction.identify z address = .error f) :
    disassemble z = (AssemblyLine.data z).text := by
  cases hi : Instruction.ofWord? (.ofInt z) with
  | none => rw [disassemble, AssemblyLine.ofInt, hi, AssemblyLine.data]
  | some i =>
    rw [Instruction.identify, hi] at h
    cases h

/-- The text of an instruction tells the lowest sixteen bits of its number. -/
lemma assemble?_disassemble_of_eq_ok (h : Instruction.identify z address = .ok i) :
    assemble? (disassemble z) = some (z % 65536) := by
  rw [disassemble_of_identify_eq_ok h, assemble?_text_line, ← Word.toNat_ofInt,
    Instruction.identify_eq_ok_iff.mp h]

/-- The text of data tells its whole number. -/
lemma assemble?_disassemble_of_eq_error (h : Instruction.identify z address = .error f) :
    assemble? (disassemble z) = some z := by
  rw [disassemble_of_identify_eq_error h, assemble?_text_data]

end

/-- Whether the lowest sixteen bits of a number are those of an instruction. -/
def Instruction.Recognised (z : Int) : Prop :=
  ∃ i, identify z none = .ok i

/-- Numbers with the same text are equal, unless both are instructions. -/
lemma disassemble_eq_iff {a b : Int} :
    disassemble a = disassemble b ↔
      a = b ∨ (Instruction.Recognised a ∧ Instruction.Recognised b ∧ a % 65536 = b % 65536) := by
  constructor
  · intro h
    cases ha : Instruction.identify a none with
    | ok i =>
      cases hb : Instruction.identify b none with
      | ok j =>
        have hab := assemble?_disassemble_of_eq_ok ha
        rw [h, assemble?_disassemble_of_eq_ok hb] at hab
        exact .inr ⟨⟨i, ha⟩, ⟨j, hb⟩, (Option.some.inj hab).symm⟩
      | error f =>
        rw [disassemble_of_identify_eq_ok ha, disassemble_of_identify_eq_error hb] at h
        exact absurd h (text_line_ne_text_data i b)
    | error f =>
      cases hb : Instruction.identify b none with
      | ok j =>
        rw [disassemble_of_identify_eq_error ha, disassemble_of_identify_eq_ok hb] at h
        exact absurd h.symm (text_line_ne_text_data j a)
      | error g =>
        have hab := assemble?_disassemble_of_eq_error ha
        rw [h, assemble?_disassemble_of_eq_error hb] at hab
        exact .inl (Option.some.inj hab).symm
  · rintro (rfl | ⟨⟨i, hi⟩, ⟨j, hj⟩, hab⟩)
    · rfl
    · have hword : Word.ofInt a = Word.ofInt b := by rw [Word.ofInt, Word.ofInt, hab]
      rw [disassemble_of_identify_eq_ok hi, disassemble_of_identify_eq_ok hj]
      rw [Instruction.identify_eq_ok_iff] at hi hj
      rw [Instruction.encode_injective (hi.symm.trans (hword.trans hj))]

/-- Disassembly loses nothing: assembling the text of a number gives the number back, in sixteen
bits if it is an instruction and as a whole if it is data. No two instructions have the same text,
and none has the text of data. -/
theorem assemble?_disassemble :
    (∀ z address, assemble? (disassemble z) =
      match Instruction.identify z address with
      | .ok _ => some (z % 65536)
      | .error _ => some z) ∧
    (∀ a b, disassemble a = disassemble b ↔
      a = b ∨ (Instruction.Recognised a ∧ Instruction.Recognised b ∧ a % 65536 = b % 65536)) ∧
    (∀ i j : Instruction, i.line.text = j.line.text ↔ i = j) ∧
    ∀ (i : Instruction) (z : Int), i.line.text ≠ (AssemblyLine.data z).text := by
  refine ⟨fun z address => ?_, fun a b => disassemble_eq_iff, fun i j => text_line_inj,
    text_line_ne_text_data⟩
  cases h : Instruction.identify z address with
  | ok i => exact assemble?_disassemble_of_eq_ok h
  | error f => exact assemble?_disassemble_of_eq_error h

/-- Data keeps a sign, which counts towards its four places. -/
example : assemble? "DW 0x-001" = some (-1) ∧ assemble? "LD V3, [I]" = some 0xF365 := by decide

end Chip8
