import Chip8.Proofs.List
import Chip8.Proofs.Text.Numerals

/-!
# Lines and words

A text of lines is cut into its lines at the line ends, and each line into its words at the blanks.
This gives back the words from which the text was put together, as long as they have neither in them
(`Text.words_text`). Numbers are such words.
-/

namespace Chip8

namespace Text

/-- Whether all characters of a text come behind the blank. Blanks and line ends do not. -/
def isWord (s : String) : Bool :=
  s.toList.all fun c => ' ' < c

/-- The words of each line of a text. Between two blanks there is an empty word. -/
def words (text : String) : List (List (List Char)) :=
  (text.toList.splitOn '\n').map (List.splitOn ' ')

@[simp] lemma isWord_append (s t : String) : isWord (s ++ t) = (isWord s && isWord t) := by
  simp [isWord]

lemma lt_digit (x : Fin 16) : ' ' < Hex.digit x := by
  revert x; decide

@[simp] lemma isWord_ofNat (width n : Nat) : isWord (Hex.ofNat width n) = true := by
  rw [isWord, List.all_eq_true]
  intro c hc
  obtain ⟨x, rfl⟩ := Hex.exists_digit_of_mem_ofNat hc
  exact decide_eq_true (lt_digit x)

lemma lt_of_isDigit {c : Char} (h : c.isDigit = true) : ' ' < c := by
  rw [Char.isDigit, Bool.and_eq_true, decide_eq_true_eq] at h
  exact UInt32.lt_of_lt_of_le (by decide : ' '.val < 48) h.1

@[simp] lemma isWord_repr (n : Nat) : isWord n.repr = true := by
  rw [isWord, List.all_eq_true]
  intro c hc
  exact decide_eq_true (lt_of_isDigit (List.all_eq_true.mp (Decimal.all_isDigit_repr n) c hc))

lemma notMem_of_isWord {s : String} (h : isWord s = true) {c : Char} (hc : ¬ ' ' < c) :
    c ∉ s.toList := by
  intro hmem
  rw [isWord, List.all_eq_true] at h
  exact hc (of_decide_eq_true (h c hmem))

/-- A line is cut into its words. -/
lemma splitOn_line {ws : List String} (hne : ws ≠ []) (h : ∀ w ∈ ws, isWord w = true) :
    (" ".intercalate ws).toList.splitOn ' ' = ws.map String.toList := by
  rw [String.toList_intercalate]
  apply List.splitOn_intercalate
  · rw [List.forall_mem_map]
    exact fun w hw => notMem_of_isWord (h w hw) (by decide)
  · rwa [ne_eq, List.map_eq_nil_iff]

/-- No line end is in a line. -/
lemma notMem_line {ws : List String} (h : ∀ w ∈ ws, isWord w = true) :
    '\n' ∉ (" ".intercalate ws).toList := by
  rw [String.toList_intercalate]
  intro hmem
  rcases List.mem_or_exists_mem_of_mem_intercalate hmem with hblank | ⟨cs, hcs, hmem⟩
  · exact absurd hblank (by decide)
  · obtain ⟨w, hw, rfl⟩ := List.mem_map.mp hcs
    exact notMem_of_isWord (h w hw) (by decide) hmem

/-- A text is cut into its lines. -/
lemma splitOn_text {lines : List (List String)} (hne : lines ≠ [])
    (h : ∀ ws ∈ lines, ∀ w ∈ ws, isWord w = true) :
    ("\n".intercalate (lines.map " ".intercalate)).toList.splitOn '\n' =
      lines.map fun ws => (" ".intercalate ws).toList := by
  rw [String.toList_intercalate, List.map_map]
  apply List.splitOn_intercalate
  · rw [List.forall_mem_map]
    exact fun ws hws => notMem_line (h ws hws)
  · rwa [ne_eq, List.map_eq_nil_iff]

/-- The words of the lines of a text are those from which it was put together. -/
theorem words_text {lines : List (List String)} (hne : lines ≠ [])
    (h : ∀ ws ∈ lines, ws ≠ [] ∧ ∀ w ∈ ws, isWord w = true) :
    words ("\n".intercalate (lines.map " ".intercalate)) = lines.map (List.map String.toList) := by
  rw [words, splitOn_text hne fun ws hws => (h ws hws).2, List.map_map]
  apply List.map_congr_left
  intro ws hws
  exact splitOn_line (h ws hws).1 (h ws hws).2

end Text

end Chip8
