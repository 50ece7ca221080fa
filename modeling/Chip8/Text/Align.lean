/-!
# Alignment

A column of fixed width holds its text on the right. Text that is longer is not cut.
-/

namespace Chip8.Text

/-- Put blanks in front of `s` until it has `width` characters. -/
def alignRight (width : Nat) (s : String) : String :=
  String.ofList (s.toList.leftpad width ' ')

@[simp] theorem toList_alignRight (width : Nat) (s : String) :
    (alignRight width s).toList = s.toList.leftpad width ' ' := by
  simp [alignRight]

theorem alignRight_of_le {width : Nat} {s : String} (h : width ≤ s.length) :
    alignRight width s = s := by
  have : width - s.toList.length = 0 := by rw [String.length_toList]; omega
  simp [alignRight, List.leftpad, this]

end Chip8.Text
