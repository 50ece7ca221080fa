import Mathlib.Data.List.Perm.Basic
import Mathlib.Tactic.Common

/-!
# Lists

Laws of lists that say nothing about the machine: a traversal none of whose elements fails, a
property that at most one element has, and what occurs in a list that is put together with
separators.
-/

namespace List

variable {α β γ : Type}

/-! ### Traversals -/

/-- A traversal gives all values if it gives one for each element. -/
lemma mapM_eq_some_of_forall {f : α → Option β} {g : α → β} {l : List α}
    (h : ∀ a ∈ l, f a = some (g a)) : l.mapM f = some (l.map g) := by
  induction l with
  | nil => rfl
  | cons a l ih =>
    rw [forall_mem_cons] at h
    simp [mapM_cons, h.1, ih h.2]

/-- What is read back from each text of a list is read back from all of them. -/
lemma mapM_map_eq_some {read : β → Option γ} {write : α → β} {value : α → γ}
    (h : ∀ a, read (write a) = some (value a)) (l : List α) :
    (l.map write).mapM read = some (l.map value) := by
  rw [mapM_map]
  exact mapM_eq_some_of_forall fun a _ => h a

/-! ### Single elements -/

/-- At most one element of a list has a property if no two of them have it together. -/
lemma countP_le_one {p : α → Bool} {l : List α}
    (h : l.Pairwise fun a b => ¬ (p a = true ∧ p b = true)) : l.countP p ≤ 1 := by
  induction l with
  | nil => simp
  | cons a l ih =>
    obtain ⟨ha, hl⟩ := pairwise_cons.mp h
    by_cases hpa : p a = true
    · have hnone : l.countP p = 0 := by
        rw [countP_eq_zero]
        intro b hb hpb
        exact ha b hb ⟨hpa, hpb⟩
      simp [hpa, hnone]
    · simp [hpa, ih hl]

/-- What comes first does not depend on the order if there is at most one. -/
lemma Perm.find?_eq {p : α → Bool} {l l' : List α} (hl : l.Perm l') (h : l'.countP p ≤ 1) :
    l.find? p = l'.find? p := by
  have hfilter := hl.filter p
  rw [countP_eq_length_filter] at h
  rw [← head?_filter, ← head?_filter]
  cases hl' : l'.filter p with
  | nil =>
    rw [hl', perm_nil] at hfilter
    rw [hfilter]
  | cons a rest =>
    rw [hl', length_cons] at h
    obtain rfl : rest = [] := eq_nil_of_length_eq_zero (by omega)
    rw [hl', perm_singleton] at hfilter
    rw [hfilter]

/-! ### Separators -/

/-- What occurs in a list that is put together occurs in the separator or in one of the parts. -/
lemma mem_or_exists_mem_of_mem_intercalate {sep : List α} {l : List (List α)} {a : α}
    (h : a ∈ sep.intercalate l) : a ∈ sep ∨ ∃ x ∈ l, a ∈ x := by
  induction l with
  | nil => simp at h
  | cons x l ih =>
    cases l with
    | nil =>
      rw [intercalate_singleton] at h
      exact .inr ⟨x, mem_cons_self, h⟩
    | cons y l =>
      rw [intercalate_cons_cons, mem_append, mem_append] at h
      rcases h with (h | h) | h
      · exact .inr ⟨x, mem_cons_self, h⟩
      · exact .inl h
      · rcases ih h with h | ⟨z, hz, h⟩
        · exact .inl h
        · exact .inr ⟨z, mem_cons_of_mem x hz, h⟩

end List
