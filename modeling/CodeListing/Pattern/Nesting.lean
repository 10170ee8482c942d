/-! # Nesting levels

A pattern may be nested only so deep. Whatever encloses parts of a pattern is
one level deeper than the deepest of them; a sequence or a choice encloses its
parts only if it has at least two.
-/

namespace CodeListing.Pattern

def maxNesting : Nat := 250

/-- The level of something around parts of the given levels. -/
def enclosing (levels : List Nat) : Nat :=
  levels.foldl max 0 + 1

/-- The level of a sequence of parts, or of a choice between them. -/
def nesting : List Nat → Nat
  | [] => 0
  | [level] => level
  | levels => enclosing levels

theorem nesting_eq (levels : List Nat) :
    nesting levels = levels.foldl max 0 + if 2 ≤ levels.length then 1 else 0 := by
  rcases levels with _ | ⟨first, _ | ⟨second, levels⟩⟩
  · rfl
  · simp [nesting]
  · simp [nesting, enclosing]

theorem foldl_max_le {levels : List Nat} {start bound : Nat} (hStart : start ≤ bound)
    (h : ∀ level ∈ levels, level ≤ bound) : levels.foldl max start ≤ bound := by
  induction levels generalizing start with
  | nil => exact hStart
  | cons level levels ih =>
      obtain ⟨hLevel, hLevels⟩ := List.forall_mem_cons.1 h
      exact ih (Nat.max_le.2 ⟨hStart, hLevel⟩) hLevels

theorem nesting_le {levels : List Nat} {bound : Nat} (h : ∀ level ∈ levels, level ≤ bound) :
    nesting levels ≤ bound + 1 := by
  have hMax := foldl_max_le (Nat.zero_le bound) h
  rw [nesting_eq]
  split <;> omega

end CodeListing.Pattern
