import Mathlib.Data.List.TakeWhile
import CodeListing.Text.Lines

/-! # Lines and their margins

The lines of a text, joined again, are the text, and a line is its text between
two margins of spaces. So an offset that is counted line by line points at the
same character in the whole text.
-/

namespace CodeListing.Text

theorem splitLines_cons (c : Char) (text : List Char) :
    splitLines (c :: text) =
      if c = '\n' then [] :: splitLines text else (splitLines text).modifyHead (List.cons c) := by
  simp only [splitLines, List.splitOn_cons_eq_if_modifyHead, beq_iff_eq]

theorem newline_notMem_of_mem_splitLines {text line : List Char} (h : line ∈ splitLines text) :
    '\n' ∉ line := by
  induction text generalizing line with
  | nil =>
      rw [splitLines, List.splitOn_nil, List.mem_singleton] at h
      rw [h]
      exact List.not_mem_nil
  | cons c text ih =>
      obtain ⟨first, lines, hLines⟩ := List.exists_cons_of_ne_nil (List.splitOn_ne_nil '\n' text)
      change splitLines text = first :: lines at hLines
      rw [splitLines_cons] at h
      split at h
      · rcases List.mem_cons.1 h with rfl | h
        · exact List.not_mem_nil
        · exact ih h
      · rename_i hNewline
        rw [hLines, List.modifyHead_cons] at h
        rw [hLines] at ih
        rcases List.mem_cons.1 h with rfl | h
        · intro hMem
          rcases List.mem_cons.1 hMem with rfl | hMem
          · exact hNewline rfl
          · exact ih List.mem_cons_self hMem
        · exact ih (List.mem_cons_of_mem _ h)

/-- Behind a line the joined text ends, or a line feed and the other lines follow. -/
theorem exists_intercalate_cons (line : List Char) (lines : List (List Char)) :
    ∃ tail, ['\n'].intercalate (line :: lines) = line ++ tail ∧
      (tail = [] ∨ tail = '\n' :: ['\n'].intercalate lines) := by
  cases lines with
  | nil => exact ⟨[], rfl, .inl rfl⟩
  | cons next lines => exact ⟨_, rfl, .inr rfl⟩

theorem takeWhile_space (text : List Char) :
    text.takeWhile (· = ' ') = List.replicate (leftMargin text) ' ' := by
  rw [List.eq_replicate_iff]
  refine ⟨rfl, ?_⟩
  intro c hc
  simpa using List.all_eq_true.1 List.all_takeWhile c hc

theorem trimLeft_margin (text : List Char) :
    List.replicate (leftMargin text) ' ' ++ trimLeft text = text := by
  rw [← takeWhile_space]
  exact List.takeWhile_append_dropWhile

theorem trimRight_margin (text : List Char) :
    trimRight text ++ List.replicate (leftMargin text.reverse) ' ' = text := by
  have h := congrArg List.reverse (trimLeft_margin text.reverse)
  rwa [List.reverse_append, List.reverse_replicate, List.reverse_reverse] at h

theorem trim_margins (raw : List Char) :
    ∃ count, List.replicate (leftMargin raw) ' ' ++
      (trimRight (trimLeft raw) ++ List.replicate count ' ') = raw :=
  ⟨_, by rw [trimRight_margin, trimLeft_margin]⟩

theorem trimRight_eq_nil_iff {text : List Char} :
    trimRight text = [] ↔ ∀ c ∈ text, c = ' ' := by
  simp [trimRight, List.dropWhile_eq_nil_iff]

theorem trim_eq_nil_iff {raw : List Char} :
    trimRight (trimLeft raw) = [] ↔ ∀ c ∈ raw, c = ' ' := by
  rw [trimRight_eq_nil_iff]
  constructor
  · intro h c hc
    rw [← trimLeft_margin raw] at hc
    rcases List.mem_append.1 hc with hc | hc
    · exact List.eq_of_mem_replicate hc
    · exact h c hc
  · intro h c hc
    exact h c ((List.dropWhile_suffix _).subset hc)

end CodeListing.Text
