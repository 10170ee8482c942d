import CodeListing.Unicode.Basic

/-! # What an extended pattern ignores

In an extended pattern white space and comments stand between the parts
without meaning anything. Every reader of this library asks for the text that
follows, so extended and plain patterns are read by the same rules.
-/

namespace CodeListing.Pattern

open Unicode

/-- The text after any white space and comments; a comment runs from `#` to the end
of its line, and `inComment` says that the text begins in one. -/
def skipTrivia (inComment : Bool) : List Char → List Char
  | [] => []
  | c :: rest =>
    if inComment then skipTrivia (c ≠ '\n') rest
    else if isBlank c then skipTrivia false rest
    else if c = '#' then skipTrivia true rest
    else c :: rest

/-- The text that counts: all of it, or in an extended pattern what trivia leaves. -/
def skip (extended : Bool) (text : List Char) : List Char :=
  if extended then skipTrivia false text else text

/-- The character that decides whether a dash makes a range. In an extended pattern
it is looked for behind white space and one `#`; where nothing but these follows,
it is the next character all the same. -/
def peek (extended : Bool) (text : List Char) : Option Char :=
  if extended then
    match text.dropWhile isBlank with
    | '#' :: more => (more.dropWhile isBlank).head?.or text.head?
    | more => more.head?.or text.head?
  else text.head?

theorem length_skipTrivia_le (text : List Char) :
    ∀ inComment, (skipTrivia inComment text).length ≤ text.length := by
  induction text with
  | nil => simp [skipTrivia]
  | cons c rest ih =>
    intro inComment
    unfold skipTrivia
    split
    · exact Nat.le_succ_of_le (ih _)
    · split
      · exact Nat.le_succ_of_le (ih _)
      · split
        · exact Nat.le_succ_of_le (ih _)
        · exact Nat.le_refl _

theorem length_skip_le (extended : Bool) (text : List Char) :
    (skip extended text).length ≤ text.length := by
  unfold skip
  split
  · exact length_skipTrivia_le text false
  · exact Nat.le_refl _

@[simp] theorem skip_false (text : List Char) : skip false text = text := rfl

end CodeListing.Pattern
