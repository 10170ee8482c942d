import CodeListing.Warning
import CodeListing.Unicode.Width

/-! # Lines of an excerpt

A report shows lines of the text that it is about. More characters end a line
here than end a line of source, and the end belongs to its line, so every
offset of the text lies in a line.
-/

namespace CodeListing.Report

open Unicode

/-- The lines of a text, each with its end. An empty text has one line. -/
def excerptLines : List Char → List (List Char)
  | [] => [[]]
  | [c] => [[c]]
  | c :: rest =>
    if isLineEnd c then [c] :: excerptLines rest
    else
      match excerptLines rest with
      | [] => [[c]]
      | line :: lines => (c :: line) :: lines

structure ExcerptLine where
  /-- How many lines come before it. -/
  index : Nat
  /-- Offset of its first character. -/
  offset : Nat
  /-- Its characters, with its end. -/
  text : List Char
  deriving Repr, DecidableEq

namespace ExcerptLine

/-- The lines from the one with number `index` on, which begins at `offset`. -/
def layOut (index offset : Nat) : List (List Char) → List ExcerptLine
  | [] => []
  | text :: lines => ⟨index, offset, text⟩ :: layOut (index + 1) (offset + text.length) lines

def ofText (text : List Char) : List ExcerptLine :=
  layOut 0 0 (excerptLines text)

/-- The line of an offset into a text of `length` characters: the last that does not begin
after it. The end of the text belongs to the last line. -/
def at? (length : Nat) (lines : List ExcerptLine) (offset : Nat) : Option ExcerptLine :=
  if offset ≤ length then (lines.filter (·.offset ≤ offset)).getLast? else none

/-- The characters that are shown: all but the white space at the end. -/
def shown (line : ExcerptLine) : List Char :=
  (line.text.reverse.dropWhile isBlank).reverse

def span (line : ExcerptLine) : Text.Span :=
  .ofLength line.offset line.text.length

/-- The width of the line's first `count` columns, and of as many beyond its end. A
character that is not shown has one column. -/
def widths (line : ExcerptLine) (count : Nat) : List Nat :=
  let shown := (line.shown.take count).map columnWidth
  shown ++ List.replicate (count - shown.length) 1

end ExcerptLine

end CodeListing.Report
