/-! # Lines of source text

Source text is read in one normal form: a line feed is the only line break and
a space the only margin character. A normal text is cut into lines, and a line
into its margins and the text between them. No character is lost on the way,
so the offset of every line can be counted from the lines before it.
-/

namespace CodeListing.Text

/-- Every line break becomes a line feed and every tab one space. -/
def normalize : List Char → List Char
  | '\r' :: '\n' :: rest => '\n' :: normalize rest
  | '\r' :: rest => '\n' :: normalize rest
  | '\t' :: rest => ' ' :: normalize rest
  | c :: rest => c :: normalize rest
  | [] => []

/-- The pieces between line feeds; there is always at least one. -/
def splitLines (text : List Char) : List (List Char) :=
  text.splitOn '\n'

def trimLeft (text : List Char) : List Char :=
  text.dropWhile (· = ' ')

def trimRight (text : List Char) : List Char :=
  (text.reverse.dropWhile (· = ' ')).reverse

/-- How many spaces stand before the text. -/
def leftMargin (text : List Char) : Nat :=
  (text.takeWhile (· = ' ')).length

/-- A line between its margins, and where it stands in the whole text. -/
structure SourceLine where
  /-- The characters between the margins; empty for a blank line. -/
  text : List Char
  /-- Offset of the first of them, or for a blank line of its end. -/
  offset : Nat
  deriving Repr, DecidableEq

namespace SourceLine

/-- The line `raw` that begins at `start`, without its margins. -/
def ofRaw (raw : List Char) (start : Nat) : SourceLine :=
  ⟨trimRight (trimLeft raw), start + leftMargin raw⟩

def isBlank (line : SourceLine) : Bool :=
  line.text.isEmpty

/-- First and last character of a line that is not blank. -/
def ends? (line : SourceLine) : Option (Char × Char) :=
  match line.text with
  | [] => none
  | c :: rest => some (c, rest.getLastD c)

/-- The lines of which the first begins at `start`, one line feed after each. -/
def layOut (start : Nat) : List (List Char) → List SourceLine
  | [] => []
  | raw :: lines => ofRaw raw start :: layOut (start + raw.length + 1) lines

def ofText (text : List Char) : List SourceLine :=
  layOut 0 (splitLines text)

@[simp] theorem length_layOut (lines : List (List Char)) :
    ∀ start, (layOut start lines).length = lines.length := by
  induction lines with
  | nil => simp [layOut]
  | cons raw lines ih => simp [layOut, ih]

end SourceLine

end CodeListing.Text
