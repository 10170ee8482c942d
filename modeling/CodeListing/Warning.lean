/-! # Warnings

Reading source text never fails. What does not look like complete code is read
as well as possible, and a warning says where. Every offset counts characters,
that is Unicode scalar values, from the start of the text it belongs to.
-/

namespace CodeListing

namespace Text

/-- A half-open range of character offsets: `start` is in it and `stop` is not. -/
structure Span where
  /-- Offset of the first character. -/
  start : Nat
  /-- Offset of the first character after the range. -/
  stop : Nat
  deriving Repr, DecidableEq

namespace Span

/-- The range of `length` characters that begins at `start`. -/
def ofLength (start length : Nat) : Span :=
  ⟨start, start + length⟩

def shift (distance : Nat) (span : Span) : Span :=
  ⟨span.start + distance, span.stop + distance⟩

def contains (span : Span) (offset : Nat) : Bool :=
  span.start ≤ offset && offset < span.stop

theorem shift_ofLength (distance start length : Nat) :
    (ofLength start length).shift distance = ofLength (start + distance) length := by
  simp [ofLength, shift, Nat.add_right_comm]

end Span

end Text

/-- What was read as well as possible. -/
inductive Defect where
  /-- A string without a closing quote on its line. -/
  | unterminatedString
  /-- A block comment without an end. -/
  | unterminatedComment
  /-- Text between two slashes that is no regular expression. -/
  | rejectedRegex (pattern : String)
  deriving Repr, DecidableEq

namespace Defect

def message : Defect → String
  | .unterminatedString => "Unterminated string literal"
  | .unterminatedComment => "Unterminated block comment"
  | .rejectedRegex pattern =>
    "'/" ++ pattern ++ "/' is not a valid regular expression; treated as division"

end Defect

/-- A defect and the characters it concerns. -/
structure Warning where
  /-- What is wrong. -/
  defect : Defect
  /-- The characters in question. -/
  span : Text.Span
  deriving Repr, DecidableEq

namespace Warning

/-- The warning for text that stands `distance` characters further right. -/
def shift (distance : Nat) (warning : Warning) : Warning :=
  { warning with span := warning.span.shift distance }

end Warning

end CodeListing
