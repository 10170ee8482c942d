import CodeListing.Text.Lines
import CodeListing.Token.Step

/-! # Reading lines

A line is read as tokens from left to right. Between lines one thing is
remembered: the offset of the block comment that is still open, if there is
one. A line that begins inside a comment first ends it or belongs to it as a
whole, and a blank line has no tokens and changes nothing.
-/

namespace CodeListing

open Text

/-- What was read from one line. -/
structure LineReading where
  /-- The tokens of the line, from left to right. -/
  tokens : List Token
  /-- What was read as well as possible, in the order in which it was found. -/
  warnings : List Warning
  /-- Offset of the block comment that is open after the line. -/
  openComment : Option Nat
  deriving Repr, DecidableEq

/-- The last character of `text` that is no space; before `text` it was `before`. -/
def lastInk (before : Option Char) (text : List Char) : Option Char :=
  (text.reverse.find? (· ≠ ' ')).or before

namespace LineReading

/-- The reading with a token before it that begins at `offset`. -/
def prepend (offset : Nat) (token : Token) (finding : Option Finding)
    (later : LineReading) : LineReading :=
  match finding with
  | none => { later with tokens := token :: later.tokens }
  | some (.defect defect length) =>
    { later with
      tokens := token :: later.tokens
      warnings := ⟨defect, .ofLength offset length⟩ :: later.warnings }
  | some .openComment =>
    { later with tokens := token :: later.tokens, openComment := some offset }

/-- Reads the text at `offset` outside of comments, with `before` the last character
on its line that is no space. -/
def ofText (settings : Settings) (offset : Nat) (before : Option Char) :
    List Char → LineReading
  | [] => ⟨[], [], none⟩
  | c :: rest =>
    let step := Step.read settings before c rest
    (ofText settings (offset + step.token.text.length) (lastInk before step.token.text)
      step.rest).prepend offset step.token step.finding
termination_by text => text.length
decreasing_by
  have := Step.length_rest_read settings before c rest
  simp only [List.length_cons]
  omega

/-- Reads a line when the block comment at `openComment` is open before it. -/
def ofLine (settings : Settings) (openComment : Option Nat) (line : SourceLine) : LineReading :=
  if line.isBlank then ⟨[], [], openComment⟩
  else
    match openComment with
    | none => ofText settings line.offset none line.text
    | some start =>
      match splitCommentEnd line.text with
      | none => ⟨[.leaf .comment line.text], [], some start⟩
      | some (comment, rest) =>
        (ofText settings (line.offset + comment.length) (lastInk none comment) rest).prepend
          line.offset (.leaf .comment comment) none

/-- Reads lines one after another when the block comment at `openComment` is open before
the first. -/
def ofLines (settings : Settings) (openComment : Option Nat) :
    List SourceLine → List LineReading
  | [] => []
  | line :: lines =>
    let reading := ofLine settings openComment line
    reading :: ofLines settings reading.openComment lines

@[simp] theorem length_ofLines (settings : Settings) (lines : List SourceLine) :
    ∀ openComment, (ofLines settings openComment lines).length = lines.length := by
  induction lines with
  | nil => simp [ofLines]
  | cons line lines ih => simp [ofLines, ih]

end LineReading

/-- The warnings of lines read one after another, of which the text has `length`
characters. A block comment that is open at the end is reported last. -/
def warningsOf (length : Nat) (readings : List LineReading) : List Warning :=
  readings.flatMap (·.warnings) ++
    match readings.getLast?.bind (·.openComment) with
    | none => []
    | some start => [⟨.unterminatedComment, ⟨start, max length start⟩⟩]

end CodeListing
