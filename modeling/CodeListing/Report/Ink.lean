/-! # Coloured text for terminals

A report is made of rows, and a row of pieces of text that are each written in
one ink. Whether the inks are shown is decided when the rows are written, so a
report has the same text with and without colours.
-/

namespace CodeListing.Report

inductive Ink where
  /-- Marks, and the text that they point out. -/
  | mark
  /-- Other text of the source. -/
  | source
  /-- The frame and the line numbers. -/
  | frame
  /-- The frame beside rows that are no lines of the source. -/
  | margin
  | note
  deriving Repr, DecidableEq

namespace Ink

/-- The parameters that select the ink on a terminal. -/
def code : Ink → String
  | .mark => "33"
  | .source => "38;5;249"
  | .frame => "38;5;246"
  | .margin => "38;5;240"
  | .note => "38;5;115"

end Ink

structure Piece where
  ink : Option Ink
  text : List Char
  deriving Repr, DecidableEq

/-- One row of a report. -/
abbrev Row := List Piece

def plain (text : String) : Row :=
  [⟨none, text.toList⟩]

def spaces (count : Nat) : Row :=
  [⟨none, List.replicate count ' '⟩]

def inked (ink : Ink) (text : String) : Row :=
  [⟨some ink, text.toList⟩]

/-- Characters in one ink that are each a piece. -/
def single (ink : Ink) (text : List Char) : Row :=
  text.map fun c => ⟨some ink, [c]⟩

/-- Writes a piece, with its ink if `coloured`. -/
def Piece.write (coloured : Bool) (piece : Piece) : List Char :=
  match piece.ink with
  | some ink =>
    if coloured then
      "\x1b[".toList ++ ink.code.toList ++ 'm' :: piece.text ++ "\x1b[0m".toList
    else piece.text
  | none => piece.text

def writeRow (coloured : Bool) (row : Row) : List Char :=
  row.flatMap (·.write coloured) ++ ['\n']

theorem writeRow_plain (row : Row) : writeRow false row = row.flatMap (·.text) ++ ['\n'] := by
  have (piece : Piece) : piece.write false = piece.text := by
    unfold Piece.write
    split <;> rfl
  simp [writeRow, this]

end CodeListing.Report
