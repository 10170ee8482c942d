import CodeListing.Indentation
import CodeListing.Line
import CodeListing.Markup

/-! # Listings

A listing shows source text as HTML, one list item for each line. The padding
of an item and its tokens are found independently of each other: the padding
from the ends of the lines, the tokens from reading them.
-/

namespace CodeListing

open Text

/-- Source text as HTML. -/
structure Listing where
  /-- The list items, one after another. -/
  html : String
  /-- How many items there are. -/
  lineCount : Nat
  /-- What was read as well as possible. -/
  warnings : List Warning
  deriving Repr, DecidableEq

namespace Listing

/-- The markup of each line, given what was read from it. -/
def items (settings : Settings) (lines : List SourceLine) (readings : List LineReading) :
    List (List Char) :=
  let prefixed := settings.classPrefix.toList
  List.zipWith
    (fun padding reading => Markup.item (padding.map (·, Markup.ofTokens prefixed reading.tokens)))
    (Indentation.paddings settings.indentUnit 0 (lines.map SourceLine.ends?)) readings

def ofSource (settings : Settings) (source : String) : Listing :=
  let text := normalize source.toList
  let lines := SourceLine.ofText text
  let readings := LineReading.ofLines settings none lines
  { html := String.ofList (items settings lines readings).flatten
    lineCount := lines.length
    warnings := warningsOf text.length readings }

theorem length_items (settings : Settings) (lines : List SourceLine) :
    (items settings lines (LineReading.ofLines settings none lines)).length = lines.length := by
  simp [items]

end Listing

end CodeListing
