import CodeListing.Report.Excerpt
import CodeListing.Report.Ink
import CodeListing.Warning

/-! # Reports

A report tells a warning together with an excerpt of the text: the lines of the
warning's span, marks along the span, and a note. A span within a line is
underlined and its middle leads to the label; a span over several lines is
bracketed in the margin, and lines between its first and last are left out.
-/

namespace CodeListing

namespace Defect

/-- What the excerpt's marks point out. -/
def label : Defect → String
  | .unterminatedString => "string runs to the end of the line"
  | .unterminatedComment => "comment opened here is never closed"
  | .rejectedRegex pattern => "'" ++ pattern ++ "' does not compile"

/-- What was done about the defect. -/
def note : Defect → String
  | .unterminatedString => "Highlighted as a string up to the line end"
  | .unterminatedComment => "Everything after the opener is highlighted as a comment"
  | .rejectedRegex _ => "The first slash is highlighted as a division operator"

end Defect

namespace Report

open Text Unicode

def heading (defect : Defect) : Row :=
  inked .mark "Warning:" ++ plain (" " ++ defect.message)

/-- The row that names the place of the span's start, and the row below it; `width` is
that of the line numbers. -/
def location (width : Nat) (name : String) (line : ExcerptLine) (start : Nat) : List Row :=
  let place :=
    " " ++ name ++ ":" ++ toString (line.index + 1) ++ ":"
      ++ toString (start - line.offset + 1) ++ " "
  [spaces (width + 2) ++ single .frame ['╭', '─', '['] ++ plain place ++ single .frame [']'],
   spaces (width + 2) ++ single .frame ['│']]

/-- What stands before a row that is no line of the text; `bar` is its last character. -/
def gutter (width : Nat) (bar : Char) : Row :=
  plain " " ++ inked .margin (String.ofList (List.replicate (width + 1) ' ' ++ [bar])) ++ plain " "

def lineNumber (width : Nat) (line : ExcerptLine) : Row :=
  let digits := toString (line.index + 1)
  let margin := List.replicate (width - digits.length) ' '
  plain " " ++ inked .frame (String.ofList margin ++ digits ++ " │") ++ plain " "

/-- The characters of a line, with those of the span marked. -/
def sourceText (span : Span) (line : ExcerptLine) : Row :=
  line.shown.mapIdx fun column c =>
    let ink := if span.contains (line.offset + column) then Ink.mark else Ink.source
    ⟨some ink, [if isBlank c then ' ' else c]⟩

/-- The first character and then others, as many as the column is wide. -/
def fill (width : Nat) (first others : Char) : List Char :=
  (first :: List.replicate (width - 1) others).take width

/-- The marks under the column of the given width: a line along the span, and at
`middle` a branch down to the label. -/
def underline (span : Span) (line : ExcerptLine) (middle column width : Nat) : Row :=
  let inside := span.contains (line.offset + column)
  if column = middle then
    single .mark (if inside then fill width '┬' '─' else fill width '│' ' ')
  else if inside then single .mark (fill width '─' '─')
  else spaces width

/-- The marks under those, which lead from `middle` to the label. -/
def leader (middle column width : Nat) : Row :=
  if column < middle then spaces width
  else if column = middle then single .mark (fill width '╰' '─')
  else single .mark (fill width '─' '─')

/-- The rows for a span within one line. A span that ends beyond its line is not shown. -/
def withinLine (width : Nat) (span : Span) (label : String) (line : ExcerptLine) : List Row :=
  if line.span.stop < span.stop then [gutter width '│']
  else
    let middle := max ((span.start + span.stop) / 2) span.start - line.offset
    let widths := line.widths (span.stop - line.offset + 2)
    [lineNumber width line ++ sourceText span line,
     gutter width '│' ++ (widths.mapIdx (underline span line middle)).flatten,
     gutter width '│' ++ (widths.mapIdx (leader middle)).flatten ++ plain (" " ++ label)]

/-- The rows for a line of a span that begins in line `first` and ends in a later one. The
bracket closes in the line that holds the last character of the span. -/
def acrossLine (width : Nat) (span : Span) (label : String) (first : Nat)
    (line : ExcerptLine) : List Row :=
  if line.index = first then
    [lineNumber width line ++ single .mark ['╭', '─', '▶', ' '] ++ sourceText span line]
  else if line.span.contains (span.stop - 1) then
    let reach := 3 + (line.widths (line.text.length + 2)).foldl (· + ·) 0
    [lineNumber width line ++ single .mark ['├', '─', '▶', ' '] ++ sourceText span line,
     gutter width '│' ++ single .mark ['│'] ++ spaces reach,
     gutter width '│' ++ single .mark ('╰' :: List.replicate reach '─') ++ plain (" " ++ label)]
  else if line.index = first + 1 then
    [gutter width '┆' ++ single .mark ['┆'] ++ spaces 3]
  else []

/-- What stands before the note. A bracket in the margin leaves its place empty, but one
that begins exactly where the second line does shows once more. -/
def notePrefix (span : Span) (lines : List ExcerptLine) (isWithin : Bool) : Row :=
  if isWithin then []
  else if (lines.head?.map (·.span.stop)) = some span.start then
    single .mark ['│'] ++ spaces 3
  else spaces 4

/-- The note and the end of the frame. -/
def closing (width : Nat) (before : Row) (note : String) : List Row :=
  [gutter width '│' ++ before,
   gutter width '│' ++ before ++ inked .note "Note" ++ plain (": " ++ note),
   inked .frame (String.ofList (List.replicate (width + 2) '─' ++ ['╯']))]

/-- The rows of a report on the text called `name`. A span that is not in the text has no
excerpt. -/
def rows (name : String) (text : List Char) (warning : Warning) : List Row :=
  let span := warning.span
  let lines := ExcerptLine.ofText text
  let first? := ExcerptLine.at? text.length lines span.start
  let last? :=
    if span.start < span.stop then ExcerptLine.at? text.length lines (span.stop - 1) else first?
  heading warning.defect ::
    match first?, last? with
    | some first, some last =>
      let width := (toString (last.index + 1)).length
      let isWithin := first.index = last.index
      let label := warning.defect.label
      let excerpt :=
        if isWithin then withinLine width span label first
        else
          (lines.filter fun line => first.index ≤ line.index && line.index ≤ last.index).flatMap
            (acrossLine width span label first.index)
      location width name first span.start ++ excerpt ++
        closing width (notePrefix span lines isWithin) warning.defect.note
    | _, _ => []

def write (coloured : Bool) (name : String) (text : List Char) (warning : Warning) :
    List Char :=
  (rows name text warning).flatMap (writeRow coloured)

end Report

end CodeListing
