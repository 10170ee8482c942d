import CodeListing.Line

/-! # The tokens of a line

Whatever a step finds, it puts one token before the tokens of the rest of the
line. So the tokens of a line, one after another, are the line. What a run over
lines hands on from line to line is the open block comment, so a run over two
texts is a run over the first and then one over the second.
-/

namespace CodeListing

theorem lastInk_append (before : Option Char) (a b : List Char) :
    lastInk before (a ++ b) = lastInk (lastInk before a) b := by
  rw [lastInk, List.reverse_append, List.find?_append, Option.or_assoc]
  rfl

namespace LineReading

variable {settings : Settings}

theorem ofText_cons (offset : Nat) (before : Option Char) (c : Char) (rest : List Char) :
    ofText settings offset before (c :: rest) =
      let step := Step.read settings before c rest
      (ofText settings (offset + step.token.text.length) (lastInk before step.token.text)
        step.rest).prepend offset step.token step.finding := by
  rw [ofText]

@[simp] theorem tokens_prepend (offset : Nat) (token : Token) (finding : Option Finding)
    (later : LineReading) :
    (later.prepend offset token finding).tokens = token :: later.tokens := by
  unfold prepend
  split <;> rfl

theorem mem_warnings_prepend {offset : Nat} {token : Token} {finding : Option Finding}
    {later : LineReading} {warning : Warning}
    (h : warning ∈ (later.prepend offset token finding).warnings) :
    (∃ defect length, finding = some (.defect defect length) ∧
      warning = ⟨defect, .ofLength offset length⟩) ∨ warning ∈ later.warnings := by
  unfold prepend at h
  split at h
  · exact .inr h
  · rename_i defect length
    rcases List.mem_cons.1 h with rfl | h
    · exact .inl ⟨defect, length, rfl, rfl⟩
    · exact .inr h
  · exact .inr h

theorem openComment_prepend (offset : Nat) (token : Token) (finding : Option Finding)
    (later : LineReading) :
    (later.prepend offset token finding).openComment =
      if finding = some .openComment then some offset else later.openComment := by
  unfold prepend
  split <;> simp

theorem text_ofText (offset : Nat) (before : Option Char) (text : List Char) :
    (ofText settings offset before text).tokens.flatMap Token.text = text := by
  fun_induction ofText settings offset before text with
  | case1 => rfl
  | case2 offset before c rest step ih =>
      rw [tokens_prepend, List.flatMap_cons, ih]
      exact Step.source_read settings before c rest

/-- The tokens of a line are its text cut up, also where a comment goes on. -/
theorem text_ofLine (openComment : Option Nat) (line : Text.SourceLine) :
    (ofLine settings openComment line).tokens.flatMap Token.text = line.text := by
  unfold ofLine
  split
  · rename_i hBlank
    exact (List.isEmpty_iff.1 hBlank).symm
  · split
    · exact text_ofText _ _ _
    · split
      · exact List.append_nil _
      · rename_i comment rest hSplit
        rw [tokens_prepend, List.flatMap_cons, text_ofText, eq_of_splitCommentEnd hSplit]
        rfl

/-- Offset of the block comment that is open after lines, when the one at `openComment` was
open before them. -/
def openAfter (openComment : Option Nat) : List LineReading → Option Nat
  | [] => openComment
  | reading :: readings => openAfter reading.openComment readings

theorem openAfter_eq (openComment : Option Nat) (readings : List LineReading) :
    openAfter openComment readings = (readings.getLast?.map (·.openComment)).getD openComment := by
  induction readings generalizing openComment with
  | nil => rfl
  | cons reading readings ih =>
      rw [openAfter, ih, List.getLast?_cons]
      cases readings.getLast? <;> rfl

theorem ofLines_append (openComment : Option Nat) (first second : List Text.SourceLine) :
    ofLines settings openComment (first ++ second) =
      ofLines settings openComment first ++
        ofLines settings (openAfter openComment (ofLines settings openComment first)) second := by
  induction first generalizing openComment with
  | nil => rfl
  | cons line lines ih =>
      rw [List.cons_append, ofLines, ih]
      rfl

end LineReading

end CodeListing
