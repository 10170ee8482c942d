import CodeListing.Proofs.Indexed.Token
import CodeListing.Proofs.Line
import CodeListing.Proofs.Step

/-! # Reading lines by index

A cursor goes along a line, and each token that is read at it tells where it goes next.
Every cursor that a line can have is good for every kind of token, and the cursor always
advances, so that a line is read to its end whatever its characters are and whatever
comment is open before it. What is read is what is read from the front.
-/

namespace CodeListing.Indexed

open Text (SourceLine)

def readOpenComment (start : Nat) (line : SourceLine) : Checked Reading := do
  match ← findCommentEnd line.text 0 with
  | some star => return { token := ← leaf .comment line 0 (star + 1), last := star + 1 }
  | none =>
    let last ← minus line.text.length 1
    return { token := ← leaf .comment line 0 last, opened := some start, last := last }

def Reading.prepend (reading : Reading) (later : LineReading) : LineReading where
  tokens := reading.token :: later.tokens
  warnings := reading.warnings ++ later.warnings
  openComment := later.openComment

/-- Reads the line from the cursor on, after the comment at `opened` was opened. -/
def scanFrom (settings : Settings) (line : SourceLine) (opened : Option Nat) (cursor : Nat) :
    Checked LineReading :=
  if _h : cursor < line.text.length then
    match readToken settings line cursor with
    | .error fault => .error fault
    | .ok reading =>
      if _h : cursor ≤ reading.last then do
        let later ← scanFrom settings line (reading.opened.or opened) (reading.last + 1)
        return reading.prepend later
      else .error (.astray reading.last)
  else return ⟨[], [], opened⟩
termination_by line.text.length - cursor

def scanLine (settings : Settings) (opened : Option Nat) (line : SourceLine) :
    Checked LineReading := do
  if line.text.isEmpty then return ⟨[], [], opened⟩
  else
    match opened with
    | none => scanFrom settings line none 0
    | some start =>
      let comment ← readOpenComment start line
      return comment.prepend (← scanFrom settings line comment.opened (comment.last + 1))

def scanLines (settings : Settings) (opened : Option Nat) :
    List SourceLine → Checked (List LineReading)
  | [] => return []
  | line :: lines => do
    let reading ← scanLine settings opened line
    return reading :: (← scanLines settings reading.openComment lines)

section

variable {settings : Settings} {line : SourceLine} {taken rest : List Char} {cursor : Nat}

theorem lastInk_take (h : line.text.drop cursor = taken ++ rest) :
    lastInk none (line.text.take (cursor + taken.length)) =
      lastInk (lastInk none (line.text.take cursor)) taken := by
  rw [List.take_add, h, List.take_left, lastInk_append]

/-- A reading that was made from the front is put before the others as from the front. A
comment stays open behind it if it was open before, or opens in it. -/
theorem prepend_ofStep {step : Step} {later : LineReading} (opened : Option Nat)
    (hLater : step.finding = some .openComment → later.openComment = none) :
    (Reading.ofStep line cursor step).prepend
        { later with
          openComment := later.openComment.or
            ((Reading.ofStep line cursor step).opened.or opened) } =
      { later.prepend (line.offset + cursor) step.token step.finding with
        openComment := (later.prepend (line.offset + cursor) step.token
          step.finding).openComment.or opened } := by
  unfold Reading.ofStep Reading.prepend LineReading.prepend
  cases hFinding : step.finding with
  | none => rfl
  | some finding =>
      cases finding with
      | defect defect length => rfl
      | openComment => simp [hLater hFinding]

theorem scanFrom_cons {c : Char} (h : line.text.drop cursor = c :: rest) (opened : Option Nat) :
    let step := Step.read settings (lastInk none (line.text.take cursor)) c rest
    let reading := Reading.ofStep line cursor step
    scanFrom settings line opened cursor = (do
      let later ← scanFrom settings line (reading.opened.or opened)
        (cursor + step.token.text.length)
      return reading.prepend later) := by
  intro step reading
  have hText : step.token.text.head? = some c := Step.head?_text_read ..
  obtain ⟨more, hMore⟩ := List.head?_eq_some_iff.1 hText
  have hLast : reading.last + 1 = cursor + step.token.text.length := by
    simp only [reading, Reading.ofStep, hMore, List.length_cons]
    omega
  have hAdvance : cursor ≤ reading.last := by
    rw [hMore, List.length_cons] at hLast
    omega
  rw [scanFrom, dif_pos (lt_length_of_drop h), readToken_of_drop h]
  dsimp only
  rw [dif_pos hAdvance, hLast]

theorem scanFrom_of_drop (h : line.text.drop cursor = rest) (opened : Option Nat) :
    scanFrom settings line opened cursor =
      let later := LineReading.ofText settings (line.offset + cursor)
        (lastInk none (line.text.take cursor)) rest
      .ok { later with openComment := later.openComment.or opened } := by
  induction hLength : rest.length using Nat.strongRecOn generalizing rest cursor opened with
  | ind length ih =>
      cases rest with
      | nil =>
          rw [scanFrom, dif_neg (Nat.not_lt.2 (List.drop_eq_nil_iff.1 h)), LineReading.ofText]
          rfl
      | cons c rest =>
          let step := Step.read settings (lastInk none (line.text.take cursor)) c rest
          have hSource : line.text.drop cursor = step.token.text ++ step.rest :=
            h.trans (Step.source_read ..).symm
          have hShorter : step.rest.length < length := by
            rw [← hLength]
            exact Nat.lt_succ_of_le (Step.length_rest_read ..)
          have hOpen (hFinding : step.finding = some .openComment) : step.rest = [] :=
            (Step.reads_read ..).rest_eq_nil (.inr hFinding)
          rw [scanFrom_cons h, ih _ hShorter (drop_add_of_drop hSource) _ rfl, ok_bind,
            LineReading.ofText_cons, pure_eq_ok, prepend_ofStep, lastInk_take hSource,
            ← Nat.add_assoc]
          intro hFinding
          rw [hOpen hFinding, LineReading.ofText]

theorem readOpenComment_of_drop {c : Char} (h : line.text.drop 0 = c :: rest) (start : Nat) :
    readOpenComment start line = .ok (
      match splitCommentEnd line.text with
      | none => ⟨.leaf .comment line.text, [], some start, line.text.length - 1⟩
      | some (comment, _) => ⟨.leaf .comment comment, [], none, comment.length - 1⟩) := by
  have hLength := length_of_drop h
  rw [readOpenComment, findCommentEnd_of_drop (List.drop_zero (l := line.text)), ok_bind]
  cases hSplit : splitCommentEnd line.text with
  | none =>
      have hLeaf := leaf_to_end h .comment
      rw [← h, List.drop_zero] at hLeaf
      simp only [Option.map_none, minus_of_le (show 1 ≤ line.text.length by omega), ok_bind, hLeaf,
        pure_eq_ok]
  | some parts =>
      obtain ⟨comment, after⟩ := parts
      have hTwo := two_le_length_of_splitCommentEnd hSplit
      have hText := eq_of_splitCommentEnd hSplit
      have hLast : 0 + comment.length - 2 + 1 = comment.length - 1 := by omega
      have hLeaf : leaf .comment line 0 (comment.length - 1) = .ok (.leaf .comment comment) := by
        have hPart := part_of_drop (i := 0) hText (Nat.zero_le _)
        rw [Nat.zero_add] at hPart
        rw [leaf, Nat.sub_add_cancel (Nat.one_le_of_lt hTwo), hPart]
        rfl
      simp only [Option.map_some, hLast, hLeaf, ok_bind, pure_eq_ok]

/-- A line is read by index as it is from the front. -/
theorem scanLine_eq (settings : Settings) (opened : Option Nat) (line : SourceLine) :
    scanLine settings opened line = .ok (LineReading.ofLine settings opened line) := by
  unfold scanLine LineReading.ofLine SourceLine.isBlank
  cases hText : line.text with
  | nil => rfl
  | cons c rest =>
      rw [← hText]
      have hStart : line.text.drop 0 = c :: rest := hText
      have hFull : line.text.isEmpty = false := by rw [hText]; rfl
      simp only [hFull, Bool.false_eq_true, if_false]
      cases opened with
      | none =>
          rw [scanFrom_of_drop List.drop_zero]
          simp [lastInk]
      | some start =>
          dsimp only
          rw [readOpenComment_of_drop hStart, ok_bind]
          cases hSplit : splitCommentEnd line.text with
          | none =>
              have hEnd : line.text.drop (line.text.length - 1 + 1) = [] :=
                List.drop_eq_nil_of_le (by omega)
              dsimp only
              rw [scanFrom_of_drop hEnd, LineReading.ofText]
              rfl
          | some parts =>
              obtain ⟨comment, after⟩ := parts
              have hPos := Nat.one_le_of_lt (two_le_length_of_splitCommentEnd hSplit)
              have hComment := eq_of_splitCommentEnd hSplit
              have hAfter : line.text.drop comment.length = after := by
                rw [hComment, List.drop_left]
              have hTaken : line.text.take comment.length = comment := by
                rw [hComment, List.take_left]
              dsimp only
              rw [Nat.sub_add_cancel hPos, scanFrom_of_drop hAfter, hTaken]
              simp [Reading.prepend, LineReading.prepend]

theorem scanLines_eq (settings : Settings) (opened : Option Nat) (lines : List SourceLine) :
    scanLines settings opened lines = .ok (LineReading.ofLines settings opened lines) := by
  induction lines generalizing opened with
  | nil => rfl
  | cons line lines ih =>
      rw [scanLines, scanLine_eq, ok_bind, ih]
      rfl

end

/-- Reading a line has no fault, wherever on the line a cursor stands and whatever is taken to
begin there. -/
structure StaysOnLine (settings : Settings) (line : SourceLine) : Prop where
  string : ∀ start < line.text.length, Stays line start (readString line start)
  run : ∀ start < line.text.length, ∀ tokenClass p,
    Stays line start (readRun tokenClass p line start)
  number : ∀ start < line.text.length, Stays line start (readNumber line start)
  slash : ∀ start < line.text.length,
    Stays line start (readSlash settings.maxRegexFlags line start)
  comment : ∀ start < line.text.length, Stays line start (readComment line start)
  /-- A regular expression need not be found. -/
  regex : ∀ start < line.text.length, ∃ regex warnings,
    readRegex settings.maxRegexFlags line start = .ok (regex, warnings) ∧
      ∀ reading ∈ regex, Stays line start (.ok reading)
  name : ∀ start < line.text.length, ∀ owner depth,
    Stays line start (readNameAt settings.maxMemberDepth line start owner depth)
  token : ∀ start < line.text.length, Stays line start (readToken settings line start)
  /-- An open comment takes the line from its first character on. -/
  openComment : line.text ≠ [] → ∀ start, Stays line 0 (readOpenComment start line)
  /-- The end of a comment is looked for from any index, on the line or behind it. -/
  commentEnd : ∀ start, ∃ star?, findCommentEnd line.text start = .ok star? ∧
    ∀ star ∈ star?, start ≤ star ∧ star + 1 < line.text.length
  /-- The cursor comes to the end of the line, and what is read is what is read from the front. -/
  whole : ∀ opened, scanLine settings opened line = .ok (LineReading.ofLine settings opened line)

/-- Writing the neutral form of a text has no fault, wherever in it the cursor stands. -/
structure StaysInPattern (body : List Char) : Prop where
  /-- The cursor advances and does not leave the text. -/
  construct : ∀ i < body.length, ∀ inClass afterSet, ∃ written,
    rewriteAt body inClass afterSet i = .ok written ∧ i < written.next ∧
      written.next ≤ body.length
  escape : body ≠ [] → ∀ inClass, ∃ text count,
    rewriteEscape inClass body = .ok (text, count) ∧ count ≤ body.length
  quantifier : body ≠ [] → ∃ length?, quantifierLength body = .ok length? ∧
    ∀ length ∈ length?, length ≤ body.length
  whole : rewrite body = .ok (Pattern.neutral body)

theorem findCommentEnd_stays (text : List Char) (start : Nat) :
    ∃ star?, findCommentEnd text start = .ok star? ∧
      ∀ star ∈ star?, start ≤ star ∧ star + 1 < text.length := by
  refine ⟨_, findCommentEnd_of_drop rfl, ?_⟩
  intro star hStar
  obtain ⟨⟨comment, after⟩, hSplit, rfl⟩ := Option.map_eq_some_iff.1 hStar
  have hTwo := two_le_length_of_splitCommentEnd hSplit
  have hLength := congrArg List.length (eq_of_splitCommentEnd hSplit)
  rw [List.length_drop, List.length_append] at hLength
  dsimp only
  omega

theorem stays_readOpenComment {line : SourceLine} (h : line.text ≠ []) (start : Nat) :
    Stays line 0 (readOpenComment start line) := by
  obtain ⟨c, rest, hText⟩ := List.exists_cons_of_ne_nil h
  have hStart : line.text.drop 0 = c :: rest := hText
  rw [readOpenComment_of_drop hStart]
  split
  · rw [hText]
    exact stays_leaf _ [] (by simp [hText]) (by simp) _ _ _
  · rename_i comment after hSplit
    have hTwo := two_le_length_of_splitCommentEnd hSplit
    have hComment : line.text.drop 0 = comment ++ after := eq_of_splitCommentEnd hSplit
    obtain ⟨d, more, rfl⟩ := List.exists_cons_of_length_pos (Nat.lt_of_succ_lt hTwo)
    exact stays_leaf more after hComment (by simp) _ _ _

theorem staysOnLine (settings : Settings) (line : SourceLine) : StaysOnLine settings line where
  string _ h := stays_readString (List.drop_eq_getElem_cons h)
  run _ h := stays_readRun (List.drop_eq_getElem_cons h)
  number _ h := stays_readNumber (List.drop_eq_getElem_cons h)
  slash _ h := stays_readSlash (List.drop_eq_getElem_cons h) _
  comment _ h := stays_readComment (List.drop_eq_getElem_cons h)
  regex _ h := stays_readRegex (List.drop_eq_getElem_cons h) _
  name _ h := stays_readNameAt (List.drop_eq_getElem_cons h) _
  token _ h := stays_readToken (List.drop_eq_getElem_cons h) settings
  openComment := stays_readOpenComment
  commentEnd := findCommentEnd_stays line.text
  whole opened := scanLine_eq settings opened line

theorem staysInPattern (body : List Char) : StaysInPattern body where
  construct i h inClass afterSet := by
    obtain ⟨written, hWritten, -, -, -, hAdvance, hInside, -⟩ :=
      follows_rewriteAt (List.drop_eq_getElem_cons h) inClass afterSet
    exact ⟨written, hWritten, hAdvance, hInside⟩
  escape h inClass := by
    obtain ⟨c, rest, rfl⟩ := List.exists_cons_of_ne_nil h
    obtain ⟨count, hEscape, hCount, -⟩ := takes_rewriteEscape inClass c rest
    exact ⟨_, count, hEscape, hCount⟩
  quantifier h := by
    obtain ⟨c, rest, rfl⟩ := List.exists_cons_of_ne_nil h
    refine ⟨_, quantifierLength_cons c rest, ?_⟩
    intro length hLength
    obtain ⟨⟨quantifier, after⟩, hSplit, rfl⟩ := Option.map_eq_some_iff.1 hLength
    have hRest := (Pattern.quantifier_of_split hSplit).1
    simp [hRest]
  whole := rewrite_eq body

/-- Whatever the settings, the text and the comment that is open before a line, no access by
index leaves the text, no difference is negative and every loop comes to its end. -/
theorem reading_stays (settings : Settings) :
    (∀ line, StaysOnLine settings line) ∧ (∀ body, StaysInPattern body) ∧
      ∀ opened lines, scanLines settings opened lines =
        .ok (LineReading.ofLines settings opened lines) :=
  ⟨staysOnLine settings, staysInPattern, scanLines_eq settings⟩

end CodeListing.Indexed
