import Mathlib.Data.List.Basic
import CodeListing.Listing
import CodeListing.Proofs.Line
import CodeListing.Proofs.Lines
import CodeListing.Proofs.Step

/-! # The spans of warnings

A warning is found at the front of a text that is being read, and its offset is
counted up from the lines and tokens before. The span that comes out holds, in
the whole source text, what the warning says. The comment that is open between
two lines is an invariant of the lines read so far: it begins where they have
`/*`, and nothing after that ends it.
-/

namespace CodeListing

open Text

/-- What a defect says of the text in its span, `piece`, and of the text `after` it on
the line. A line does not say that a comment never ends. -/
def Defect.IsIn (defect : Defect) (piece after : List Char) : Prop :=
  match defect with
  | .unterminatedString =>
    after = [] ∧ ∃ q body, piece = q :: body ∧ isQuote q = true ∧ meetsUnescaped q body = false
  | .rejectedRegex pattern =>
    piece = '/' :: (pattern.toList ++ ['/']) ∧ pattern.toList ≠ [] ∧
      OpensNoComment pattern.toList ∧ meetsUnescaped '/' pattern.toList = false ∧
      Pattern.isPattern pattern.toList = false
  | .unterminatedComment => False

theorem Step.Reads.isIn_of_defect {settings : Settings} {before : Option Char} {text : List Char}
    {step : Step} {defect : Defect} {length : Nat} (h : Reads settings before text step)
    (hFinding : step.finding = some (.defect defect length)) :
    ∃ piece after, text = piece ++ after ∧ piece.length = length ∧ defect.IsIn piece after := by
  cases h with
  | @unterminated q body hQuote hOpen =>
      cases hFinding
      exact ⟨q :: body, [], (List.append_nil _).symm, rfl, rfl, q, body, rfl, hQuote, hOpen⟩
  | @rejected body after hNoComment hAllowed hBody hPattern =>
      cases hFinding
      refine ⟨'/' :: (body ++ ['/']), after, by simp, by simp, ?_⟩
      rw [Defect.IsIn, String.toList_ofList]
      cases body with
      | nil => exact absurd rfl hNoComment.1
      | cons c body =>
          exact ⟨rfl, List.cons_ne_nil _ _, hNoComment, hBody.1, hPattern⟩
  | _ => cases hFinding

theorem Step.Reads.text_of_openComment {settings : Settings} {before : Option Char}
    {text : List Char} {step : Step} (h : Reads settings before text step)
    (hFinding : step.finding = some .openComment) :
    ∃ body, text = '/' :: '*' :: body ∧ ¬ commentEnd <:+: body := by
  cases h with
  | @openComment rest hNever => exact ⟨rest, rfl, hNever⟩
  | _ => cases hFinding

/-- The warning is about a part of `text`, which begins at `offset`. -/
def Warning.IsOn (warning : Warning) (offset : Nat) (text : List Char) : Prop :=
  ∃ before piece after, text = before ++ (piece ++ after) ∧ piece ≠ [] ∧
    warning.span = .ofLength (offset + before.length) piece.length ∧
    warning.defect.IsIn piece after

theorem Warning.IsOn.append_left {warning : Warning} {offset : Nat} {a b : List Char}
    (h : warning.IsOn (offset + a.length) b) : warning.IsOn offset (a ++ b) := by
  obtain ⟨before, piece, after, rfl, hNe, hSpan, hIn⟩ := h
  refine ⟨a ++ before, piece, after, (List.append_assoc ..).symm, hNe, ?_, hIn⟩
  rw [hSpan, List.length_append, Nat.add_assoc]

theorem Defect.IsIn.ne_nil {defect : Defect} {piece after : List Char}
    (h : defect.IsIn piece after) : piece ≠ [] := by
  cases defect with
  | unterminatedString =>
      obtain ⟨-, q, body, rfl, -⟩ := h
      exact List.cons_ne_nil _ _
  | rejectedRegex pattern =>
      rw [h.1]
      exact List.cons_ne_nil _ _
  | unterminatedComment => exact h.elim

namespace LineReading

theorem isOn_ofText {settings : Settings} {offset : Nat} {before : Option Char}
    {text : List Char} {warning : Warning}
    (h : warning ∈ (ofText settings offset before text).warnings) : warning.IsOn offset text := by
  induction offset, before, text using ofText.induct settings with
  | case1 => simp [ofText] at h
  | case2 offset before c rest step ih =>
      rw [ofText_cons] at h
      have hSource : step.token.text ++ step.rest = c :: rest :=
        Step.source_read settings before c rest
      rcases mem_warnings_prepend h with ⟨defect, length, hFinding, rfl⟩ | h
      · obtain ⟨piece, after, hText, rfl, hIn⟩ :=
          (Step.reads_read settings before c rest).isIn_of_defect hFinding
        exact ⟨[], piece, after, hText, hIn.ne_nil, rfl, hIn⟩
      · rw [← hSource]
        exact (ih h).append_left

theorem isOn_ofLine {settings : Settings} {openComment : Option Nat} {line : SourceLine}
    {warning : Warning} (h : warning ∈ (ofLine settings openComment line).warnings) :
    warning.IsOn line.offset line.text := by
  unfold ofLine at h
  split at h
  · cases h
  · split at h
    · exact isOn_ofText h
    · split at h
      · cases h
      · rename_i comment rest hSplit
        rw [eq_of_splitCommentEnd hSplit]
        rcases mem_warnings_prepend h with ⟨_, _, hFinding, -⟩ | h
        · cases hFinding
        · exact (isOn_ofText h).append_left

/-- The comment that the reading leaves open begins in `text`, which begins at `offset`,
and the rest of the text does not end it. -/
theorem openComment_ofText {settings : Settings} {offset : Nat} {before : Option Char}
    {text : List Char} {start : Nat}
    (h : (ofText settings offset before text).openComment = some start) :
    ∃ left body, text = left ++ '/' :: '*' :: body ∧ start = offset + left.length ∧
      ¬ commentEnd <:+: body := by
  induction offset, before, text using ofText.induct settings with
  | case1 => simp [ofText] at h
  | case2 offset before c rest step ih =>
      have hSource : step.token.text ++ step.rest = c :: rest :=
        Step.source_read settings before c rest
      rw [ofText_cons, openComment_prepend] at h
      split at h
      · rename_i hFinding
        obtain ⟨body, hText, hBody⟩ :=
          (Step.reads_read settings before c rest).text_of_openComment hFinding
        exact ⟨[], body, hText, (Option.some.inj h).symm, hBody⟩
      · obtain ⟨left, body, hRest, hStart, hBody⟩ := ih h
        refine ⟨step.token.text ++ left, body, ?_, ?_, hBody⟩
        · rw [← hSource, hRest, List.append_assoc]
        · rw [hStart, List.length_append, Nat.add_assoc]

end LineReading

/-- After the text `done` the comment at `openComment` is open: it begins there and nothing
ends it, not even a slash that would follow at once. -/
def IsOpenAfter (done : List Char) (openComment : Option Nat) : Prop :=
  ∀ start, openComment = some start → ∃ left body, done = left ++ '/' :: '*' :: body ∧
    start = left.length ∧ ¬ commentEnd <:+: body ++ ['/']

/-- Characters that have no part in the end of a comment. -/
def IsMargin (margin : List Char) : Prop :=
  ∀ c ∈ margin, c ≠ '*' ∧ c ≠ '/'

theorem isMargin_spaces (count : Nat) : IsMargin (List.replicate count ' ') := by
  intro c hc
  rw [List.eq_of_mem_replicate hc]
  decide

theorem isMargin_lineEnd (count : Nat) : IsMargin (List.replicate count ' ' ++ ['\n']) := by
  intro c hc
  rcases List.mem_append.1 hc with hc | hc
  · exact isMargin_spaces count c hc
  · rw [List.mem_singleton.1 hc]
    decide

theorem not_commentEnd_infix_nil : ¬ commentEnd <:+: [] := by
  intro h
  exact absurd h.length_le (by decide)

theorem isOpenAfter_text {done left text right : List Char} {start : Nat} (hNe : right ≠ [])
    (hRight : IsMargin right)
    (h : ∃ before body, text = before ++ '/' :: '*' :: body ∧
      start = done.length + left.length + before.length ∧ ¬ commentEnd <:+: body) :
    IsOpenAfter (done ++ (left ++ (text ++ right))) (some start) := by
  obtain ⟨before, body, rfl, rfl, hBody⟩ := h
  rintro _ ⟨⟩
  refine ⟨done ++ left ++ before, body ++ right, by simp, by simp [Nat.add_assoc], ?_⟩
  intro hEnd
  rw [List.append_assoc] at hEnd
  rcases commentEnd_infix_margin hNe hRight hEnd with hEnd | hEnd
  · exact hBody hEnd
  · exact not_commentEnd_infix_singleton _ hEnd

theorem IsOpenAfter.append {done left text right : List Char} {start : Nat}
    (h : IsOpenAfter done (some start)) (hLeft : IsMargin left) (hNe : right ≠ [])
    (hRight : IsMargin right) (hText : ¬ commentEnd <:+: text) :
    IsOpenAfter (done ++ (left ++ (text ++ right))) (some start) := by
  obtain ⟨before, body, rfl, rfl, hBody⟩ := h start rfl
  rintro _ ⟨⟩
  refine ⟨before, body ++ (left ++ (text ++ right)), by simp, rfl, ?_⟩
  intro hEnd
  simp only [List.append_assoc] at hEnd
  rcases commentEnd_infix_append hEnd with hEnd | hEnd
  · exact hBody hEnd
  have hEnd : commentEnd <:+: text ++ (right ++ ['/']) := by
    cases left with
    | nil => exact hEnd
    | cons c left =>
        rcases commentEnd_infix_margin (a := []) (List.cons_ne_nil c left) hLeft hEnd with h | h
        · exact absurd h not_commentEnd_infix_nil
        · exact h
  rcases commentEnd_infix_margin hNe hRight hEnd with hEnd | hEnd
  · exact hText hEnd
  · exact not_commentEnd_infix_singleton _ hEnd

theorem LineReading.isOpenAfter_ofLine (settings : Settings) {done : List Char}
    {openComment : Option Nat} (h : IsOpenAfter done openComment) (raw : List Char) :
    IsOpenAfter (done ++ (raw ++ ['\n']))
      (ofLine settings openComment (.ofRaw raw done.length)).openComment := by
  obtain ⟨count, hRaw⟩ := trim_margins raw
  have hLine : raw ++ ['\n'] = List.replicate (leftMargin raw) ' ' ++
      (trimRight (trimLeft raw) ++ (List.replicate count ' ' ++ ['\n'])) := by
    rw [← List.append_assoc (trimRight _), ← List.append_assoc, hRaw]
  have hLeft := isMargin_spaces (leftMargin raw)
  have hRight := isMargin_lineEnd count
  have hNe : List.replicate count ' ' ++ ['\n'] ≠ [] := List.append_ne_nil_of_right_ne_nil _ nofun
  -- a comment that the text of the line opens, as the reading of a part of it reports
  have hOpened (before : List Char) {rest : List Char} {prior : Option Char} {start : Nat}
      (hText : trimRight (trimLeft raw) = before ++ rest)
      (hOpen : (ofText settings (done.length + leftMargin raw + before.length) prior
        rest).openComment = some start) :
      IsOpenAfter (done ++ (raw ++ ['\n'])) (some start) := by
    obtain ⟨left, body, hRest, hStart, hBody⟩ := openComment_ofText hOpen
    rw [hLine]
    refine isOpenAfter_text hNe hRight ⟨before ++ left, body, ?_, ?_, hBody⟩
    · rw [hText, hRest, List.append_assoc]
    · rw [hStart, List.length_append, List.length_replicate, Nat.add_assoc]
  unfold ofLine
  split
  · rename_i hBlank
    have hText : trimRight (trimLeft raw) = [] := List.isEmpty_iff.1 hBlank
    cases openComment with
    | none => nofun
    | some start =>
        rw [hLine, hText]
        exact h.append hLeft hNe hRight not_commentEnd_infix_nil
  · cases openComment with
    | none =>
        intro start hOpen
        exact hOpened [] rfl hOpen start rfl
    | some start =>
        cases hSplit : splitCommentEnd (SourceLine.ofRaw raw done.length).text with
        | none =>
            rw [hLine]
            exact h.append hLeft hNe hRight (splitCommentEnd_eq_none_iff.1 hSplit)
        | some parts =>
            obtain ⟨comment, rest⟩ := parts
            intro start hOpen
            rw [openComment_prepend, if_neg nofun] at hOpen
            exact hOpened comment (eq_of_splitCommentEnd hSplit) hOpen start rfl

def Text.Span.slice (span : Span) (text : List Char) : List Char :=
  (text.drop span.start).take (span.stop - span.start)

theorem Text.Span.slice_ofLength (before piece after : List Char) :
    (ofLength before.length piece.length).slice (before ++ (piece ++ after)) = piece := by
  rw [slice, ofLength, List.drop_left, Nat.add_sub_cancel_left, List.take_left]

/-- The span of the warning lies in `text` and holds what the warning says. -/
def Warning.PointsAt (warning : Warning) (text : List Char) : Prop :=
  warning.span.start < warning.span.stop ∧ warning.span.stop ≤ text.length ∧
  match warning.defect with
  | .unterminatedString =>
    '\n' ∉ warning.span.slice text ∧
    (∀ c ∈ (text.drop warning.span.stop).takeWhile (· ≠ '\n'), c = ' ') ∧
    ∃ q body, warning.span.slice text = q :: body ∧ isQuote q = true ∧
      meetsUnescaped q body = false
  | .rejectedRegex pattern =>
    '\n' ∉ warning.span.slice text ∧
    warning.span.slice text = '/' :: (pattern.toList ++ ['/']) ∧ pattern.toList ≠ [] ∧
    OpensNoComment pattern.toList ∧ meetsUnescaped '/' pattern.toList = false ∧
    Pattern.isPattern pattern.toList = false
  | .unterminatedComment =>
    "/*".toList <+: text.drop warning.span.start ∧ warning.span.stop = text.length ∧
    ¬ commentEnd <:+: text.drop (warning.span.start + 2)

theorem takeWhile_line {right tail : List Char} (hRight : ∀ c ∈ right, c = ' ')
    (hTail : ∀ c, tail.head? = some c → c = '\n') :
    (right ++ tail).takeWhile (· ≠ '\n') = right := by
  rw [List.takeWhile_append_of_pos]
  · cases tail with
    | nil => simp
    | cons c tail =>
        rw [hTail c rfl]
        simp
  · intro c hc
    rw [hRight c hc]
    decide

/-- What a warning says of a line it says of the whole text. -/
theorem Warning.IsOn.pointsAt {warning : Warning} {done left text right tail : List Char}
    (h : warning.IsOn (done.length + left.length) text) (hNewline : '\n' ∉ text)
    (hRight : ∀ c ∈ right, c = ' ') (hTail : ∀ c, tail.head? = some c → c = '\n') :
    warning.PointsAt (done ++ (left ++ (text ++ (right ++ tail)))) := by
  obtain ⟨before, piece, after, rfl, hNe, hSpan, hIn⟩ := h
  have hWhole : done ++ (left ++ (before ++ (piece ++ after) ++ (right ++ tail))) =
      (done ++ left ++ before) ++ (piece ++ (after ++ (right ++ tail))) := by
    simp only [List.append_assoc]
  have hStart : done.length + left.length + before.length = (done ++ left ++ before).length := by
    simp only [List.length_append]
  have hPiece : '\n' ∉ piece := fun hMem =>
    hNewline (List.mem_append_right _ (List.mem_append_left _ hMem))
  have hLength := List.length_pos_iff.2 hNe
  rw [hWhole, PointsAt, hSpan, hStart, Span.slice_ofLength]
  refine ⟨?_, ?_, ?_⟩
  · simp only [Span.ofLength]
    omega
  · simp only [Span.ofLength, List.length_append]
    omega
  · cases hDefect : warning.defect with
    | unterminatedString =>
        rw [hDefect] at hIn
        obtain ⟨rfl, q, body, hText, hQuote, hOpen⟩ := hIn
        refine ⟨hPiece, ?_, q, body, hText, hQuote, hOpen⟩
        intro c hc
        have hDrop : (done ++ left ++ before ++ (piece ++ ([] ++ (right ++ tail)))).drop
            (Span.ofLength (done ++ left ++ before).length piece.length).stop = right ++ tail := by
          rw [Span.ofLength, ← List.length_append, ← List.append_assoc, List.drop_left]
          rfl
        rw [hDrop, takeWhile_line hRight hTail] at hc
        exact hRight c hc
    | rejectedRegex pattern =>
        rw [hDefect] at hIn
        exact ⟨hPiece, hIn⟩
    | unterminatedComment =>
        rw [hDefect] at hIn
        exact hIn.elim

theorem IsOpenAfter.pointsAt {text : List Char} {start : Nat}
    (h : IsOpenAfter (text ++ ['\n']) (some start)) :
    Warning.PointsAt ⟨.unterminatedComment, ⟨start, max text.length start⟩⟩ text := by
  obtain ⟨left, body, hText, rfl, hBody⟩ := h start rfl
  -- the line feed at the end belongs to the body, since it is neither `/` nor `*`
  rcases List.eq_nil_or_concat' body with rfl | ⟨inner, c, rfl⟩
  · have hText : text ++ ['\n'] = (left ++ ['/']) ++ ['*'] := by simpa using hText
    cases (List.append_inj' hText rfl).2
  have hText : text ++ ['\n'] = (left ++ '/' :: '*' :: inner) ++ [c] := by simpa using hText
  obtain ⟨rfl, hEnd⟩ := List.append_inj' hText rfl
  cases hEnd
  refine ⟨?_, ?_, ?_, ?_, ?_⟩
  · simp
  · simp
  · rw [List.drop_left]
    exact ⟨inner, rfl⟩
  · simp
  · rw [← List.drop_drop, List.drop_left]
    intro hEnd
    apply hBody
    exact (hEnd.trans (List.prefix_append inner ['\n']).isInfix).trans
      (List.prefix_append _ ['/']).isInfix

theorem append_intercalate (done raw next : List Char) (raws : List (List Char)) :
    done ++ ['\n'].intercalate (raw :: next :: raws) =
      done ++ (raw ++ ['\n']) ++ ['\n'].intercalate (next :: raws) := by
  simp only [List.intercalate_cons_cons, List.append_assoc]

theorem length_append_line (done raw : List Char) :
    done.length + raw.length + 1 = (done ++ (raw ++ ['\n'])).length := by
  simp [Nat.add_assoc]

namespace LineReading

theorem pointsAt_ofLines {settings : Settings} {raws : List (List Char)}
    (hNewline : ∀ raw ∈ raws, '\n' ∉ raw) (done : List Char) (openComment : Option Nat) :
    ∀ reading ∈ ofLines settings openComment (SourceLine.layOut done.length raws),
      ∀ warning ∈ reading.warnings, warning.PointsAt (done ++ ['\n'].intercalate raws) := by
  induction raws generalizing done openComment with
  | nil => nofun
  | cons raw raws ih =>
      obtain ⟨count, hRaw⟩ := trim_margins raw
      have hText : '\n' ∉ trimRight (trimLeft raw) := fun hMem =>
        hNewline raw List.mem_cons_self
          (hRaw ▸ List.mem_append_right _ (List.mem_append_left _ hMem))
      obtain ⟨tail, hJoin, hTail⟩ := exists_intercalate_cons raw raws
      have hHead : ∀ c, tail.head? = some c → c = '\n' := by
        rintro c hc
        rcases hTail with rfl | rfl
        · cases hc
        · exact (Option.some.inj hc).symm
      intro reading hReading warning hWarning
      rw [SourceLine.layOut, ofLines] at hReading
      rcases List.mem_cons.1 hReading with rfl | hReading
      · have hOn : warning.IsOn (done.length + (List.replicate (leftMargin raw) ' ').length)
            (trimRight (trimLeft raw)) := by
          rw [List.length_replicate]
          exact isOn_ofLine hWarning
        have hPoints := hOn.pointsAt hText
          (fun c hc => List.eq_of_mem_replicate (n := count) hc) hHead
        rwa [← List.append_assoc (trimRight _), ← List.append_assoc (List.replicate _ _), hRaw,
          ← hJoin] at hPoints
      · cases raws with
        | nil => cases hReading
        | cons next raws =>
            rw [append_intercalate]
            rw [length_append_line] at hReading
            exact ih (fun line hLine => hNewline line (List.mem_cons_of_mem _ hLine)) _ _
              reading hReading warning hWarning

theorem isOpenAfter_ofLines (settings : Settings) {raws : List (List Char)} (hNe : raws ≠ [])
    {done : List Char} {openComment : Option Nat} (h : IsOpenAfter done openComment) :
    IsOpenAfter (done ++ ['\n'].intercalate raws ++ ['\n'])
      ((ofLines settings openComment (SourceLine.layOut done.length raws)).getLast?.bind
        (·.openComment)) := by
  induction raws generalizing done openComment with
  | nil => exact absurd rfl hNe
  | cons raw raws ih =>
      have hLine := isOpenAfter_ofLine settings h raw
      rw [SourceLine.layOut, ofLines]
      cases raws with
      | nil =>
          rw [List.intercalate_singleton, List.append_assoc]
          exact hLine
      | cons next raws =>
          rw [append_intercalate, length_append_line, SourceLine.layOut, ofLines,
            List.getLast?_cons_cons]
          exact ih (List.cons_ne_nil _ _) hLine

theorem pointsAt_ofText {settings : Settings} {text : List Char} {reading : LineReading}
    (hReading : reading ∈ ofLines settings none (SourceLine.ofText text)) {warning : Warning}
    (hWarning : warning ∈ reading.warnings) : warning.PointsAt text := by
  have hText : ['\n'].intercalate (splitLines text) = text := List.intercalate_splitOn _
  have hPoints := pointsAt_ofLines (fun _ => newline_notMem_of_mem_splitLines) [] none
    reading hReading warning hWarning
  rwa [List.nil_append, hText] at hPoints

theorem isOpenAfter_ofText (settings : Settings) (text : List Char) :
    IsOpenAfter (text ++ ['\n'])
      ((ofLines settings none (SourceLine.ofText text)).getLast?.bind (·.openComment)) := by
  have hText : ['\n'].intercalate (splitLines text) = text := List.intercalate_splitOn _
  have hNe : splitLines text ≠ [] := List.splitOn_ne_nil _ _
  have hBegin : IsOpenAfter [] none := nofun
  have hOpen := isOpenAfter_ofLines settings hNe hBegin
  rwa [List.nil_append, hText] at hOpen

end LineReading

/-- Lines report what they hold, and the end of a text reports the comment that is open there. -/
theorem pointsAt_of_mem_warningsOf {settings : Settings} {text : List Char} {warning : Warning}
    (h : warning ∈ warningsOf text.length
      (LineReading.ofLines settings none (SourceLine.ofText text))) : warning.PointsAt text := by
  rcases List.mem_append.1 h with hLine | hComment
  · obtain ⟨reading, hReading, hWarning⟩ := List.mem_flatMap.1 hLine
    exact LineReading.pointsAt_ofText hReading hWarning
  · have hOpen := LineReading.isOpenAfter_ofText settings text
    split at hComment
    · cases hComment
    · rename_i start hStart
      rw [List.mem_singleton.1 hComment]
      exact IsOpenAfter.pointsAt (hStart ▸ hOpen)

/-- The span of every warning holds what the warning says, in the normal form of the
source. -/
theorem Listing.warnings_pointAt (settings : Settings) (source : String) :
    ∀ warning ∈ (ofSource settings source).warnings,
      warning.PointsAt (normalize source.toList) := by
  intro warning hWarning
  exact pointsAt_of_mem_warningsOf hWarning

/-- The text of a rejected pattern stands where tabs and line breaks have been replaced. -/
theorem Listing.warnings_pointAt_rejected :
    ⟨.rejectedRegex "b)", ⟨9, 13⟩⟩ ∈ (ofSource {} "\tf(\r\n\r\n\t a(/b)/ c").warnings ∧
    Warning.PointsAt ⟨.rejectedRegex "b)", ⟨9, 13⟩⟩ " f(\n\n  a(/b)/ c".toList := by
  have hMem : ⟨.rejectedRegex "b)", ⟨9, 13⟩⟩ ∈
      (ofSource {} "\tf(\r\n\r\n\t a(/b)/ c").warnings := by decide +kernel
  exact ⟨hMem, warnings_pointAt {} _ _ hMem⟩

end CodeListing
