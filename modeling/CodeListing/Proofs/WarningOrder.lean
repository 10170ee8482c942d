import CodeListing.Proofs.Concatenation
import CodeListing.Proofs.WarningSpans

/-! # The order of warnings

Warnings come from left to right. Reading goes on behind the first character of
what a warning is about, so the next warning begins further right, and a string
that never ends leaves nothing on its line to go on with. A comment that never
ends waits for the end of the run before it is reported. Until then nothing is
read but the comment, so its report follows reports of text before it only.
-/

namespace CodeListing

open Text

/-- The line of an offset: how many line feeds stand before it. -/
def Text.lineOf (text : List Char) (offset : Nat) : Nat :=
  (text.take offset).count '\n'

def openReport (length : Nat) : Option Nat → List Warning
  | none => []
  | some start => [⟨.unterminatedComment, ⟨start, max length start⟩⟩]

/-- What readings tell, the last being the report of the comment that they leave open, when the one
at `openComment` was open before them. -/
def told (length : Nat) (openComment : Option Nat) (readings : List LineReading) : List Warning :=
  readings.flatMap (·.warnings) ++ openReport length (LineReading.openAfter openComment readings)

theorem told_cons (length : Nat) (openComment : Option Nat) (reading : LineReading)
    (readings : List LineReading) : told length openComment (reading :: readings) =
      reading.warnings ++ told length reading.openComment readings := by
  rw [told, List.flatMap_cons, List.append_assoc]
  rfl

theorem warningsOf_eq_told (length : Nat) (readings : List LineReading) :
    warningsOf length readings = told length none readings := by
  rw [warningsOf_eq, told]
  cases LineReading.openAfter none readings <;> rfl

theorem Step.length_read (settings : Settings) (before : Option Char) (c : Char)
    (rest : List Char) :
    0 < (read settings before c rest).token.text.length ∧
      (read settings before c rest).token.text.length +
        (read settings before c rest).rest.length = rest.length + 1 := by
  have hSource := congrArg List.length (source_read settings before c rest)
  rw [source, List.length_append, List.length_cons] at hSource
  have hRest := length_rest_read settings before c rest
  exact ⟨by omega, hSource⟩

namespace Warning

def BeginsIn (warning : Warning) (start stop : Nat) : Prop :=
  start ≤ warning.span.start ∧ warning.span.start < stop

/-- What holds of two warnings about a line, the first of which comes before the second. -/
def PrecedesInLine (first second : Warning) : Prop :=
  first.span.start < second.span.start ∧ first.defect ≠ .unterminatedComment ∧
    first.defect ≠ .unterminatedString

/-- What holds of two warnings about a text, the first of which comes before the second. -/
def Precedes (text : List Char) (first second : Warning) : Prop :=
  first.span.start < second.span.start ∧ first.defect ≠ .unterminatedComment ∧
    (first.defect = .unterminatedString →
      lineOf text first.span.start < lineOf text second.span.start)

theorem PrecedesInLine.precedes {first second : Warning} (h : first.PrecedesInLine second)
    (text : List Char) : first.Precedes text second :=
  ⟨h.1, h.2.1, fun hDefect => absurd hDefect h.2.2⟩

end Warning

/-- The warnings begin between the offsets and come in their order, as on one line. -/
structure InLine (start stop : Nat) (warnings : List Warning) : Prop where
  begins : ∀ warning ∈ warnings, warning.BeginsIn start stop
  ordered : warnings.Pairwise Warning.PrecedesInLine

theorem InLine.nil (start stop : Nat) : InLine start stop [] where
  begins := List.forall_mem_nil _
  ordered := .nil

theorem InLine.mono {start stop start' stop' : Nat} {warnings : List Warning}
    (h : InLine start stop warnings) (hStart : start' ≤ start) (hStop : stop ≤ stop') :
    InLine start' stop' warnings where
  begins warning hWarning := by
    obtain ⟨hLeft, hRight⟩ := h.begins warning hWarning
    exact ⟨by omega, by omega⟩
  ordered := h.ordered

/-- A warning can stand before others that begin further right, unless it takes the rest of the
line. -/
theorem InLine.cons {start stop : Nat} {warning : Warning} {warnings : List Warning}
    (h : InLine (start + 1) stop warnings) (hBegins : warning.span.start = start)
    (hStop : start < stop) (hLast : warnings ≠ [] →
      warning.defect ≠ .unterminatedComment ∧ warning.defect ≠ .unterminatedString) :
    InLine start stop (warning :: warnings) where
  begins := by
    refine List.forall_mem_cons.2 ⟨⟨by omega, by omega⟩, ?_⟩
    exact (h.mono (Nat.le_succ start) (Nat.le_refl stop)).begins
  ordered := by
    apply List.Pairwise.cons ?_ h.ordered
    intro other hOther
    have hRight := (h.begins other hOther).1
    exact ⟨by omega, hLast (List.ne_nil_of_mem hOther)⟩

theorem InLine.left {start stop : Nat} {first second : List Warning}
    (h : InLine start stop (first ++ second)) : InLine start stop first where
  begins warning hWarning := h.begins warning (List.mem_append_left _ hWarning)
  ordered := h.ordered.sublist (List.sublist_append_left first second)

namespace LineReading

def allWarnings (length : Nat) (reading : LineReading) : List Warning :=
  reading.warnings ++ openReport length reading.openComment

theorem inLine_ofText (settings : Settings) (length offset : Nat) (before : Option Char)
    (text : List Char) :
    InLine offset (offset + text.length)
      ((ofText settings offset before text).allWarnings length) := by
  induction offset, before, text using ofText.induct settings with
  | case1 offset before =>
      rw [ofText]
      exact .nil ..
  | case2 offset before c rest step ih =>
      have hReads : Step.Reads settings before (c :: rest) step := Step.reads_read ..
      obtain ⟨hPos, hTotal⟩ : 0 < step.token.text.length ∧
        step.token.text.length + step.rest.length = rest.length + 1 := Step.length_read ..
      have hLater : InLine (offset + 1) (offset + (rest.length + 1)) _ :=
        ih.mono (by omega) (by omega)
      have hStop : offset < offset + (rest.length + 1) := by omega
      -- nothing is read behind a token that takes the rest of the line
      have hNothing (hRest : step.rest = []) (place : Nat) (before : Option Char) :
          ofText settings place before step.rest = ⟨[], [], none⟩ := by
        rw [hRest, ofText]
      rw [ofText_cons, List.length_cons]
      change InLine _ _ (allWarnings length
        ((ofText settings _ _ step.rest).prepend offset step.token step.finding))
      cases hFinding : step.finding with
      | none => exact hLater.mono (Nat.le_succ offset) (Nat.le_refl _)
      | some finding =>
          cases finding with
          | defect defect length =>
              refine hLater.cons rfl hStop fun hMore => ⟨?_, ?_⟩
              · rintro rfl
                obtain ⟨_, _, -, -, hIn⟩ := hReads.isIn_of_defect hFinding
                exact hIn
              · rintro rfl
                apply hMore
                rw [hNothing (hReads.rest_eq_nil (.inl ⟨length, hFinding⟩))]
                rfl
          | openComment =>
              rw [hNothing (hReads.rest_eq_nil (.inr hFinding))]
              exact (InLine.nil ..).cons rfl hStop fun hMore => absurd rfl hMore

theorem inLine_ofLine (settings : Settings) (length : Nat) (openComment : Option Nat)
    (line : SourceLine) :
    ((ofLine settings openComment line).warnings = [] ∧
      (ofLine settings openComment line).openComment = openComment) ∨
    InLine line.offset (line.offset + line.text.length)
      ((ofLine settings openComment line).allWarnings length) := by
  unfold ofLine
  split
  · exact .inl ⟨rfl, rfl⟩
  · cases openComment with
    | none => exact .inr (inLine_ofText ..)
    | some start =>
        cases hSplit : splitCommentEnd line.text with
        | none => exact .inl ⟨rfl, rfl⟩
        | some parts =>
            obtain ⟨comment, rest⟩ := parts
            have hRest := inLine_ofText settings length (line.offset + comment.length)
              (lastInk none comment) rest
            refine .inr (hRest.mono (Nat.le_add_right ..) ?_)
            rw [eq_of_splitCommentEnd hSplit, List.length_append, Nat.add_assoc]

end LineReading

open LineReading

theorem Text.SourceLine.offset_add_length_le (raw : List Char) (start : Nat) :
    (ofRaw raw start).offset + (ofRaw raw start).text.length ≤ start + raw.length := by
  obtain ⟨count, hRaw⟩ := trim_margins raw
  have hLength := congrArg List.length hRaw
  simp only [List.length_append, List.length_replicate] at hLength
  simp only [ofRaw]
  omega

theorem Text.lineOf_lt_lineOf {before after : List Char} {a b : Nat} (ha : a ≤ before.length)
    (hb : before.length < b) :
    lineOf (before ++ '\n' :: after) a < lineOf (before ++ '\n' :: after) b := by
  obtain ⟨more, rfl⟩ := Nat.exists_eq_add_of_lt hb
  have hLeft : (before.take a).count '\n' ≤ before.count '\n' :=
    (List.take_sublist a before).count_le '\n'
  have hRight : (before ++ '\n' :: after).take (before.length + more + 1) =
      before ++ '\n' :: after.take more := by
    rw [Nat.add_assoc, List.take_length_add_append]
    rfl
  rw [lineOf, lineOf, hRight, List.take_append_of_le_length ha, List.count_append,
    List.count_cons_self]
  omega

theorem InLine.pairwise_append {start : Nat} {before after : List Char}
    {here later : List Warning} (hHere : InLine start before.length here)
    (hDefect : ∀ warning ∈ here, warning.defect ≠ .unterminatedComment)
    (hLater : later.Pairwise (Warning.Precedes (before ++ '\n' :: after)))
    (hBehind : ∀ warning ∈ later, before.length < warning.span.start) :
    (here ++ later).Pairwise (Warning.Precedes (before ++ '\n' :: after)) := by
  apply List.pairwise_append.2
  refine ⟨hHere.ordered.imp fun h => h.precedes _, hLater, ?_⟩
  intro first hFirst second hSecond
  have hStop : first.span.start < before.length := (hHere.begins first hFirst).2
  have hStart := hBehind second hSecond
  refine ⟨by omega, hDefect first hFirst, fun _ => ?_⟩
  exact lineOf_lt_lineOf (by omega) hStart

theorem LineReading.defect_ne_of_mem_ofLine {settings : Settings} {openComment : Option Nat}
    {line : SourceLine} {warning : Warning}
    (h : warning ∈ (ofLine settings openComment line).warnings) :
    warning.defect ≠ .unterminatedComment := by
  intro hDefect
  obtain ⟨_, _, _, -, -, -, hIn⟩ := isOn_ofLine h
  rw [hDefect] at hIn
  exact hIn

theorem pairwise_openReport (related : Warning → Warning → Prop) (length : Nat)
    (openComment : Option Nat) : (openReport length openComment).Pairwise related := by
  cases openComment with
  | none => exact .nil
  | some start => exact List.pairwise_singleton related _

/-- What lines tell begins on them, unless it is nothing but the comment that was open before
them. -/
theorem begins_told (settings : Settings) (length start : Nat) (openComment : Option Nat)
    (raws : List (List Char)) :
    told length openComment (ofLines settings openComment (SourceLine.layOut start raws)) =
        openReport length openComment ∨
      raws ≠ [] ∧ ∀ warning ∈ told length openComment
        (ofLines settings openComment (SourceLine.layOut start raws)),
          start ≤ warning.span.start := by
  induction raws generalizing start openComment with
  | nil => exact .inl rfl
  | cons raw raws ih =>
      have hLine := inLine_ofLine settings length openComment (.ofRaw raw start)
      rw [SourceLine.layOut, ofLines, told_cons]
      have hRest := ih (start + raw.length + 1)
        (ofLine settings openComment (.ofRaw raw start)).openComment
      rcases hLine with ⟨hNone, hSame⟩ | hLine
      · rw [hNone, List.nil_append]
        rcases hRest with hOpen | ⟨-, hLater⟩
        · exact .inl (hOpen.trans (congrArg _ hSame))
        · refine .inr ⟨List.cons_ne_nil _ _, fun warning hWarning => ?_⟩
          have := hLater warning hWarning
          omega
      · have hHere := (hLine.mono (Nat.le_add_right start _) (Nat.le_refl _)).begins
        refine .inr ⟨List.cons_ne_nil _ _, fun warning hWarning => ?_⟩
        rcases hRest with hOpen | ⟨-, hLater⟩
        · rw [hOpen] at hWarning
          exact (hHere warning hWarning).1
        · rcases List.mem_append.1 hWarning with hWarning | hWarning
          · exact (hHere warning (List.mem_append_left _ hWarning)).1
          · have := hLater warning hWarning
            omega

theorem precedes_told (settings : Settings) (length : Nat) {text : List Char}
    {raws : List (List Char)} (done : List Char) (openComment : Option Nat)
    (hText : raws ≠ [] → text = done ++ ['\n'].intercalate raws) :
    (told length openComment
      (ofLines settings openComment (SourceLine.layOut done.length raws))).Pairwise
        (Warning.Precedes text) := by
  induction raws generalizing done openComment with
  | nil => exact pairwise_openReport ..
  | cons raw raws ih =>
      have hText := hText (List.cons_ne_nil _ _)
      have hLine := inLine_ofLine settings length openComment (.ofRaw raw done.length)
      rw [SourceLine.layOut, ofLines, told_cons]
      have hRest := begins_told settings length (done.length + raw.length + 1)
        (ofLine settings openComment (.ofRaw raw done.length)).openComment raws
      have hLater := ih (done ++ (raw ++ ['\n']))
        (ofLine settings openComment (.ofRaw raw done.length)).openComment (by
          intro hNe
          rw [hText, List.intercalate_cons_of_ne_nil hNe]
          simp)
      rw [← length_append_line] at hLater
      rcases hLine with ⟨hNone, -⟩ | hLine
      · -- the line is blank or within a comment
        rw [hNone]
        exact hLater
      rcases hRest with hOpen | ⟨hNe, hBehind⟩
      · -- the later lines tell nothing but the comment that this one opens
        rw [hOpen]
        exact hLine.ordered.imp fun h => h.precedes text
      · have hHere := hLine.left.mono (Nat.le_add_right ..)
          (SourceLine.offset_add_length_le raw done.length)
        rw [← List.length_append] at hHere
        rw [hText, List.intercalate_cons_of_ne_nil hNe, List.append_assoc,
          ← List.append_assoc done] at hLater ⊢
        apply hHere.pairwise_append (fun _ => defect_ne_of_mem_ofLine) hLater
        intro warning hWarning
        rw [List.length_append]
        exact hBehind warning hWarning

theorem countP_le_one {α : Type} {p : α → Bool} {as : List α}
    (h : as.Pairwise fun a b => p a = true → p b = false) : as.countP p ≤ 1 := by
  induction h with
  | nil => exact Nat.zero_le 1
  | @cons a as hFirst _ ih =>
      cases hHolds : p a with
      | false => rwa [List.countP_cons_of_neg (by simp [hHolds])]
      | true =>
          have hNone : as.countP p = 0 := by
            rw [List.countP_eq_zero]
            intro b hb
            rw [hFirst b hb hHolds]
            exact Bool.false_ne_true
          rw [List.countP_cons_of_pos hHolds, hNone]

theorem getLast?_of_pairwise {α : Type} {related : α → α → Prop} {as : List α}
    (h : as.Pairwise related) {a : α} (ha : a ∈ as) (hLast : ∀ b, ¬ related a b) :
    as.getLast? = some a := by
  obtain ⟨before, after, rfl⟩ := List.append_of_mem ha
  cases after with
  | nil => exact List.getLast?_concat
  | cons b after =>
      obtain ⟨-, hAfter, -⟩ := List.pairwise_append.1 h
      exact absurd (List.rel_of_pairwise_cons hAfter List.mem_cons_self) (hLast b)

/-- The warnings of a source come from left to right. A comment that never ends is reported last,
and a string that never ends is the last that is reported of its line. So no two warnings are the
same. -/
theorem Listing.warnings_ordered (settings : Settings) (source : String) :
    let warnings := (ofSource settings source).warnings
    let line := fun warning : Warning => lineOf (normalize source.toList) warning.span.start
    warnings.Pairwise (fun first second => first.span.start < second.span.start) ∧
    warnings.countP (·.defect = .unterminatedComment) ≤ 1 ∧
    (∀ warning ∈ warnings, warning.defect = .unterminatedComment →
      warnings.getLast? = some warning) ∧
    (∀ number, warnings.countP (fun warning =>
      warning.defect = .unterminatedString ∧ line warning = number) ≤ 1) ∧
    warnings.Pairwise (fun first second => first.defect = .unterminatedString →
      line second ≠ line first) ∧
    warnings.Nodup := by
  intro warnings line
  have hText : ['\n'].intercalate (splitLines (normalize source.toList)) =
      normalize source.toList := List.intercalate_splitOn _
  have hOrder : warnings.Pairwise (Warning.Precedes (normalize source.toList)) := by
    have hTold := precedes_told settings (normalize source.toList).length [] none
      fun _ => hText.symm
    rwa [← warningsOf_eq_told] at hTold
  refine ⟨hOrder.imp fun h => h.1, ?_, ?_, ?_, hOrder.imp fun h hDefect => ?_, ?_⟩
  · apply countP_le_one
    exact hOrder.imp fun h hDefect => absurd (of_decide_eq_true hDefect) h.2.1
  · intro warning hWarning hDefect
    exact getLast?_of_pairwise hOrder hWarning fun _ h => h.2.1 hDefect
  · intro number
    apply countP_le_one
    refine hOrder.imp fun {first second} h hFirst => decide_eq_false fun hSecond => ?_
    obtain ⟨hDefect, hLine⟩ := of_decide_eq_true hFirst
    have hLater : line first < line second := h.2.2 hDefect
    exact Nat.ne_of_lt hLater (hLine.trans hSecond.2.symm)
  · exact Nat.ne_of_gt (h.2.2 hDefect)
  · refine hOrder.imp fun h hSame => ?_
    rw [hSame] at h
    exact Nat.lt_irrefl _ h.1

end CodeListing
