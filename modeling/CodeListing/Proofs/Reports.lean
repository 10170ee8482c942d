import CodeListing.Listing
import CodeListing.Proofs.Lexemes

/-! # What settings cannot change

The limits on flags and on members move the ends of tokens: what a limit leaves
over is read again, as names, numbers and periods. None of these can report
anything, and they end at the next character that has no part in a word, so two
readings of one text that got out of step there are in step again before the
next quote or slash. What a reading reports depends on the text alone.
-/

namespace CodeListing

/-- The characters of names and numbers and of the periods between them. -/
def isWordPart (c : Char) : Bool :=
  isNamePart c || c = '.'

theorem isWordPart_of_isNamePart {c : Char} (h : isNamePart c = true) : isWordPart c = true := by
  simp [isWordPart, h]

theorem isAlpha_iff {c : Char} :
    c.isAlpha = true ↔ 65 ≤ c.toNat ∧ c.toNat ≤ 90 ∨ 97 ≤ c.toNat ∧ c.toNat ≤ 122 := by
  change (decide (c.val ≥ 'A'.val ∧ c.val ≤ 'Z'.val) ||
    decide (c.val ≥ 'a'.val) && decide (c.val ≤ 'z'.val)) = true ↔ _
  simp only [Bool.or_eq_true, Bool.and_eq_true, decide_eq_true_eq, UInt32.le_iff_toNat_le,
    ge_iff_le]
  exact Iff.rfl

theorem isNamePart_of_isAlpha {c : Char} (h : c.isAlpha = true) : isNamePart c = true := by
  have hAscii : Unicode.isAscii c = true := by
    have hRange := isAlpha_iff.1 h
    rw [Unicode.isAscii, decide_eq_true_eq]
    omega
  apply isNamePart_of_isNameStart
  simp [isNameStart, Unicode.isAlphabetic_of_isAscii hAscii, h]

theorem isNamePart_of_isHexDigit {c : Char} (h : Text.isHexDigit c = true) :
    isNamePart c = true := by
  obtain ⟨value, hValue⟩ := Option.isSome_iff_exists.1 h
  rcases Text.hexValue?_eq_some hValue with hDigit | hLower | hUpper
  · exact isNamePart_of_isDigit (Text.isDigit_iff.2 ⟨hDigit.1, hDigit.2.1⟩)
  all_goals
    apply isNamePart_of_isAlpha
    rw [isAlpha_iff]
    omega

theorem isWordPart_of_isNumberPart {c d : Char} {rest : List Char}
    (h : isNumberPart c rest d = true) : isWordPart d = true := by
  unfold isNumberPart at h
  split at h
  · simp only [Bool.or_eq_true, decide_eq_true_eq] at h
    rcases h with ((h | rfl) | rfl) | rfl
    · exact isWordPart_of_isNamePart (isNamePart_of_isHexDigit h)
    all_goals decide
  · simp only [Bool.or_eq_true, decide_eq_true_eq] at h
    rcases h with h | rfl
    · exact isWordPart_of_isNamePart (isNamePart_of_isDigit h)
    · decide

theorem prefix_of_endsRun {p : Char → Bool} {part rest run after : List Char}
    (h : part ++ rest = run ++ after) (hPart : ∀ c ∈ part, p c = true) (hEnds : EndsRun p after) :
    ∃ more, run = part ++ more ∧ rest = more ++ after := by
  rcases List.append_eq_append_iff.1 h with ⟨more, hRun, hRest⟩ | ⟨excess, rfl, rfl⟩
  · exact ⟨more, hRun, hRest⟩
  · cases excess with
    | nil => exact ⟨[], by simp⟩
    | cons c excess =>
        have hNot := hEnds c rfl
        rw [hPart c (by simp)] at hNot
        cases hNot

theorem isWordPart_of_isRegexFlag {c : Char} (h : isRegexFlag c = true) : isWordPart c = true := by
  simp only [isRegexFlag, Bool.or_eq_true, decide_eq_true_eq] at h
  rcases h with ((rfl | rfl) | rfl) | rfl <;> decide

theorem isWordPart_of_mem_readName (depth : Nat) (owner : Option Word) {c : Char}
    (hStart : isNameStart c = true) (rest : List Char) :
    ∀ d ∈ (readName depth owner c rest).1.text, isWordPart d = true := by
  have hName (c : Char) (hStart : isNameStart c = true) (rest : List Char) :
      ∀ d ∈ c :: rest.takeWhile isNamePart, isWordPart d = true := by
    refine List.forall_mem_cons.2 ⟨?_, fun d hd => ?_⟩
    · exact isWordPart_of_isNamePart (isNamePart_of_isNameStart hStart)
    · exact isWordPart_of_isNamePart (List.all_eq_true.1 List.all_takeWhile d hd)
  induction depth generalizing owner c rest with
  | zero => exact hName c hStart rest
  | succ depth ih =>
      unfold readName
      simp only
      split
      · rename_i d more hDepth hAfter
        cases hDepth
        split
        · rename_i hMember
          rw [Token.text]
          refine List.forall_mem_append.2 ⟨hName c hStart rest, ?_⟩
          exact List.forall_mem_cons.2 ⟨by decide, ih _ hMember _⟩
        · exact hName c hStart rest
      · exact hName c hStart rest

namespace Step

variable {settings : Settings} {before : Option Char} {c : Char} {rest : List Char}

/-- A token that begins like a word finds nothing and has only word parts. -/
theorem Reads.word {text : List Char} {step : Step} (h : Reads settings before text step)
    (hWord : ∀ c, text.head? = some c → isWordPart c = true) :
    step.finding = none ∧ ∀ d ∈ step.token.text, isWordPart d = true := by
  cases h with
  | @string q _ _ quote | @unterminated q _ quote =>
      have hQuote := hWord q rfl
      simp only [isQuote, Bool.or_eq_true, decide_eq_true_eq] at quote
      rcases quote with rfl | rfl <;> exact absurd hQuote (by decide)
  | whitespace => exact absurd (hWord ' ' rfl) (by decide)
  | @number c _ _ digit run =>
      refine ⟨rfl, List.forall_mem_cons.2 ⟨hWord c rfl, fun d hd => ?_⟩⟩
      exact isWordPart_of_isNumberPart (run d hd)
  | lineComment | blockComment | openComment | regex | rejected | division =>
      exact absurd (hWord '/' rfl) (by decide)
  | name start => exact ⟨rfl, isWordPart_of_mem_readName _ none start _⟩
  | @single c => exact ⟨rfl, List.forall_mem_singleton.2 (hWord c rfl)⟩

/-- The step goes on for some word parts where `least` stops, and finds the same. -/
def Extends (least step : Step) : Prop :=
  step.finding = least.finding ∧ ∃ word, (∀ d ∈ word, isWordPart d = true) ∧
    step.token.text = least.token.text ++ word ∧ least.rest = word ++ step.rest

theorem Extends.refl (step : Step) : step.Extends step :=
  ⟨rfl, [], nofun, (List.append_nil _).symm, rfl⟩

theorem extends_regex (maxFlags : Nat) (rest : List Char) :
    (regex 0 rest).Extends (regex maxFlags rest) := by
  unfold regex
  split
  · exact .refl _
  · rename_i body after _
    split
    · obtain ⟨hRun, -, -⟩ := cappedRun isRegexFlag maxFlags after rfl
      refine ⟨rfl, _, fun d hd => isWordPart_of_isRegexFlag (hRun d hd), ?_, ?_⟩
      · simp [Token.text]
      · simp
    · exact .refl _

theorem extends_slash (maxFlags : Nat) (before : Option Char) (rest : List Char) :
    (slash 0 before rest).Extends (slash maxFlags before rest) := by
  unfold slash
  split
  · exact .refl _
  · exact .refl _
  · split
    · exact extends_regex maxFlags rest
    · exact .refl _

/-- Where no word begins, settings only decide how many flags a pattern takes along. -/
theorem extends_read (settings : Settings) (before : Option Char) (hWord : isWordPart c = false)
    (rest : List Char) :
    (read { maxRegexFlags := 0 } before c rest).Extends (read settings before c rest) := by
  unfold read
  split
  · exact .refl _
  · exact .refl _
  · exact .refl _
  · exact extends_slash _ _ _
  · rename_i hLead
    have hStart : isNameStart c = true := by grind [Lead.of]
    rw [isWordPart_of_isNamePart (isNamePart_of_isNameStart hStart)] at hWord
    cases hWord
  · exact .refl _

end Step

namespace LineReading

variable {settings : Settings}

/-- What a reading tells besides its tokens. -/
def report (reading : LineReading) : List Warning × Option Nat :=
  (reading.warnings, reading.openComment)

theorem report_prepend {first second : LineReading} (h : first.report = second.report)
    (offset : Nat) (token other : Token) (finding : Option Finding) :
    (first.prepend offset token finding).report = (second.prepend offset other finding).report := by
  obtain ⟨hWarnings, hOpen⟩ := Prod.mk.inj h
  unfold prepend
  split <;> simp [report, hWarnings, hOpen]

theorem report_word {word after : List Char} (hWord : ∀ c ∈ word, isWordPart c = true)
    (hEnds : EndsRun isWordPart after) (offset : Nat) (before : Option Char) :
    (ofText settings offset before (word ++ after)).report =
      (ofText settings (offset + word.length) (lastInk before word) after).report := by
  generalize hText : word ++ after = text
  induction offset, before, text using ofText.induct settings generalizing word with
  | case1 offset before =>
      obtain ⟨rfl, rfl⟩ := List.append_eq_nil_iff.1 hText
      rfl
  | case2 offset before c rest =>
      rename_i step ih
      cases word with
      | nil =>
          rw [← hText]
          rfl
      | cons d more =>
          obtain ⟨rfl, -⟩ := List.cons.inj hText
          have hSource : step.token.text ++ step.rest = d :: rest :=
            Step.source_read settings before d rest
          obtain ⟨hFinding, hToken⟩ := (Step.reads_read settings before d rest).word
            (fun c hc => hWord c (Option.some.inj hc ▸ List.mem_cons_self))
          obtain ⟨left, hLeft, hRest⟩ :=
            prefix_of_endsRun (hSource.trans hText.symm) hToken hEnds
          have hLater := ih (fun c hc => hWord c (hLeft ▸ List.mem_append_right _ hc)) hRest.symm
          rw [ofText_cons]
          simp only [hFinding]
          exact hLater.trans (by rw [hLeft, List.length_append, lastInk_append, Nat.add_assoc])

theorem report_append {word : List Char} (hWord : ∀ c ∈ word, isWordPart c = true)
    (offset : Nat) (before : Option Char) (after : List Char) :
    (ofText settings offset before (word ++ after)).report =
      (ofText settings (offset + word.length) (lastInk before word) after).report := by
  -- both readings go on to the end of the word that `after` begins with
  have hSplit : after.takeWhile isWordPart ++ after.dropWhile isWordPart = after :=
    List.takeWhile_append_dropWhile
  have hMore := List.all_eq_true.1 (List.all_takeWhile (p := isWordPart) (l := after))
  have hEnds := endsRun_dropWhile isWordPart after
  generalize after.takeWhile isWordPart = more at hSplit hMore
  generalize after.dropWhile isWordPart = left at hSplit hEnds
  subst hSplit
  rw [report_word hMore hEnds, ← List.append_assoc,
    report_word (List.forall_mem_append.2 ⟨hWord, hMore⟩) hEnds, List.length_append,
    lastInk_append, Nat.add_assoc]

/-- A reading reports the same if its first token ends where a shorter one would. -/
theorem report_of_extends {least step : Step} (h : least.Extends step) (offset : Nat)
    (before : Option Char) :
    ((ofText settings (offset + step.token.text.length) (lastInk before step.token.text)
      step.rest).prepend offset step.token step.finding).report =
    ((ofText settings (offset + least.token.text.length) (lastInk before least.token.text)
      least.rest).prepend offset least.token least.finding).report := by
  obtain ⟨hFinding, word, hWord, hText, hRest⟩ := h
  rw [hFinding, hText, hRest]
  refine report_prepend ?_ ..
  rw [report_append hWord, List.length_append, lastInk_append, Nat.add_assoc]

theorem report_ofText (first second : Settings) (offset : Nat) (before : Option Char)
    (text : List Char) :
    (ofText first offset before text).report = (ofText second offset before text).report := by
  induction hLength : text.length using Nat.strongRecOn generalizing offset before text with
  | ind length ih =>
      subst hLength
      cases text with
      | nil => rw [ofText, ofText]
      | cons c rest =>
          cases hWord : isWordPart c with
          | true =>
              -- settings cut words in different places, so a word is left one character at a time
              have hAll : ∀ d ∈ [c], isWordPart d = true := List.forall_mem_singleton.2 hWord
              rw [← List.singleton_append, report_append hAll, report_append hAll]
              exact ih _ (Nat.lt_succ_self _) _ _ _ rfl
          | false =>
              rw [ofText_cons, ofText_cons,
                report_of_extends (Step.extends_read first before hWord rest),
                report_of_extends (Step.extends_read second before hWord rest)]
              refine report_prepend (ih _ ?_ _ _ _ rfl) ..
              exact Nat.lt_succ_of_le (Step.length_rest_read ..)

theorem report_ofLine (first second : Settings) (openComment : Option Nat)
    (line : Text.SourceLine) :
    (ofLine first openComment line).report = (ofLine second openComment line).report := by
  unfold ofLine
  split
  · rfl
  · split
    · exact report_ofText first second _ _ _
    · split
      · rfl
      · exact report_prepend (report_ofText first second _ _ _) ..

theorem report_ofLines (first second : Settings) (lines : List Text.SourceLine)
    (openComment : Option Nat) :
    (ofLines first openComment lines).map report =
      (ofLines second openComment lines).map report := by
  induction lines generalizing openComment with
  | nil => rfl
  | cons line lines ih =>
      have hLine := report_ofLine first second openComment line
      rw [ofLines, ofLines, List.map_cons, List.map_cons, hLine, ih, (Prod.mk.inj hLine).2]

end LineReading

theorem warningsOf_eq_of_report {first second : List LineReading}
    (h : first.map LineReading.report = second.map LineReading.report) (length : Nat) :
    warningsOf length first = warningsOf length second := by
  have hWarnings : first.flatMap (·.warnings) = second.flatMap (·.warnings) := by
    simpa [List.flatMap_map, LineReading.report] using congrArg (List.flatMap Prod.fst) h
  have hOpen : first.getLast?.bind (·.openComment) = second.getLast?.bind (·.openComment) := by
    simpa [Option.bind_map, Function.comp_def, LineReading.report] using
      congrArg (fun reports => reports.getLast?.bind Prod.snd) h
  rw [warningsOf, warningsOf, hWarnings, hOpen]

/-- Settings never change what is reported. A source has the same lines and warnings under any
two settings, and after every line of a run the same block comment is open, if one is. -/
theorem Listing.reports_settings (first second : Settings) :
    (∀ source, (ofSource first source).lineCount = (ofSource second source).lineCount ∧
      (ofSource first source).warnings = (ofSource second source).warnings) ∧
    ∀ lines : List Text.SourceLine,
      (LineReading.ofLines first none lines).map (·.openComment) =
        (LineReading.ofLines second none lines).map (·.openComment) := by
  constructor
  · intro source
    exact ⟨rfl, warningsOf_eq_of_report (LineReading.report_ofLines ..) _⟩
  · intro lines
    simpa [Function.comp_def, LineReading.report] using
      congrArg (List.map Prod.snd) (LineReading.report_ofLines first second lines none)

end CodeListing
