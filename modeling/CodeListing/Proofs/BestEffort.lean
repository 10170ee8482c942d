import CodeListing.Proofs.Lexemes
import CodeListing.Proofs.Line

/-! # Warnings and the tokens they are about

Some pieces of a line cannot be what they look like: a string that never ends,
and a slash where a pattern may stand that is followed by another slash and
divides all the same. Each of them deserves one warning. `Accounts` goes through
the pieces of a line from left to right and says that a list of warnings is that
of the pieces which deserve one, and the warnings of every line are this list.
-/

namespace CodeListing

open Text

/-- The pieces that cannot be what they look like, each with the warning it deserves, when
`left` stands before the piece on its line and `right` after it. The line begins at `offset`. -/
inductive Deserves (offset : Nat) (left right : List Char) :
    TokenClass → List Char → Warning → Prop where
  /-- A string in which reading on from its quote never meets the quote again. -/
  | string {q body} (quote : isQuote q = true) (open_ : meetsUnescaped q body = false) :
      Deserves offset left right .string (q :: body)
        ⟨.unterminatedString, .ofLength (offset + left.length) (body.length + 1)⟩
  /-- An operator that is a slash, stands where a pattern may, and is followed by a slash. -/
  | slash {body after} (allowed : allowsRegex (lastInk none left) = true) (isBody : IsBody body)
      (hRight : right = body ++ '/' :: after) :
      Deserves offset left right .operator ['/']
        ⟨.rejectedRegex (String.ofList body),
          .ofLength (offset + left.length) (body.length + 2)⟩

/-- The warnings are those that the pieces after `left` deserve, from left to right. -/
inductive Accounts (offset : Nat) :
    List Char → List (TokenClass × List Char) → List Warning → Prop where
  | nil {left} : Accounts offset left [] []
  | warned {left tokenClass text later warning warnings}
      (deserves : Deserves offset left (later.flatMap (·.2)) tokenClass text warning)
      (others : Accounts offset (left ++ text) later warnings) :
      Accounts offset left ((tokenClass, text) :: later) (warning :: warnings)
  | silent {left tokenClass text later warnings}
      (sound : ∀ warning, ¬ Deserves offset left (later.flatMap (·.2)) tokenClass text warning)
      (others : Accounts offset (left ++ text) later warnings) :
      Accounts offset left ((tokenClass, text) :: later) warnings

theorem Deserves.unique {offset : Nat} {left right text : List Char} {tokenClass : TokenClass}
    {first second : Warning} (h : Deserves offset left right tokenClass text first)
    (h' : Deserves offset left right tokenClass text second) : first = second := by
  cases h with
  | string =>
      cases h' with
      | string => rfl
  | slash _ isBody hRight =>
      cases h' with
      | @slash body' after' _ isBody' hRight' =>
          -- both patterns end at the first slash that is met
          have hSplit := splitUnescaped_append isBody'.1 isBody'.2 after'
          rw [← hRight', hRight, splitUnescaped_append isBody.1 isBody.2] at hSplit
          cases hSplit
          rfl

theorem Deserves.meetsUnescaped_eq_false {offset : Nat} {left right body : List Char} {q : Char}
    {warning : Warning} (h : Deserves offset left right .string (q :: body) warning) :
    meetsUnescaped q body = false := by
  cases h with
  | string _ open_ => exact open_

theorem Deserves.start_eq {offset : Nat} {left right text : List Char} {tokenClass : TokenClass}
    {warning : Warning} (h : Deserves offset left right tokenClass text warning) :
    warning.span.start = offset + left.length := by
  cases h <;> rfl

theorem Deserves.text_ne_nil {offset : Nat} {left right text : List Char} {tokenClass : TokenClass}
    {warning : Warning} (h : Deserves offset left right tokenClass text warning) : text ≠ [] := by
  cases h <;> exact List.cons_ne_nil _ _

namespace Accounts

variable {offset : Nat} {left : List Char} {pieces : List (TokenClass × List Char)}

/-- The pieces of a line decide its warnings. -/
theorem unique {first second : List Warning} (h : Accounts offset left pieces first)
    (h' : Accounts offset left pieces second) : first = second := by
  induction h generalizing second with
  | nil =>
      cases h'
      rfl
  | warned deserves _ ih =>
      cases h' with
      | warned deserves' others' => rw [deserves.unique deserves', ih others']
      | silent sound' => exact absurd deserves (sound' _)
  | silent sound _ ih =>
      cases h' with
      | warned deserves' => exact absurd deserves' (sound _)
      | silent _ others' => exact ih others'

theorem le_start {warnings : List Warning} (h : Accounts offset left pieces warnings) :
    ∀ warning ∈ warnings, offset + left.length ≤ warning.span.start := by
  induction h with
  | nil => nofun
  | warned deserves _ ih =>
      refine List.forall_mem_cons.2 ⟨Nat.le_of_eq deserves.start_eq.symm, fun warning hMem => ?_⟩
      have hStart := ih warning hMem
      rw [List.length_append] at hStart
      omega
  | silent _ _ ih =>
      intro warning hMem
      have hStart := ih warning hMem
      rw [List.length_append] at hStart
      omega

theorem start_ne {text : List Char} {warnings : List Warning}
    (h : Accounts offset (left ++ text) pieces warnings) (hText : text ≠ []) {warning : Warning}
    (hMem : warning ∈ warnings) : warning.span.start ≠ offset + left.length := by
  have hStart := h.le_start warning hMem
  have hPos := List.length_pos_iff.2 hText
  rw [List.length_append] at hStart
  omega

/-- The warnings that begin where a piece begins are the one that the piece deserves. -/
theorem mem_and_start_eq_iff {warnings : List Warning} (h : Accounts offset left pieces warnings)
    {earlier later : List (TokenClass × List Char)} {tokenClass : TokenClass} {text : List Char}
    (hPieces : pieces = earlier ++ (tokenClass, text) :: later) (hText : text ≠ [])
    (warning : Warning) :
    warning ∈ warnings ∧
        warning.span.start = offset + (left ++ earlier.flatMap (·.2)).length ↔
      Deserves offset (left ++ earlier.flatMap (·.2)) (later.flatMap (·.2)) tokenClass text
        warning := by
  induction h generalizing earlier with
  | nil => simp at hPieces
  | @warned left firstClass first others here warnings deserves hOthers ih =>
      cases earlier with
      | nil =>
          cases hPieces
          rw [List.flatMap_nil, List.append_nil]
          constructor
          · rintro ⟨hMem, hStart⟩
            rcases List.mem_cons.1 hMem with rfl | hMem
            · exact deserves
            · exact absurd hStart (hOthers.start_ne hText hMem)
          · intro hDeserves
            rw [hDeserves.unique deserves]
            exact ⟨List.mem_cons_self, deserves.start_eq⟩
      | cons piece earlier =>
          obtain ⟨rfl, rfl⟩ := List.cons.inj hPieces
          rw [List.flatMap_cons, ← List.append_assoc, ← ih rfl, List.mem_cons]
          refine and_congr_left fun hStart => or_iff_right ?_
          rintro rfl
          have hPos := List.length_pos_iff.2 deserves.text_ne_nil
          simp only [deserves.start_eq, List.length_append] at hStart
          omega
  | @silent left firstClass first others warnings sound hOthers ih =>
      cases earlier with
      | nil =>
          cases hPieces
          rw [List.flatMap_nil, List.append_nil]
          exact iff_of_false (fun h => hOthers.start_ne hText h.1 h.2) (sound warning)
      | cons piece earlier =>
          obtain ⟨rfl, rfl⟩ := List.cons.inj hPieces
          rw [List.flatMap_cons, ← List.append_assoc]
          exact ih rfl

theorem append_of_silent {others : List (TokenClass × List Char)} {warnings : List Warning}
    (hSilent : ∀ piece ∈ pieces, piece.1 ≠ .string ∧ piece.1 ≠ .operator)
    (h : Accounts offset (left ++ pieces.flatMap (·.2)) others warnings) :
    Accounts offset left (pieces ++ others) warnings := by
  induction pieces generalizing left with
  | nil => simpa using h
  | cons piece pieces ih =>
      obtain ⟨tokenClass, text⟩ := piece
      obtain ⟨hPiece, hPieces⟩ := List.forall_mem_cons.1 hSilent
      refine .silent ?_ (ih hPieces ?_)
      · rintro warning ⟨⟩
        · exact hPiece.1 rfl
        · exact hPiece.2 rfl
      · rwa [List.flatMap_cons, ← List.append_assoc] at h

end Accounts

theorem not_isName_string : ¬ TokenClass.IsName .string := by
  rintro (h | ⟨_, h⟩) <;> cases h

theorem not_isName_operator : ¬ TokenClass.IsName .operator := by
  rintro (h | ⟨_, h⟩) <;> cases h

theorem class_of_mem_leaves_readName (depth : Nat) (owner : Option Word) (c : Char)
    (rest : List Char) :
    ∀ piece ∈ (readName depth owner c rest).1.leaves, piece.1.IsName ∨ piece.1 = .period := by
  have hName (owner : Option Word) (c : Char) (rest : List Char) : ∀ piece ∈
      (Token.leaf (classOfName owner (String.ofList (c :: rest.takeWhile isNamePart))
        (rest.dropWhile isNamePart)) (c :: rest.takeWhile isNamePart)).leaves,
      piece.1.IsName ∨ piece.1 = .period :=
    List.forall_mem_singleton.2 (.inl (isName_classOfName ..))
  induction depth generalizing owner c rest with
  | zero => exact hName owner c rest
  | succ depth ih =>
      unfold readName
      simp only
      split
      · rename_i d more hDepth _
        cases hDepth
        split
        · rw [Token.leaves]
          refine List.forall_mem_cons.2 ⟨.inl (isName_classOfName ..), ?_⟩
          exact List.forall_mem_cons.2 ⟨.inr rfl, ih _ _ _⟩
        · exact hName owner c rest
      · exact hName owner c rest

theorem ne_string_of_lead {c : Char} {tokenClass : TokenClass}
    (h : Lead.of c = .single tokenClass) : tokenClass ≠ .string := by
  rintro rfl
  unfold Lead.of at h
  split at h
  · rename_i hSeparator
    cases h
    obtain rfl | rfl | rfl | rfl := eq_of_ofSeparator? hSeparator <;> cases hSeparator
  · grind

def Finding.warningsAt (offset : Nat) : Option Finding → List Warning
  | none => []
  | some (.defect what length) => [⟨what, .ofLength offset length⟩]
  | some .openComment => []

theorem LineReading.warnings_prepend (offset : Nat) (token : Token) (finding : Option Finding)
    (later : LineReading) :
    (later.prepend offset token finding).warnings =
      Finding.warningsAt offset finding ++ later.warnings := by
  unfold prepend
  split <;> rfl

theorem Step.Reads.accounts {settings : Settings} {offset : Nat} {left text : List Char}
    {step : Step} (h : Reads settings (lastInk none left) text step)
    {later : List (TokenClass × List Char)} (hLater : later.flatMap (·.2) = step.rest)
    {warnings : List Warning}
    (hWarnings : Accounts offset (left ++ step.token.text) later warnings) :
    Accounts offset left (step.token.leaves ++ later)
      (Finding.warningsAt (offset + left.length) step.finding ++ warnings) := by
  cases h with
  | string quote open_ closed =>
      refine .silent (fun warning hDeserves => ?_) hWarnings
      exact Bool.false_ne_true (hDeserves.meetsUnescaped_eq_false.symm.trans closed)
  | unterminated quote open_ => exact .warned (.string quote open_) hWarnings
  | whitespace | number | lineComment | blockComment | openComment | regex =>
      exact .silent nofun hWarnings
  | rejected _ allowed isBody => exact .warned (.slash allowed isBody hLater) hWarnings
  | @division rest _ alone =>
      refine .silent ?_ hWarnings
      rintro warning ⟨⟩
      rename_i body after allowed isBody hRight
      have hMeets := meetsUnescaped_slash_iff.2 ⟨body, after, hLater.symm.trans hRight, isBody⟩
      rw [alone allowed] at hMeets
      cases hMeets
  | name =>
      refine Accounts.append_of_silent (fun piece hPiece => ?_) (by rwa [Token.flatMap_leaves])
      rcases class_of_mem_leaves_readName _ _ _ _ piece hPiece with hName | hPeriod
      · constructor
        · exact fun hClass => not_isName_string (hClass ▸ hName)
        · exact fun hClass => not_isName_operator (hClass ▸ hName)
      · rw [hPeriod]
        exact ⟨nofun, nofun⟩
  | single lead =>
      refine .silent ?_ hWarnings
      rintro warning ⟨⟩
      · exact ne_string_of_lead lead rfl
      · exact absurd lead (by decide)

namespace LineReading

variable {settings : Settings}

theorem accounts_ofText (offset : Nat) (left text : List Char) :
    Accounts offset left
      ((ofText settings (offset + left.length) (lastInk none left) text).tokens.flatMap
        Token.leaves)
      (ofText settings (offset + left.length) (lastInk none left) text).warnings := by
  generalize hPlace : offset + left.length = place
  generalize hBefore : lastInk none left = before
  induction place, before, text using ofText.induct settings generalizing left with
  | case1 =>
      rw [ofText]
      exact .nil
  | case2 place before c rest =>
      rename_i step ih
      subst hPlace hBefore
      rw [ofText_cons, tokens_prepend, warnings_prepend, List.flatMap_cons]
      refine (Step.reads_read settings (lastInk none left) c rest).accounts (text_leaves ..) ?_
      apply ih
      · rw [List.length_append, Nat.add_assoc]
      · exact lastInk_append ..

theorem accounts_ofLine (openComment : Option Nat) (line : SourceLine) :
    Accounts line.offset [] ((ofLine settings openComment line).tokens.flatMap Token.leaves)
      (ofLine settings openComment line).warnings := by
  unfold ofLine
  split
  · exact .nil
  · split
    · exact accounts_ofText line.offset [] line.text
    · split
      · exact .silent nofun .nil
      · rename_i comment rest _
        rw [tokens_prepend, warnings_prepend, List.flatMap_cons]
        exact .silent nofun (accounts_ofText line.offset comment rest)

theorem tokens_ofLine_of_open (start : Nat) {line : SourceLine} (hText : line.text ≠ []) :
    ∃ comment later, (ofLine settings (some start) line).tokens = .leaf .comment comment :: later ∧
      (later = [] ∧ ¬ commentEnd <:+: comment ∨
        ∃ body, comment = body ++ commentEnd ∧ ¬ commentEnd <:+: body ++ ['*']) := by
  have hBlank : line.isBlank = false := by
    rw [SourceLine.isBlank, ← Bool.not_eq_true, List.isEmpty_iff]
    exact hText
  rw [ofLine, hBlank]
  simp only [Bool.false_eq_true, if_false]
  split
  · rename_i hSplit
    exact ⟨_, _, rfl, .inl ⟨rfl, splitCommentEnd_eq_none_iff.1 hSplit⟩⟩
  · rename_i comment rest hSplit
    rw [tokens_prepend]
    exact ⟨_, _, rfl, .inr (commentEnd_of_split hSplit)⟩

/-- Warnings and the pieces that deserve them correspond one to one. Reading one more line
leaves all earlier warnings as they are and adds exactly what the pieces of the line deserve, which
one after another are its text. Where a comment goes on, the first piece is the part of it on the
line, which deserves nothing. -/
theorem accounts_run (settings : Settings) (lines : List SourceLine) (line : SourceLine) :
    let earlier := ofLines settings none lines
    let reading := ofLine settings (openAfter none earlier) line
    (ofLines settings none (lines ++ [line])).flatMap (·.warnings) =
      earlier.flatMap (·.warnings) ++ reading.warnings ∧
    (reading.tokens.flatMap Token.leaves).flatMap (·.2) = line.text ∧
    (∀ warnings, Accounts line.offset [] (reading.tokens.flatMap Token.leaves) warnings ↔
      warnings = reading.warnings) ∧
    ((openAfter none earlier).isSome → line.text ≠ [] →
      ∃ comment later, reading.tokens = .leaf .comment comment :: later ∧
        (later = [] ∧ ¬ commentEnd <:+: comment ∨
          ∃ body, comment = body ++ commentEnd ∧ ¬ commentEnd <:+: body ++ ['*'])) := by
  intro earlier reading
  have hAccounts := @accounts_ofLine settings (openAfter none earlier) line
  refine ⟨?_, text_leaves_ofLine .., fun warnings => ⟨fun h => h.unique hAccounts,
    fun h => h ▸ hAccounts⟩, ?_⟩
  · rw [ofLines_append, List.flatMap_append]
    exact congrArg _ (List.append_nil _)
  · intro hOpen hText
    obtain ⟨start, hStart⟩ := Option.isSome_iff_exists.1 hOpen
    have hTokens := @tokens_ofLine_of_open settings start line hText
    rwa [← hStart] at hTokens

/-- Behind a comment that began on the line before, a rejected pattern and a string that never
ends are reported. -/
theorem accounts_run_comment :
    (openAfter none (ofLines {} none [⟨"a /* b".toList, 0⟩])).isSome ∧
    Accounts 7 [] [(.comment, "c */".toList), (.whitespace, [' ']), (.operator, ['/']),
        (.bracket, ['(']), (.operator, ['/']), (.whitespace, [' ']), (.string, ['"', 'd'])]
      [⟨.rejectedRegex "(", ⟨12, 15⟩⟩, ⟨.unterminatedString, ⟨16, 18⟩⟩] ∧
    ∃ comment later, (ofLine {} (some 2) ⟨"c */ /(/ \"d".toList, 7⟩).tokens =
      .leaf .comment comment :: later ∧
      (later = [] ∧ ¬ commentEnd <:+: comment ∨
        ∃ body, comment = body ++ commentEnd ∧ ¬ commentEnd <:+: body ++ ['*']) := by
  have hOpen : openAfter none (ofLines {} none [⟨"a /* b".toList, 0⟩]) = some 2 := by
    decide +kernel
  obtain ⟨-, -, hAccounts, hComment⟩ :=
    accounts_run {} [⟨"a /* b".toList, 0⟩] ⟨"c */ /(/ \"d".toList, 7⟩
  rw [hOpen] at hAccounts hComment ⊢
  refine ⟨rfl, ?_, hComment rfl (by decide)⟩
  have hPieces : (ofLine {} (some 2) ⟨"c */ /(/ \"d".toList, 7⟩).tokens.flatMap Token.leaves =
      [(.comment, "c */".toList), (.whitespace, [' ']), (.operator, ['/']), (.bracket, ['(']),
        (.operator, ['/']), (.whitespace, [' ']), (.string, ['"', 'd'])] := by
    decide +kernel
  rw [← hPieces]
  exact (hAccounts _).2 (by decide +kernel)

end LineReading

end CodeListing
