import CodeListing.Proofs.BestEffort

/-! # Slashes behind operands

Whether a slash may open a pattern is decided by one character, the last before it
that is no space. A string ends with its quote, and no quote and no closing square
bracket allows a pattern, so behind these a slash divides. Behind a number it
divides too, but for one kind of number: a hexadecimal one may end in `e` or `f`,
and these letters stand for the ends of keywords.
-/

namespace CodeListing

open Text

theorem lastInk_spaces (before : Option Char) {spaces : List Char} (h : ∀ c ∈ spaces, c = ' ') :
    lastInk before spaces = before := by
  have hNone : spaces.reverse.find? (· ≠ ' ') = none := by
    simpa [List.find?_eq_none] using h
  rw [lastInk, hNone]
  rfl

theorem lastInk_concat (before : Option Char) (text : List Char) {c : Char} (h : c ≠ ' ') :
    lastInk before (text ++ [c]) = some c := by
  simp [lastInk, h]

/-- The pieces that are finished operands whatever they hold. -/
inductive IsOperand : TokenClass → List Char → Prop where
  | number {text} : IsOperand .number text
  | string {text} : IsOperand .string text
  | bracket : IsOperand .bracket [']']

/-- A hexadecimal number that ends in one of the letters which stand for ends of keywords. -/
inductive EndsLikeKeyword : TokenClass → List Char → Prop where
  | number {x digits last} (hexadecimal : x = 'x' ∨ x = 'X') (letter : last = 'e' ∨ last = 'f') :
      EndsLikeKeyword .number ('0' :: x :: (digits ++ [last]))

theorem EndsLikeKeyword.last {tokenClass : TokenClass} {text : List Char} {c : Char}
    (h : EndsLikeKeyword tokenClass (text ++ [c])) :
    tokenClass = .number ∧ (c = 'e' ∨ c = 'f') := by
  generalize hOperand : text ++ [c] = operand at h
  cases h with
  | @number x digits last _ letter =>
      rw [← List.cons_append, ← List.cons_append] at hOperand
      obtain ⟨-, hLast⟩ := List.append_inj' hOperand rfl
      cases hLast
      exact ⟨rfl, letter⟩

/-- Of the characters that a pattern may follow, a number holds two, and only after `0x`. -/
theorem eq_of_allowsRegex_of_isNumberPart {c : Char} {more : List Char} {d : Char}
    (hAllowed : allowsRegex (some d) = true) (hPart : isNumberPart c more d = true) :
    (d = 'e' ∨ d = 'f') ∧ c = '0' ∧ (more.head? = some 'x' ∨ more.head? = some 'X') := by
  have hAll : "()[\x7b\x7d;*/%+-<>&^|=!:?nef".toList.all (fun d =>
      !(d.isDigit || d = '.') && (!(isHexDigit d || d = 'x' || d = 'X' || d = '.') ||
        d = 'e' || d = 'f')) = true := by decide
  have hIn := List.all_eq_true.1 hAll d (List.contains_iff_mem.1 hAllowed)
  unfold isNumberPart at hPart
  grind

theorem not_isName_and_not_separator {tokenClass : TokenClass}
    (h : tokenClass = .string ∨ tokenClass = .number ∨ tokenClass = .whitespace) :
    ¬ tokenClass.IsName ∧ ∀ c, TokenClass.ofSeparator? c ≠ some tokenClass := by
  constructor
  · rintro (rfl | ⟨_, rfl⟩) <;> simp at h
  · intro c hSeparator
    obtain rfl | rfl | rfl | rfl := eq_of_ofSeparator? hSeparator <;> cases hSeparator <;> simp at h

theorem Lexeme.eq_space {settings : Settings} {left text right : List Char}
    (h : Lexeme settings left .whitespace text right) : ∀ c ∈ text, c = ' ' := by
  have hOther := not_isName_and_not_separator (.inr (.inr rfl) : TokenClass.whitespace = _ ∨ _)
  cases h with
  | whitespace _ run => exact List.forall_mem_cons.2 ⟨rfl, run⟩
  | name isName => exact absurd isName hOther.1
  | separator separator => exact absurd separator (hOther.2 _)

theorem Lexeme.allowsRegex_iff {settings : Settings} {left operand right : List Char}
    {operandClass : TokenClass} (h : Lexeme settings left operandClass operand right)
    (hOperand : IsOperand operandClass operand) (hRight : right ≠ []) :
    ∃ text c, operand = text ++ [c] ∧ c ≠ ' ' ∧
      (allowsRegex (some c) = true ↔ EndsLikeKeyword operandClass operand) := by
  cases hOperand with
  | string =>
      have hOther := not_isName_and_not_separator (.inl rfl : TokenClass.string = _ ∨ _)
      cases h with
      | @string q body _ quote =>
          refine ⟨q :: body, q, rfl, ?_, ?_⟩
          · rintro rfl
            cases quote
          · simp only [isQuote, Bool.or_eq_true, decide_eq_true_eq] at quote
            refine iff_of_false ?_ fun hEnds => by cases hEnds.last.1
            rcases quote with rfl | rfl <;> decide
      | unterminated => exact absurd rfl hRight
      | name isName => exact absurd isName hOther.1
      | separator separator => exact absurd separator (hOther.2 _)
  | bracket =>
      exact ⟨[], ']', rfl, by decide, iff_of_false (by decide) fun hEnds => by cases hEnds⟩
  | number =>
      have hOther := not_isName_and_not_separator (.inr (.inl rfl) : TokenClass.number = _ ∨ _)
      cases h with
      | @number c more _ _ digit run =>
          rcases List.eq_nil_or_concat' more with rfl | ⟨init, last, rfl⟩
          · refine ⟨[], c, rfl, ?_, iff_of_false ?_ fun hEnds => by cases hEnds⟩
            · rintro rfl
              cases digit
            · intro hAllowed
              have hPart := isNumberPart_of_isDigit c [] digit
              rcases (eq_of_allowsRegex_of_isNumberPart hAllowed hPart).1 with rfl | rfl <;>
                cases digit
          · have hPart := run last (by simp)
            refine ⟨c :: init, last, rfl, ?_, ?_, fun hEnds => ?_⟩
            · rintro rfl
              rw [isNumberPart_space] at hPart
              cases hPart
            · intro hAllowed
              obtain ⟨hLetter, rfl, hHead⟩ := eq_of_allowsRegex_of_isNumberPart hAllowed hPart
              cases init with
              | nil =>
                  rcases hLetter with rfl | rfl <;> simp at hHead
              | cons x digits =>
                  exact .number (by simpa using hHead) hLetter
            · rw [← List.cons_append] at hEnds
              rcases hEnds.last.2 with rfl | rfl <;> rfl
      | name isName => exact absurd isName hOther.1
      | separator separator => exact absurd separator (hOther.2 _)

/-- A piece that begins with a slash and is no comment is a regular expression, which needs a place
where it is allowed and another slash, or it is the slash alone. -/
theorem Lexeme.eq_of_slash {settings : Settings} {left more right : List Char}
    {tokenClass : TokenClass} (h : Lexeme settings left tokenClass ('/' :: more) right)
    (hNoComment : OpensNoComment (more ++ right)) :
    (tokenClass = .operator ∧ more = []) ∨
      (tokenClass = .regex ∧ allowsRegex (lastInk none left) = true ∧
        meetsUnescaped '/' (more ++ right) = true) := by
  generalize hText : '/' :: more = text at h
  cases h with
  | string quote =>
      cases hText
      cases quote
  | unterminated quote =>
      cases hText
      cases quote
  | whitespace => cases hText
  | number _ digit =>
      cases hText
      cases digit
  | name _ start =>
      cases hText
      cases start
  | @regex body flags _ _ allowed isBody =>
      cases hText
      refine .inr ⟨rfl, allowed, meetsUnescaped_slash_iff.2 ⟨body, flags ++ right, ?_, isBody⟩⟩
      simp
  | lineComment =>
      cases hText
      exact absurd rfl hNoComment.1
  | blockComment | openComment =>
      cases hText
      exact absurd rfl hNoComment.2
  | division | operator =>
      cases hText
      exact .inl ⟨rfl, rfl⟩
  | bracket bracket =>
      cases hText
      cases bracket
  | separator separator =>
      cases hText
      cases separator
  | miscellaneous _ _ _ _ _ _ noSlash =>
      cases hText
      exact absurd rfl noSlash

theorem exists_deserves_slash_iff {offset : Nat} {left right : List Char} :
    (∃ warning, Deserves offset left right .operator ['/'] warning) ↔
      allowsRegex (lastInk none left) = true ∧ meetsUnescaped '/' right = true := by
  rw [meetsUnescaped_slash_iff]
  constructor
  · rintro ⟨_, ⟨⟩⟩
    rename_i body after allowed isBody hRight
    exact ⟨allowed, body, after, hRight, isBody⟩
  · rintro ⟨hAllowed, body, after, hRight, hBody⟩
    exact ⟨_, .slash hAllowed hBody hRight⟩

namespace LineReading

variable {settings : Settings}

theorem lexeme_of_leaves {openComment : Option Nat} {line : SourceLine}
    {earlier later : List (TokenClass × List Char)} {tokenClass : TokenClass} {text : List Char}
    (hPieces : (ofLine settings openComment line).tokens.flatMap Token.leaves =
      earlier ++ (tokenClass, text) :: later) :
    Lexeme settings (earlier.flatMap (·.2)) tokenClass text (later.flatMap (·.2)) ∨
      earlier = [] ∧ tokenClass = .comment := by
  unfold ofLine at hPieces
  split at hPieces
  · simp at hPieces
  · split at hPieces
    · left
      simpa using (lexemes_ofText _ _ _ [] rfl (.nil_left _)).lexeme hPieces
    · split at hPieces
      · cases earlier with
        | nil =>
            cases hPieces
            exact .inr ⟨rfl, rfl⟩
        | cons => simp [Token.leaves] at hPieces
      · rename_i comment rest hSplit
        rw [tokens_prepend, List.flatMap_cons] at hPieces
        cases earlier with
        | nil =>
            cases hPieces
            exact .inr ⟨rfl, rfl⟩
        | cons piece earlier =>
            obtain ⟨rfl, hOthers⟩ := List.cons.inj hPieces
            obtain ⟨body, hComment, -⟩ := commentEnd_of_split hSplit
            have hSeam : Seam comment rest := by
              have hLast : comment = (body ++ ['*']) ++ ['/'] := by simp [hComment, commentEnd]
              rw [hLast]
              exact .of_last (by decide) (by decide) ..
            left
            simpa using (lexemes_ofText _ _ _ comment rfl hSeam).lexeme hOthers

theorem allowsRegex_operand_iff {openComment : Option Nat} {line : SourceLine}
    {earlier spaces later : List (TokenClass × List Char)} {operandClass : TokenClass}
    {operand : List Char}
    (hPieces : (ofLine settings openComment line).tokens.flatMap Token.leaves =
      earlier ++ (operandClass, operand) :: spaces ++ later)
    (hOperand : IsOperand operandClass operand) (hSpaces : ∀ piece ∈ spaces, piece.1 = .whitespace)
    (hLater : later.flatMap (·.2) ≠ []) :
    let left := (earlier ++ (operandClass, operand) :: spaces).flatMap (·.2)
    allowsRegex (lastInk none left) = true ↔ EndsLikeKeyword operandClass operand := by
  intro left
  have hText : ∀ c ∈ spaces.flatMap (·.2), c = ' ' := by
    intro c hChar
    obtain ⟨⟨tokenClass, text⟩, hMem, hIn⟩ := List.mem_flatMap.1 hChar
    obtain rfl : tokenClass = .whitespace := hSpaces _ hMem
    obtain ⟨first, last, rfl⟩ := List.append_of_mem hMem
    have hCut : earlier ++ (operandClass, operand) :: (first ++ (.whitespace, text) :: last) ++
        later =
        (earlier ++ (operandClass, operand) :: first) ++
          (.whitespace, text) :: (last ++ later) := by
      simp
    rcases lexeme_of_leaves (hPieces.trans hCut) with hLexeme | ⟨hNil, -⟩
    · exact hLexeme.eq_space c hIn
    · simp at hNil
  rw [List.append_assoc, List.cons_append] at hPieces
  rcases lexeme_of_leaves hPieces with hLexeme | ⟨-, rfl⟩
  · obtain ⟨text, c, rfl, hSpace, hAllows⟩ := hLexeme.allowsRegex_iff hOperand (by simp [hLater])
    dsimp only [left]
    rw [List.flatMap_append, List.flatMap_cons, ← List.append_assoc, lastInk_append,
      lastInk_spaces _ hText, ← List.append_assoc, lastInk_concat _ _ hSpace, hAllows]
  · cases hOperand

/-- A slash that begins no comment, with a finished operand and perhaps spaces to its left,
divides, and no warning begins at it. The exception are hexadecimal numbers that end like a
keyword: behind them it does so only if no other slash is met on the line. -/
theorem divides_iff (settings : Settings) (openComment : Option Nat) {line : SourceLine}
    {earlier spaces later : List (TokenClass × List Char)} {operandClass tokenClass : TokenClass}
    {operand more : List Char}
    (hPieces : (ofLine settings openComment line).tokens.flatMap Token.leaves =
      earlier ++ (operandClass, operand) :: spaces ++ (tokenClass, '/' :: more) :: later)
    (hOperand : IsOperand operandClass operand) (hSpaces : ∀ piece ∈ spaces, piece.1 = .whitespace)
    (hNoComment : OpensNoComment (more ++ later.flatMap (·.2))) :
    let left := (earlier ++ (operandClass, operand) :: spaces).flatMap (·.2)
    (tokenClass = .operator ∧ more = [] ∧
        ∀ warning ∈ (ofLine settings openComment line).warnings,
          warning.span.start ≠ line.offset + left.length) ↔
      ¬ (EndsLikeKeyword operandClass operand ∧
        meetsUnescaped '/' (more ++ later.flatMap (·.2)) = true) := by
  intro left
  have hAllows : allowsRegex (lastInk none left) = true ↔ EndsLikeKeyword operandClass operand :=
    allowsRegex_operand_iff hPieces hOperand hSpaces (by simp)
  have hAccounts := accounts_ofLine openComment line |>.mem_and_start_eq_iff hPieces
    (List.cons_ne_nil _ _)
  rw [List.nil_append] at hAccounts
  rw [← hAllows]
  constructor
  · rintro ⟨rfl, rfl, hSilent⟩ hPattern
    obtain ⟨warning, hDeserves⟩ := exists_deserves_slash_iff.2 hPattern
    obtain ⟨hMem, hStart⟩ := (hAccounts warning).2 hDeserves
    exact hSilent warning hMem hStart
  · intro hNot
    rcases lexeme_of_leaves hPieces with hLexeme | ⟨hNil, -⟩
    · rcases hLexeme.eq_of_slash hNoComment with ⟨rfl, rfl⟩ | ⟨-, hPattern⟩
      · refine ⟨rfl, rfl, fun warning hMem hStart => hNot ?_⟩
        exact exists_deserves_slash_iff.1 ⟨warning, (hAccounts warning).1 ⟨hMem, hStart⟩⟩
      · exact absurd hPattern hNot
    · simp at hNil

/-- A string that ends like a keyword is an operand like any other. -/
theorem divides_string :
    let reading := ofLine {} (some 2) ⟨"b */ 'return' / 2 / 3".toList, 7⟩
    reading.tokens.flatMap Token.leaves =
      [(.comment, "b */".toList), (.whitespace, [' '])] ++
        (.string, "'return'".toList) :: [(.whitespace, [' '])] ++
        (.operator, ['/']) :: [(.whitespace, [' ']), (.number, ['2']), (.whitespace, [' ']),
          (.operator, ['/']), (.whitespace, [' ']), (.number, ['3'])] ∧
    ∀ warning ∈ reading.warnings, warning.span.start ≠ 21 := by
  intro reading
  have hPieces : reading.tokens.flatMap Token.leaves =
      [(.comment, "b */".toList), (.whitespace, [' '])] ++
        (.string, "'return'".toList) :: [(.whitespace, [' '])] ++
        (.operator, ['/']) :: [(.whitespace, [' ']), (.number, ['2']), (.whitespace, [' ']),
          (.operator, ['/']), (.whitespace, [' ']), (.number, ['3'])] := by
    decide +kernel
  have hNoComment : OpensNoComment " 2 / 3".toList := by simp [OpensNoComment]
  exact ⟨hPieces, ((divides_iff {} (some 2) hPieces .string (by simp) hNoComment).2 nofun).2.2⟩

/-- A number that ends like a keyword makes a pattern of what is divided twice. -/
theorem not_divides_hexadecimal :
    (ofLine {} none ⟨"0xff / 2 / 3".toList, 0⟩).tokens.flatMap Token.leaves =
      [(.number, "0xff".toList), (.whitespace, [' ']), (.regex, "/ 2 /".toList),
        (.whitespace, [' ']), (.number, ['3'])] ∧
    (ofLine {} none ⟨"0xe / (1 / 2)".toList, 0⟩).warnings =
      [⟨.rejectedRegex " (1 ", ⟨4, 10⟩⟩] := by
  refine ⟨?_, ?_⟩ <;> decide +kernel

end LineReading

end CodeListing
