import CodeListing.Proofs.BestEffort

/-! # Where comments begin

A slash before another slash or a star begins a comment where a token can begin. It
does not if it lies in a longer token: in a string, in a comment, or in a regular
expression, where a backslash may precede it or where it is the slash that ends the
pattern, since what follows that slash is not looked at. So a comment behind a
division is lost where the division is taken for a pattern, and only there.
-/

namespace CodeListing

open Text

/-- The comment that a slash at `place` and `mark` begin when `right` is the rest of the line:
all of it, or what goes through the first comment end, or all of it for want of an end, so that the
comment is open behind the line. -/
inductive IsComment (place : Nat) (openComment : Option Nat) :
    Char → List Char → List Char → Prop where
  | line {right} : IsComment place openComment '/' right ('/' :: '/' :: right)
  | closed {body after} (first : ¬ commentEnd <:+: body ++ ['*']) :
      IsComment place openComment '*' (body ++ commentEnd ++ after)
        ('/' :: '*' :: (body ++ commentEnd))
  | unclosed {right} (never : ¬ commentEnd <:+: right) (opens : openComment = some place) :
      IsComment place openComment '*' right ('/' :: '*' :: right)

/-- The tokens that can hold a slash other than as their first character, with what they have
before the slash and behind it. Before the token, `ink` is the last character that is no space. -/
inductive Swallows (ink : Option Char) : TokenClass → List Char → List Char → Prop where
  | string {q before behind} (quote : isQuote q = true) :
      Swallows ink .string (q :: before) behind
  | comment {before behind} : Swallows ink .comment ('/' :: before) behind
  | escaped {before behind flags} (allowed : allowsRegex ink = true)
      (isBody : IsBody (before ++ '/' :: behind))
      (pattern : Pattern.isPattern (before ++ '/' :: behind) = true) :
      Swallows ink .regex ('/' :: before) (behind ++ '/' :: flags)
  | closing {body flags} (allowed : allowsRegex ink = true) (isBody : IsBody body)
      (pattern : Pattern.isPattern body = true) :
      Swallows ink .regex ('/' :: body) flags

/-- The piece behind `left` is the comment that a slash and `mark` begin. -/
def CommentAt (place : Nat) (openComment : Option Nat) (pieces : List (TokenClass × List Char))
    (left : List Char) (mark : Char) (right : List Char) : Prop :=
  ∃ earlier comment later, pieces = earlier ++ (.comment, comment) :: later ∧
    earlier.flatMap (·.2) = left ∧ IsComment place openComment mark right comment

/-- The slash behind `left` lies in a piece that can hold it, or in the first piece if this goes on
with a comment. Before the pieces, `ink` is the last character that is no space. -/
def SwallowedAt (ink : Option Char) (continues : Bool) (pieces : List (TokenClass × List Char))
    (left : List Char) : Prop :=
  ∃ earlier tokenClass before behind later,
    pieces = earlier ++ (tokenClass, before ++ '/' :: behind) :: later ∧
    earlier.flatMap (·.2) ++ before = left ∧
    (Swallows (lastInk ink (earlier.flatMap (·.2))) tokenClass before behind ∨
      continues = true ∧ earlier = [] ∧ tokenClass = .comment)

theorem slash_notMem_readName (depth : Nat) (owner : Option Word) {c : Char}
    (hStart : isNameStart c = true) (rest : List Char) :
    '/' ∉ (readName depth owner c rest).1.text := by
  have hName {c : Char} (hStart : isNameStart c = true) (rest : List Char) :
      '/' ∉ c :: rest.takeWhile isNamePart := by
    intro hMem
    have hAll : ∀ d ∈ c :: rest.takeWhile isNamePart, isNamePart d = true :=
      List.forall_mem_cons.2
        ⟨isNamePart_of_isNameStart hStart, List.all_eq_true.1 List.all_takeWhile⟩
    exact absurd (hAll '/' hMem) (by decide)
  induction depth generalizing owner c rest with
  | zero => exact hName hStart rest
  | succ depth ih =>
      unfold readName
      simp only
      split
      · rename_i d more hDepth _
        cases hDepth
        split
        · rename_i hMember
          intro hMem
          rcases List.mem_append.1 hMem with hMem | hMem
          · exact hName hStart rest hMem
          · exact ih _ hMember _ ((List.mem_cons.1 hMem).resolve_left (by decide))
        · exact hName hStart rest
      · exact hName hStart rest

section

variable {ink : Option Char} {left behind : List Char}

theorem swallows_string {q : Char} {body : List Char} (quote : isQuote q = true)
    (h : q :: body = left ++ '/' :: behind) : Swallows ink .string left behind := by
  cases left with
  | nil =>
      obtain ⟨rfl, -⟩ := List.cons.inj h
      cases quote
  | cons c left =>
      obtain ⟨rfl, -⟩ := List.cons.inj h
      exact .string quote

theorem swallows_comment {body : List Char} (h : '/' :: body = left ++ '/' :: behind) :
    left = [] ∧ behind = body ∨ Swallows ink .comment left behind := by
  cases left with
  | nil => exact .inl ⟨rfl, (List.cons.inj h).2.symm⟩
  | cons c left =>
      obtain ⟨rfl, -⟩ := List.cons.inj h
      exact .inr .comment

theorem swallows_regex {body flags : List Char} (allowed : allowsRegex ink = true)
    (isBody : IsBody body) (pattern : Pattern.isPattern body = true)
    (run : ∀ d ∈ flags, isRegexFlag d = true)
    (h : '/' :: body ++ '/' :: flags = left ++ '/' :: behind) :
    left = [] ∧ behind = body ++ '/' :: flags ∨ Swallows ink .regex left behind := by
  cases left with
  | nil => exact .inl ⟨rfl, (List.cons.inj h).2.symm⟩
  | cons c left =>
      obtain ⟨rfl, hBody⟩ := List.cons.inj h
      right
      rcases List.append_eq_append_iff.1 hBody with ⟨more, rfl, hFlags⟩ | ⟨more, rfl, hBehind⟩
      · cases more with
        | nil =>
            obtain ⟨-, rfl⟩ := List.cons.inj hFlags
            rw [List.append_nil]
            exact .closing allowed isBody pattern
        | cons d more =>
            -- no flag is a slash
            obtain ⟨rfl, rfl⟩ := List.cons.inj hFlags
            exact absurd (run '/' (by simp)) (by decide)
      · cases more with
        | nil =>
            obtain ⟨-, rfl⟩ := List.cons.inj hBehind
            rw [List.append_nil] at isBody pattern
            exact .closing allowed isBody pattern
        | cons d more =>
            obtain ⟨rfl, rfl⟩ := List.cons.inj hBehind
            exact .escaped allowed isBody pattern

end

namespace Step.Reads

variable {settings : Settings} {ink : Option Char} {text : List Char} {step : Step}

/-- What a step makes of a slash before a slash or star, if the slash is in its token. -/
theorem comment_or_swallows (h : Reads settings ink text step) {left behind right : List Char}
    {mark : Char} (hMark : mark = '/' ∨ mark = '*')
    (hText : step.token.text = left ++ '/' :: behind)
    (hNext : behind ++ step.rest = mark :: right) :
    (left = [] ∧ ∃ comment, step.token.leaves = [(.comment, comment)] ∧
      ∀ place later, IsComment place
        (if step.finding = some .openComment then some place else later) mark right comment) ∨
    ∃ tokenClass, step.token.leaves = [(tokenClass, left ++ '/' :: behind)] ∧
      Swallows ink tokenClass left behind := by
  have hSlash : '/' ∈ step.token.text := by simp [hText]
  have hDivides {rest : List Char} (noComment : OpensNoComment rest)
      (hRest : rest = mark :: right) : False := by
    subst hRest
    rcases hMark with rfl | rfl
    · exact noComment.1 rfl
    · exact noComment.2 rfl
  have hAlone (h : ['/'] = left ++ '/' :: behind) : behind = [] := by
    have hLength := congrArg List.length h
    simp only [List.length_append, List.length_cons, List.length_nil] at hLength
    exact List.length_eq_zero_iff.1 (by omega)
  cases h with
  | string quote => exact .inr ⟨_, by rw [← hText]; rfl, swallows_string quote hText⟩
  | unterminated quote => exact .inr ⟨_, by rw [← hText]; rfl, swallows_string quote hText⟩
  | whitespace run =>
      rcases List.mem_cons.1 hSlash with hSpace | hMem
      · cases hSpace
      · exact absurd (run '/' hMem) (by decide)
  | @number c more after digit run =>
      have hNumber : isNumberPart c (more ++ after) '/' = false := by
        unfold isNumberPart
        split <;> decide
      rcases List.mem_cons.1 hSlash with rfl | hMem
      · cases digit
      · exact absurd (run '/' hMem) (Bool.eq_false_iff.1 hNumber)
  | lineComment =>
      obtain rfl : behind = mark :: right := by simpa using hNext
      rcases swallows_comment hText with ⟨rfl, hBehind⟩ | hSwallows
      · cases hBehind
        exact .inl ⟨rfl, _, rfl, fun place later => .line⟩
      · exact .inr ⟨_, by rw [← hText]; rfl, hSwallows⟩
  | blockComment first =>
      rcases swallows_comment hText with ⟨rfl, rfl⟩ | hSwallows
      · obtain ⟨rfl, rfl⟩ := List.cons.inj hNext
        exact .inl ⟨rfl, _, rfl, fun place later => .closed first⟩
      · exact .inr ⟨_, by rw [← hText]; rfl, hSwallows⟩
  | openComment never =>
      obtain rfl : behind = mark :: right := by simpa using hNext
      rcases swallows_comment hText with ⟨rfl, hBehind⟩ | hSwallows
      · cases hBehind
        exact .inl ⟨rfl, _, rfl, fun place later => .unclosed never rfl⟩
      · exact .inr ⟨_, by rw [← hText]; rfl, hSwallows⟩
  | regex noComment allowed isBody pattern run =>
      rcases swallows_regex allowed isBody pattern run hText with ⟨rfl, rfl⟩ | hSwallows
      · exact (hDivides noComment (by simpa using hNext)).elim
      · exact .inr ⟨_, by rw [← hText]; rfl, hSwallows⟩
  | rejected noComment =>
      obtain rfl := hAlone hText
      exact (hDivides noComment hNext).elim
  | division noComment =>
      obtain rfl := hAlone hText
      exact (hDivides noComment hNext).elim
  | name start => exact absurd hSlash (slash_notMem_readName _ _ start _)
  | single lead =>
      have hLead : Lead.of '/' = .slash := by decide
      rw [← List.mem_singleton.1 hSlash, hLead] at lead
      cases lead

end Step.Reads

section

variable {pieces others : List (TokenClass × List Char)} {left text : List Char}

theorem CommentAt.append {place : Nat} {openComment : Option Nat} {mark : Char} {right : List Char}
    (h : CommentAt place openComment pieces left mark right)
    (hText : others.flatMap (·.2) = text) :
    CommentAt place openComment (others ++ pieces) (text ++ left) mark right := by
  obtain ⟨earlier, comment, later, rfl, rfl, hComment⟩ := h
  subst hText
  exact ⟨others ++ earlier, comment, later, (List.append_assoc ..).symm, List.flatMap_append,
    hComment⟩

theorem SwallowedAt.append {ink : Option Char}
    (h : SwallowedAt (lastInk ink text) false pieces left)
    (hText : others.flatMap (·.2) = text) (continues : Bool) :
    SwallowedAt ink continues (others ++ pieces) (text ++ left) := by
  obtain ⟨earlier, tokenClass, before, behind, later, rfl, rfl, hSwallows | ⟨hFalse, -⟩⟩ := h
  · subst hText
    refine ⟨others ++ earlier, tokenClass, before, behind, later, (List.append_assoc ..).symm,
      ?_, .inl ?_⟩
    · rw [List.flatMap_append, List.append_assoc]
    · rwa [List.flatMap_append, lastInk_append]
  · cases hFalse

end

theorem eq_append_of_length {earlier later earlier' later' : List (TokenClass × List Char)}
    {piece piece' : TokenClass × List Char}
    (h : earlier ++ piece :: later = earlier' ++ piece' :: later')
    (hLeft : (earlier.flatMap (·.2)).length + piece.2.length <
      (earlier'.flatMap (·.2)).length + piece'.2.length) :
    ∃ skipped, earlier' = earlier ++ piece :: skipped ∧ later = skipped ++ piece' :: later' := by
  rcases List.append_eq_append_iff.1 h with ⟨more, rfl, hMore⟩ | ⟨more, rfl, hMore⟩
  · cases more with
    | nil =>
        obtain ⟨rfl, -⟩ := List.cons.inj hMore
        simp at hLeft
    | cons first skipped =>
        obtain ⟨rfl, rfl⟩ := List.cons.inj hMore
        exact ⟨skipped, rfl, rfl⟩
  · cases more with
    | nil =>
        obtain ⟨rfl, -⟩ := List.cons.inj hMore
        simp at hLeft
    | cons first skipped =>
        obtain ⟨rfl, rfl⟩ := List.cons.inj hMore
        simp at hLeft
        omega

theorem CommentAt.behind {place : Nat} {openComment : Option Nat} {mark : Char} {right : List Char}
    {earlier later : List (TokenClass × List Char)} {piece : TokenClass × List Char}
    {between : List Char}
    (h : CommentAt place openComment (earlier ++ piece :: later)
      (earlier.flatMap (·.2) ++ piece.2 ++ between) mark right) :
    CommentAt place openComment later between mark right := by
  obtain ⟨earlier', comment, later', hCut, hLeft, hComment⟩ := h
  have hNonempty : 0 < comment.length := by
    cases hComment <;> exact Nat.succ_pos _
  have hLength := congrArg List.length hLeft
  simp only [List.length_append] at hLength
  obtain ⟨skipped, rfl, hLater⟩ := eq_append_of_length hCut (by
    simp only
    omega)
  rw [List.flatMap_append, List.append_assoc] at hLeft
  exact ⟨skipped, comment, later', hLater,
    List.append_cancel_left (List.append_cancel_left hLeft), hComment⟩

/-- The token that holds a slash behind a division begins between the two, with a slash or with a
quote. -/
theorem SwallowedAt.exists_between {ink : Option Char} {continues : Bool}
    {earlier later : List (TokenClass × List Char)} {between : List Char}
    (h : SwallowedAt ink continues (earlier ++ (.operator, ['/']) :: later)
      (earlier.flatMap (·.2) ++ '/' :: between)) :
    ∃ c ∈ between, c = '/' ∨ isQuote c = true := by
  obtain ⟨earlier', tokenClass, before, behind, later', hCut, hLeft, hSwallows⟩ := h
  have hLength := congrArg List.length hLeft
  simp only [List.length_append, List.length_cons] at hLength
  obtain ⟨skipped, rfl, -⟩ := eq_append_of_length hCut (by
    simp only [List.length_append, List.length_cons, List.length_nil]
    omega)
  rcases hSwallows with hSwallows | ⟨-, hNil, -⟩
  · rw [List.flatMap_append, List.append_assoc] at hLeft
    have hBefore : skipped.flatMap (·.2) ++ before = between :=
      (List.cons.inj (List.append_cancel_left hLeft)).2
    have hFirst (c : Char) (rest : List Char) (hText : before = c :: rest) : c ∈ between := by
      rw [← hBefore, hText]
      exact List.mem_append_right _ List.mem_cons_self
    cases hSwallows with
    | string quote => exact ⟨_, hFirst _ _ rfl, .inr quote⟩
    | comment => exact ⟨'/', hFirst _ _ rfl, .inl rfl⟩
    | escaped => exact ⟨'/', hFirst _ _ rfl, .inl rfl⟩
    | closing => exact ⟨'/', hFirst _ _ rfl, .inl rfl⟩
  · simp at hNil

namespace LineReading

variable {settings : Settings}

theorem commentAt_or_swallowedAt_ofText {mark : Char} (hMark : mark = '/' ∨ mark = '*')
    {right : List Char} (offset : Nat) (ink : Option Char) (text : List Char) :
    ∀ left, text = left ++ '/' :: mark :: right →
      let reading := ofText settings offset ink text
      let pieces := reading.tokens.flatMap Token.leaves
      CommentAt (offset + left.length) reading.openComment pieces left mark right ∨
        SwallowedAt ink false pieces left := by
  induction offset, ink, text using ofText.induct settings with
  | case1 =>
      intro left hText
      simp at hText
  | case2 offset ink c rest step ih =>
      intro left hText
      have hReads : Step.Reads settings ink (c :: rest) step := Step.reads_read settings ink c rest
      have hSource : step.token.text ++ step.rest = c :: rest :=
        Step.source_read settings ink c rest
      rw [ofText_cons]
      simp only [tokens_prepend, List.flatMap_cons, openComment_prepend]
      rcases append_eq_append_cons (hSource.trans hText) with
        ⟨behind, hToken, hNext⟩ | ⟨more, rfl, hRest⟩
      · rcases hReads.comment_or_swallows hMark hToken hNext.symm with
          ⟨rfl, comment, hLeaves, hComment⟩ | ⟨tokenClass, hLeaves, hSwallows⟩
        · exact .inl ⟨[], comment, _, by rw [hLeaves]; rfl, rfl, hComment ..⟩
        · refine .inr ⟨[], tokenClass, left, behind, _, by rw [hLeaves]; rfl, rfl, .inl ?_⟩
          exact hSwallows
      · have hFinding : step.finding ≠ some .openComment := by
          intro hOpen
          rw [hReads.rest_eq_nil (.inr hOpen)] at hRest
          simp at hRest
        rw [if_neg hFinding]
        rcases ih more hRest with hComment | hSwallowed
        · rw [Nat.add_assoc, ← List.length_append] at hComment
          exact .inl (hComment.append (Token.flatMap_leaves _))
        · exact .inr (hSwallowed.append (Token.flatMap_leaves _) false)

/-- On every line, and also where a comment goes on, a slash before a slash or star begins a comment
unless a longer token holds it. -/
theorem commentAt_or_swallowedAt {mark : Char} (hMark : mark = '/' ∨ mark = '*')
    (openComment : Option Nat) {line : SourceLine} {left right : List Char}
    (hText : line.text = left ++ '/' :: mark :: right) :
    let reading := ofLine settings openComment line
    let pieces := reading.tokens.flatMap Token.leaves
    CommentAt (line.offset + left.length) reading.openComment pieces left mark right ∨
      SwallowedAt none openComment.isSome pieces left := by
  have hBlank : line.isBlank = false := by
    rw [SourceLine.isBlank, hText]
    simp
  simp only [ofLine, hBlank, Bool.false_eq_true, if_false]
  cases openComment with
  | none => exact commentAt_or_swallowedAt_ofText hMark line.offset none line.text left hText
  | some start =>
      simp only
      split
      · exact .inr ⟨[], .comment, left, mark :: right, [], by simp [Token.leaves, hText], rfl,
          .inr ⟨rfl, rfl, rfl⟩⟩
      · rename_i comment rest hSplit
        simp only [tokens_prepend, openComment_prepend, List.flatMap_cons, reduceCtorEq, if_false]
        rcases append_eq_append_cons ((eq_of_splitCommentEnd hSplit).symm.trans hText) with
          ⟨behind, rfl, -⟩ | ⟨more, rfl, hRest⟩
        · exact .inr ⟨[], .comment, left, behind, _, rfl, rfl, .inr ⟨rfl, rfl, rfl⟩⟩
        · have hFirst : [(TokenClass.comment, comment)].flatMap (·.2) = comment :=
            List.append_nil comment
          rcases commentAt_or_swallowedAt_ofText hMark (line.offset + comment.length)
            (lastInk none comment) rest more hRest with hComment | hSwallowed
          · rw [Nat.add_assoc, ← List.length_append] at hComment
            exact .inl (hComment.append hFirst)
          · exact .inr (hSwallowed.append hFirst true)

/-- A comment begins at a slash before a slash or star unless a longer token holds the slash: a
string, a comment, or a regular expression that stands where one may and has the slash behind a
backslash or at the end of its pattern. In particular no slash is lost that follows a division, if
neither a slash nor a quote stands between them. -/
theorem comment_or_swallowed (settings : Settings) (openComment : Option Nat) {line : SourceLine}
    {left right : List Char} {mark : Char} (hText : line.text = left ++ '/' :: mark :: right)
    (hMark : mark = '/' ∨ mark = '*') :
    let reading := ofLine settings openComment line
    let pieces := reading.tokens.flatMap Token.leaves
    (CommentAt (line.offset + left.length) reading.openComment pieces left mark right ∨
      SwallowedAt none openComment.isSome pieces left) ∧
    ∀ earlier between later, pieces = earlier ++ (.operator, ['/']) :: later →
      left = earlier.flatMap (·.2) ++ '/' :: between →
      (∀ c ∈ between, c ≠ '/' ∧ isQuote c = false) →
      CommentAt (line.offset + left.length) reading.openComment later between mark right := by
  intro reading pieces
  have hOutcome : CommentAt (line.offset + left.length) reading.openComment pieces left mark right ∨
      SwallowedAt none openComment.isSome pieces left :=
    commentAt_or_swallowedAt hMark openComment hText
  refine ⟨hOutcome, fun earlier between later hPieces hLeft hBetween => ?_⟩
  subst hLeft
  rw [hPieces] at hOutcome
  rcases hOutcome with hComment | hSwallowed
  · rw [List.append_cons] at hComment ⊢
    exact hComment.behind
  · obtain ⟨c, hc, rfl | hQuote⟩ := hSwallowed.exists_between
    · exact absurd rfl (hBetween _ hc).1
    · rw [(hBetween _ hc).2] at hQuote
      cases hQuote

/-- A comment behind a division is begun and left open, at its place in the source. -/
theorem comment_or_swallowed_division :
    CommentAt 13 (ofLine {} none ⟨"x / y /* z".toList, 7⟩).openComment
      [(.whitespace, [' ']), (.identifier, ['y']), (.whitespace, [' ']), (.comment, "/* z".toList)]
      " y ".toList '*' " z".toList := by
  have hPieces : (ofLine {} none ⟨"x / y /* z".toList, 7⟩).tokens.flatMap Token.leaves =
      [(.identifier, ['x']), (.whitespace, [' '])] ++ (.operator, ['/']) :: [(.whitespace, [' ']),
        (.identifier, ['y']), (.whitespace, [' ']), (.comment, "/* z".toList)] := by
    decide +kernel
  have hText : (SourceLine.mk "x / y /* z".toList 7).text =
      "x / y ".toList ++ '/' :: '*' :: " z".toList := by decide +kernel
  exact (comment_or_swallowed {} none hText (.inr rfl)).2 _ " y ".toList _ hPieces
    rfl (by simp [isQuote])

/-- Behind a parenthesis the division is taken for a pattern, whose end swallows the slash of the
comment. -/
theorem comment_swallowed_parenthesis :
    (ofLine {} none ⟨"(a) / 2 // half".toList, 0⟩).tokens.flatMap Token.leaves =
      [(.bracket, ['(']), (.identifier, ['a']), (.bracket, [')']), (.whitespace, [' ']),
        (.regex, "/ 2 /".toList), (.operator, ['/']), (.whitespace, [' ']),
        (.identifier, "half".toList)] ∧
    (ofLine {} none ⟨"(a) / 2 /* half".toList, 0⟩).tokens.flatMap Token.leaves =
      [(.bracket, ['(']), (.identifier, ['a']), (.bracket, [')']), (.whitespace, [' ']),
        (.regex, "/ 2 /".toList), (.operator, ['*']), (.whitespace, [' ']),
        (.identifier, "half".toList)] ∧
    (ofLine {} none ⟨"(a) / 2 /* half".toList, 0⟩).openComment = none := by
  refine ⟨?_, ?_, ?_⟩ <;> decide +kernel

end LineReading

end CodeListing
