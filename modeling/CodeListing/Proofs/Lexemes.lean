import Mathlib.Data.List.Basic
import CodeListing.Proofs.Line
import CodeListing.Proofs.Marks
import CodeListing.Proofs.Step

/-! # The shapes of tokens

A line is cut into pieces, the leaves of its tokens. What a piece may look like
depends on its class and on the text left and right of it, and every piece goes
as far as its class allows. A piece alone tells that no run of spaces or digits
goes on behind it, which is what the next piece needs to begin.
-/

namespace CodeListing

def TokenClass.IsName (tokenClass : TokenClass) : Prop :=
  tokenClass = .identifier ∨ ∃ category, tokenClass = .keyword category

/-- The shape of a piece of text by its class, when `left` stands on the line before the
piece. The last argument is the text after it. -/
inductive Lexeme (settings : Settings) (left : List Char) :
    TokenClass → List Char → List Char → Prop where
  | string {q body right} (quote : isQuote q = true) (open_ : meetsUnescaped q body = false)
      (closed : meetsUnescaped q (body ++ [q]) = true) :
      Lexeme settings left .string (q :: body ++ [q]) right
  | unterminated {q body} (quote : isQuote q = true) (open_ : meetsUnescaped q body = false) :
      Lexeme settings left .string (q :: body) []
  | whitespace {more right} (starts : left.getLast? ≠ some ' ') (run : ∀ d ∈ more, d = ' ')
      (ends : right.head? ≠ some ' ') :
      Lexeme settings left .whitespace (' ' :: more) right
  | number {c more right} (starts : ∀ b, left.getLast? = some b → b.isDigit = false)
      (digit : c.isDigit = true) (run : ∀ d ∈ more, isNumberPart c more d = true)
      (ends : EndsRun (isNumberPart c more) right) :
      Lexeme settings left .number (c :: more) right
  | name {tokenClass c more right} (isName : tokenClass.IsName) (start : isNameStart c = true)
      (run : ∀ d ∈ more, isNamePart d = true) (ends : EndsRun isNamePart right) :
      Lexeme settings left tokenClass (c :: more) right
  | regex {body flags right} (noComment : OpensNoComment (body ++ ['/']))
      (allowed : allowsRegex (lastInk none left) = true) (isBody : IsBody body)
      (pattern : Pattern.isPattern body = true) (run : ∀ d ∈ flags, isRegexFlag d = true)
      (few : flags.length ≤ settings.maxRegexFlags)
      (ends : flags.length = settings.maxRegexFlags ∨ EndsRun isRegexFlag right) :
      Lexeme settings left .regex ('/' :: body ++ '/' :: flags) right
  | lineComment {more} : Lexeme settings left .comment ('/' :: '/' :: more) []
  | blockComment {body right} (first : ¬ commentEnd <:+: body ++ ['*']) :
      Lexeme settings left .comment ('/' :: '*' :: (body ++ commentEnd)) right
  | openComment {more} (never : ¬ commentEnd <:+: more) :
      Lexeme settings left .comment ('/' :: '*' :: more) []
  | division {right} (noComment : OpensNoComment right)
      (noRegex : allowsRegex (lastInk none left) = true → ∀ body after,
        right = body ++ '/' :: after → IsBody body → Pattern.isPattern body = false) :
      Lexeme settings left .operator ['/'] right
  | operator {c right} (operator : isOperator c = true) : Lexeme settings left .operator [c] right
  | bracket {c right} (bracket : isBracket c = true) : Lexeme settings left .bracket [c] right
  | separator {tokenClass c right} (separator : TokenClass.ofSeparator? c = some tokenClass) :
      Lexeme settings left tokenClass [c] right
  | miscellaneous {c right} (noSeparator : TokenClass.ofSeparator? c = none)
      (noQuote : isQuote c = false) (noSpace : c ≠ ' ') (noBracket : isBracket c = false)
      (noOperator : isOperator c = false) (noDigit : c.isDigit = false) (noSlash : c ≠ '/')
      (noName : isNameStart c = false) :
      Lexeme settings left .miscellaneous [c] right

/-- Neither a run of spaces nor a run of digits goes on from `left` to `right`. -/
structure Seam (left right : List Char) : Prop where
  spaces : left.getLast? = some ' ' → right.head? ≠ some ' '
  digits : ∀ c, left.getLast? = some c → c.isDigit = true → EndsRun Char.isDigit right

/-- Pieces that follow each other from the end of `left` to the beginning of `right`. -/
inductive Lexemes (settings : Settings) (right : List Char) :
    List Char → List (TokenClass × List Char) → Prop where
  | nil {left} : Lexemes settings right left []
  | cons {left tokenClass text later}
      (first : Lexeme settings left tokenClass text (later.flatMap (·.2) ++ right))
      (others : Lexemes settings right (left ++ text) later) :
      Lexemes settings right left ((tokenClass, text) :: later)

namespace Seam

theorem nil_left (right : List Char) : Seam [] right :=
  ⟨nofun, nofun⟩

theorem nil_right (left : List Char) : Seam left [] :=
  ⟨fun _ => nofun, fun _ _ _ => endsRun_nil _⟩

theorem of_last {c : Char} (hSpace : c ≠ ' ') (hDigit : c.isDigit = false)
    (left right : List Char) : Seam (left ++ [c]) right := by
  constructor
  · intro hLast
    rw [List.getLast?_concat] at hLast
    exact absurd (Option.some.inj hLast) hSpace
  · intro d hLast hd
    rw [List.getLast?_concat] at hLast
    rw [← Option.some.inj hLast, hDigit] at hd
    cases hd

theorem of_contains {chars : List Char} {c : Char}
    (hAll : (chars.all fun d => d ≠ ' ' && !d.isDigit) = true)
    (h : chars.contains c = true) (left right : List Char) : Seam (left ++ [c]) right := by
  have hInk := List.all_eq_true.1 hAll c (List.contains_iff_mem.1 h)
  simp only [Bool.and_eq_true, decide_eq_true_eq, Bool.not_eq_true'] at hInk
  exact of_last hInk.1 hInk.2 left right

theorem of_run {p : Char → Bool} (hSpace : p ' ' = false)
    (hDigits : ∀ c, c.isDigit = true → p c = true) {text right : List Char} (hNe : text ≠ [])
    (hRun : ∀ c ∈ text, p c = true) (hEnds : EndsRun p right) (left : List Char) :
    Seam (left ++ text) right := by
  constructor
  · intro hLast
    rw [List.getLast?_append_of_ne_nil _ hNe] at hLast
    have hIn := hRun _ (List.mem_of_getLast? hLast)
    rw [hSpace] at hIn
    cases hIn
  · intro _ _ _ d hHead
    by_contra hDigit
    have hIn := hDigits d (by simpa using hDigit)
    rw [hEnds d hHead] at hIn
    cases hIn

theorem of_spaces {text right : List Char} (hNe : text ≠ []) (hRun : ∀ c ∈ text, c = ' ')
    (hEnds : right.head? ≠ some ' ') (left : List Char) : Seam (left ++ text) right := by
  constructor
  · intro _
    exact hEnds
  · intro c hLast hDigit
    rw [List.getLast?_append_of_ne_nil _ hNe] at hLast
    rw [hRun c (List.mem_of_getLast? hLast)] at hDigit
    cases hDigit

end Seam

theorem isNumberPart_of_isDigit (c : Char) (rest : List Char) {d : Char}
    (h : d.isDigit = true) : isNumberPart c rest d = true := by
  unfold isNumberPart
  split
  · simp [Text.isHexDigit, Text.hexValue?, h]
  · simp [h]

theorem isNumberPart_space (c : Char) (rest : List Char) :
    isNumberPart c rest ' ' = false := by
  unfold isNumberPart
  split <;> decide

theorem isNamePart_of_isDigit {c : Char} (h : c.isDigit = true) : isNamePart c = true := by
  have hAscii : Unicode.isAscii c = true := by
    simp only [Char.isDigit, Bool.and_eq_true, decide_eq_true_eq, UInt32.le_iff_toNat_le] at h
    have hNine : '9'.val.toNat = 57 := rfl
    rw [Unicode.isAscii, decide_eq_true_eq, Char.toNat]
    omega
  simp [isNamePart, Unicode.isAlphanumeric, Unicode.isNumeric_of_isAscii hAscii, h]

theorem isNamePart_of_isNameStart {c : Char} (h : isNameStart c = true) :
    isNamePart c = true := by
  unfold isNameStart at h
  unfold isNamePart
  cases hLetter : Unicode.isAlphabetic c with
  | true => simp [Unicode.isAlphanumeric_of_isAlphabetic hLetter]
  | false =>
      rw [hLetter, Bool.false_or] at h
      rw [Bool.or_assoc, h, Bool.or_true]

theorem isNamePart_space : isNamePart ' ' = false := by
  decide

theorem eq_of_ofSeparator? {tokenClass : TokenClass} {c : Char}
    (h : TokenClass.ofSeparator? c = some tokenClass) : c = ',' ∨ c = ';' ∨ c = ':' ∨ c = '.' := by
  grind [TokenClass.ofSeparator?]

/-- A piece leaves no run open behind it. -/
theorem Lexeme.seam {settings : Settings} {left text right : List Char} {tokenClass : TokenClass}
    (h : Lexeme settings left tokenClass text right) : Seam (left ++ text) right := by
  cases h with
  | string quote =>
      rw [← List.append_assoc]
      simp only [isQuote, Bool.or_eq_true, decide_eq_true_eq] at quote
      rcases quote with rfl | rfl <;> exact .of_last (by decide) (by decide) ..
  | unterminated => exact .nil_right _
  | whitespace starts run ends =>
      exact .of_spaces (List.cons_ne_nil _ _) (List.forall_mem_cons.2 ⟨rfl, run⟩) ends left
  | number starts digit run ends =>
      refine .of_run (isNumberPart_space ..) ?_ (List.cons_ne_nil _ _) ?_ ends left
      · intro d hd
        exact isNumberPart_of_isDigit _ _ hd
      · exact List.forall_mem_cons.2 ⟨isNumberPart_of_isDigit _ _ digit, run⟩
  | name isName start run ends =>
      refine .of_run isNamePart_space ?_ (List.cons_ne_nil _ _) ?_ ends left
      · intro d hd
        exact isNamePart_of_isDigit hd
      · exact List.forall_mem_cons.2 ⟨isNamePart_of_isNameStart start, run⟩
  | @regex body flags _ _ _ _ _ run =>
      rcases List.eq_nil_or_concat' flags with rfl | ⟨flags, flag, rfl⟩
      · rw [← List.append_assoc]
        exact .of_last (by decide) (by decide) ..
      · have hFlag := run flag (by simp)
        rw [← List.cons_append, ← List.append_assoc, ← List.append_assoc]
        simp only [isRegexFlag, Bool.or_eq_true, decide_eq_true_eq] at hFlag
        rcases hFlag with ((rfl | rfl) | rfl) | rfl <;> exact .of_last (by decide) (by decide) ..
  | lineComment => exact .nil_right _
  | @blockComment body =>
      have hLast : left ++ '/' :: '*' :: (body ++ commentEnd) =
          (left ++ '/' :: '*' :: (body ++ ['*'])) ++ ['/'] := by
        simp [commentEnd]
      rw [hLast]
      exact .of_last (by decide) (by decide) ..
  | openComment => exact .nil_right _
  | division => exact .of_last (by decide) (by decide) ..
  | operator operator => exact .of_contains (by decide) operator ..
  | bracket bracket => exact .of_contains (by decide) bracket ..
  | separator separator =>
      obtain rfl | rfl | rfl | rfl := eq_of_ofSeparator? separator <;>
        exact .of_last (by decide) (by decide) ..
  | miscellaneous _ _ noSpace _ _ noDigit => exact .of_last noSpace noDigit ..

namespace Lexemes

variable {settings : Settings} {left right : List Char}
  {leaves others : List (TokenClass × List Char)}

theorem singleton {tokenClass : TokenClass} {text : List Char}
    (h : Lexeme settings left tokenClass text right) :
    Lexemes settings right left [(tokenClass, text)] :=
  .cons h .nil

theorem append (h : Lexemes settings (others.flatMap (·.2) ++ right) left leaves)
    (hOthers : Lexemes settings right (left ++ leaves.flatMap (·.2)) others) :
    Lexemes settings right left (leaves ++ others) := by
  induction h with
  | nil => simpa using hOthers
  | cons first _ ih =>
      rw [List.cons_append]
      refine .cons ?_ (ih ?_)
      · rwa [List.flatMap_append, List.append_assoc]
      · rwa [List.flatMap_cons, ← List.append_assoc] at hOthers

theorem seam (h : Lexemes settings right left leaves)
    (hSeam : Seam left (leaves.flatMap (·.2) ++ right)) :
    Seam (left ++ leaves.flatMap (·.2)) right := by
  induction h with
  | nil => simpa using hSeam
  | cons first _ ih =>
      rw [List.flatMap_cons, ← List.append_assoc]
      exact ih first.seam

theorem lexeme (h : Lexemes settings right left leaves)
    {earlier later : List (TokenClass × List Char)} {tokenClass : TokenClass} {text : List Char}
    (hLeaves : leaves = earlier ++ (tokenClass, text) :: later) :
    Lexeme settings (left ++ earlier.flatMap (·.2)) tokenClass text
      (later.flatMap (·.2) ++ right) := by
  induction h generalizing earlier with
  | nil => simp at hLeaves
  | cons first _ ih =>
      cases earlier with
      | nil =>
          cases hLeaves
          simpa using first
      | cons piece earlier =>
          obtain ⟨rfl, hLater⟩ := List.cons.inj hLeaves
          rw [List.flatMap_cons, ← List.append_assoc]
          exact ih hLater

end Lexemes

theorem isName_classOfName (owner : Option Word) (name : String) (after : List Char) :
    (classOfName owner name after).IsName := by
  unfold classOfName
  split
  · exact .inr ⟨_, rfl⟩
  · split
    · exact .inr ⟨_, rfl⟩
    · exact .inr ⟨_, rfl⟩
  · exact .inl rfl

theorem lexeme_name (settings : Settings) (left : List Char) (owner : Option Word)
    {c : Char} (hStart : isNameStart c = true) (rest : List Char) :
    Lexeme settings left
      (classOfName owner (String.ofList (c :: rest.takeWhile isNamePart))
        (rest.dropWhile isNamePart))
      (c :: rest.takeWhile isNamePart) (rest.dropWhile isNamePart) :=
  .name (isName_classOfName ..) hStart (List.all_eq_true.1 List.all_takeWhile)
    (endsRun_dropWhile _ _)

theorem lexemes_readName (settings : Settings) (depth : Nat) (owner : Option Word) {c : Char}
    (hStart : isNameStart c = true) (rest left : List Char) :
    Lexemes settings (readName depth owner c rest).2 left
      (readName depth owner c rest).1.leaves := by
  induction depth generalizing owner c rest left with
  | zero => exact .singleton (lexeme_name settings left owner hStart rest)
  | succ depth ih =>
      have hName := lexeme_name settings left owner hStart rest
      unfold readName
      simp only
      split
      · rename_i d more hDepth hAfter
        cases hDepth
        split
        · rename_i hMember
          have hText := text_readName depth
            (Vocabulary.find? (String.ofList (c :: rest.takeWhile isNamePart))) d more
          refine .cons ?_ (.cons (.separator rfl) (ih _ hMember ..))
          rw [List.flatMap_cons, Token.flatMap_leaves, List.append_assoc, hText]
          change Lexeme settings left _ _ ('.' :: d :: more)
          rwa [← hAfter]
        · exact .singleton hName
      · exact .singleton hName

/-- Where a number ends, the text after it does not decide how the number is read. -/
theorem isNumberPart_append {c : Char} {more after : List Char}
    (hEnds : EndsRun (isNumberPart c (more ++ after)) after) :
    isNumberPart c (more ++ after) = isNumberPart c more := by
  cases more with
  | cons d more => rfl
  | nil =>
      cases after with
      | nil => rfl
      | cons d after =>
          have hNot := hEnds d rfl
          funext e
          by_cases hHex : c = '0' ∧ (d = 'x' ∨ d = 'X')
          · obtain ⟨rfl, rfl | rfl⟩ := hHex <;> simp [isNumberPart] at hNot
          · simp [isNumberPart, hHex]

theorem lexeme_single {settings : Settings} {left right : List Char} {tokenClass : TokenClass}
    {c : Char} (h : Lead.of c = .single tokenClass) :
    Lexeme settings left tokenClass [c] right := by
  unfold Lead.of at h
  split at h
  · rename_i hSeparator
    cases h
    exact .separator hSeparator
  · rename_i hSeparator
    by_cases hBracket : isBracket c = true
    · obtain rfl : tokenClass = .bracket := by grind
      exact .bracket hBracket
    · by_cases hOperator : isOperator c = true
      · obtain rfl : tokenClass = .operator := by grind
        exact .operator hOperator
      · obtain rfl : tokenClass = .miscellaneous := by grind
        exact .miscellaneous hSeparator (by grind) (by grind) (by grind) (by grind) (by grind)
          (by grind) (by grind)

theorem Step.Reads.lexemes {settings : Settings} {left text : List Char} {step : Step}
    (h : Reads settings (lastInk none left) text step) (hSeam : Seam left text) :
    Lexemes settings step.rest left step.token.leaves := by
  cases h with
  | string quote open_ closed => exact .singleton (.string quote open_ closed)
  | unterminated quote open_ => exact .singleton (.unterminated quote open_)
  | whitespace run ends =>
      refine .singleton (.whitespace ?_ run ?_)
      · intro hLast
        exact hSeam.spaces hLast rfl
      · intro hHead
        have hNot := ends ' ' hHead
        simp at hNot
  | number digit run ends =>
      rw [isNumberPart_append ends] at run ends
      refine .singleton (.number ?_ digit run ends)
      intro b hLast
      by_contra hDigit
      have hNot := hSeam.digits b hLast (by simpa using hDigit) _ rfl
      rw [digit] at hNot
      cases hNot
  | lineComment => exact .singleton .lineComment
  | blockComment first => exact .singleton (.blockComment first)
  | openComment never => exact .singleton (.openComment never)
  | @regex body flags after noComment allowed isBody pattern run few ends =>
      refine .singleton (.regex ?_ allowed isBody pattern run few ends)
      cases body with
      | nil => exact absurd rfl noComment.1
      | cons c body => exact noComment
  | @rejected body after noComment allowed isBody pattern =>
      refine .singleton (.division noComment ?_)
      intro _ other more hRest hOther
      -- both texts end at the first slash that is met, so they are the same
      have hSplit := splitUnescaped_append hOther.1 hOther.2 more
      rw [← hRest, splitUnescaped_append isBody.1 isBody.2] at hSplit
      cases hSplit
      exact pattern
  | division noComment alone =>
      refine .singleton (.division noComment ?_)
      intro hAllowed body after hRest hBody
      have hMeets := meetsUnescaped_slash_iff.2 ⟨body, after, hRest, hBody⟩
      rw [alone hAllowed] at hMeets
      cases hMeets
  | name start => exact lexemes_readName settings _ none start _ left
  | single lead => exact .singleton (lexeme_single lead)

namespace LineReading

variable {settings : Settings}

theorem text_leaves (offset : Nat) (before : Option Char) (text : List Char) :
    ((ofText settings offset before text).tokens.flatMap Token.leaves).flatMap (·.2) = text := by
  rw [List.flatMap_assoc]
  simp only [Token.flatMap_leaves]
  exact text_ofText offset before text

theorem text_leaves_ofLine (openComment : Option Nat) (line : Text.SourceLine) :
    ((ofLine settings openComment line).tokens.flatMap Token.leaves).flatMap (·.2) =
      line.text := by
  rw [List.flatMap_assoc]
  simp only [Token.flatMap_leaves]
  exact text_ofLine openComment line

/-- The pieces of a text that is read outside of comments have their shapes. -/
theorem lexemes_ofText (offset : Nat) (before : Option Char) (text : List Char) :
    ∀ left, before = lastInk none left → Seam left text →
      Lexemes settings [] left
        ((ofText settings offset before text).tokens.flatMap Token.leaves) := by
  induction offset, before, text using ofText.induct settings with
  | case1 =>
      intro left _ _
      rw [ofText]
      exact .nil
  | case2 offset before c rest step ih =>
      rintro left rfl hSeam
      have hStep := (Step.reads_read settings (lastInk none left) c rest).lexemes hSeam
      have hText : step.token.text ++ step.rest = c :: rest :=
        Step.source_read settings (lastInk none left) c rest
      rw [ofText_cons, tokens_prepend, List.flatMap_cons]
      apply Lexemes.append
      · rwa [text_leaves, List.append_nil]
      · -- the pieces of the step leave a seam behind them, so the rest can begin there
        rw [Token.flatMap_leaves]
        apply ih _ (lastInk_append none left _).symm
        have hSeam := hStep.seam (by rwa [Token.flatMap_leaves, hText])
        rwa [Token.flatMap_leaves] at hSeam

end LineReading

end CodeListing
