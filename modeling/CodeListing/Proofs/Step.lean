import CodeListing.Proofs.Delimited
import CodeListing.Token.Step

/-! # What a step can do

A step reads one token from the front of a text. `Step.Reads` lists the ways to
do so by the shape of the text, together with everything that decides between
them, and `Step.reads_read` says that these are all. What is true of every
token or of every finding is proved case by case from this list and not from
the readers.
-/

namespace CodeListing

/-- No character of `after` that follows at once belongs to the run of `p`. -/
def EndsRun (p : Char → Bool) (after : List Char) : Prop :=
  ∀ c, after.head? = some c → p c = false

theorem endsRun_dropWhile (p : Char → Bool) (text : List Char) :
    EndsRun p (text.dropWhile p) := by
  intro c hHead
  have hNot := List.head?_dropWhile_not p text
  rw [hHead] at hNot
  simpa using hNot

theorem endsRun_nil (p : Char → Bool) : EndsRun p [] := by
  intro c hHead
  cases hHead

theorem cappedRun (p : Char → Bool) (limit : Nat) (text : List Char) {count : Nat}
    (hCount : count = min limit (text.takeWhile p).length) :
    (∀ d ∈ text.take count, p d = true) ∧ (text.take count).length ≤ limit ∧
      ((text.take count).length = limit ∨ EndsRun p (text.drop count)) := by
  have hText : text.takeWhile p ++ text.dropWhile p = text := List.takeWhile_append_dropWhile
  generalize hRun : text.takeWhile p = run at hText hCount
  have hAll : ∀ d ∈ run, p d = true := by
    rw [← hRun]
    exact List.all_eq_true.1 List.all_takeWhile
  have hTake : text.take count = run.take count := by
    rw [← hText, List.take_append_of_le_length (by omega)]
  have hLength : (text.take count).length = count := by
    rw [hTake, List.length_take]
    omega
  refine ⟨?_, by omega, ?_⟩
  · intro d hd
    rw [hTake] at hd
    exact hAll d (List.mem_of_mem_take hd)
  · rcases Nat.le_total limit run.length with hLimit | hLimit
    · exact .inl (by omega)
    · have hDrop : text.drop count = text.dropWhile p := by
        rw [← hText, show count = run.length by omega, List.drop_left, hText]
      rw [hDrop]
      exact .inr (endsRun_dropWhile p text)

/-- A slash before `rest` begins neither of the two comments. -/
def OpensNoComment (rest : List Char) : Prop :=
  rest.head? ≠ some '/' ∧ rest.head? ≠ some '*'

/-- The text after a slash up to the next slash that no backslash precedes. -/
def IsBody (body : List Char) : Prop :=
  meetsUnescaped '/' body = false ∧ meetsUnescaped '/' (body ++ ['/']) = true

/-- A slash is met where a text that can be a pattern ends. -/
theorem meetsUnescaped_slash_iff {text : List Char} :
    meetsUnescaped '/' text = true ↔ ∃ body after, text = body ++ '/' :: after ∧ IsBody body := by
  constructor
  · intro hMeets
    cases hSplit : splitUnescaped '/' text with
    | none =>
        rw [splitUnescaped_eq_none_iff.1 hSplit] at hMeets
        cases hMeets
    | some parts =>
        obtain ⟨body, after⟩ := parts
        exact ⟨body, after, eq_of_splitUnescaped hSplit, meetsUnescaped_of_split hSplit⟩
  · rintro ⟨body, after, rfl, hBody⟩
    have hSplit := splitUnescaped_append hBody.1 hBody.2 after
    rw [← Bool.not_eq_false, ← splitUnescaped_eq_none_iff, hSplit]
    exact nofun

namespace Step

/-- The ways to read a token from the front of a text, when `before` is the last
character on the line that is no space. -/
inductive Reads (settings : Settings) (before : Option Char) : List Char → Step → Prop where
  | string {q body after} (quote : isQuote q = true) (open_ : meetsUnescaped q body = false)
      (closed : meetsUnescaped q (body ++ [q]) = true) :
      Reads settings before (q :: body ++ q :: after)
        { token := .leaf .string (q :: body ++ [q]), rest := after }
  | unterminated {q body} (quote : isQuote q = true) (open_ : meetsUnescaped q body = false) :
      Reads settings before (q :: body)
        { token := .leaf .string (q :: body)
          finding := some (.defect .unterminatedString (body.length + 1))
          rest := [] }
  | whitespace {more after} (run : ∀ d ∈ more, d = ' ') (ends : EndsRun (· = ' ') after) :
      Reads settings before (' ' :: more ++ after)
        { token := .leaf .whitespace (' ' :: more), rest := after }
  | number {c more after} (digit : c.isDigit = true)
      (run : ∀ d ∈ more, isNumberPart c (more ++ after) d = true)
      (ends : EndsRun (isNumberPart c (more ++ after)) after) :
      Reads settings before (c :: more ++ after)
        { token := .leaf .number (c :: more), rest := after }
  | lineComment {rest} :
      Reads settings before ('/' :: '/' :: rest)
        { token := .leaf .comment ('/' :: '/' :: rest), rest := [] }
  | blockComment {body after} (first : ¬ commentEnd <:+: body ++ ['*']) :
      Reads settings before ('/' :: '*' :: (body ++ commentEnd) ++ after)
        { token := .leaf .comment ('/' :: '*' :: (body ++ commentEnd)), rest := after }
  | openComment {rest} (never : ¬ commentEnd <:+: rest) :
      Reads settings before ('/' :: '*' :: rest)
        { token := .leaf .comment ('/' :: '*' :: rest)
          finding := some .openComment
          rest := [] }
  | regex {body flags after} (noComment : OpensNoComment (body ++ '/' :: (flags ++ after)))
      (allowed : allowsRegex before = true) (isBody : IsBody body)
      (pattern : Pattern.isPattern body = true)
      (run : ∀ d ∈ flags, isRegexFlag d = true) (few : flags.length ≤ settings.maxRegexFlags)
      (ends : flags.length = settings.maxRegexFlags ∨ EndsRun isRegexFlag after) :
      Reads settings before ('/' :: body ++ '/' :: (flags ++ after))
        { token := .leaf .regex ('/' :: body ++ '/' :: flags), rest := after }
  | rejected {body after} (noComment : OpensNoComment (body ++ '/' :: after))
      (allowed : allowsRegex before = true) (isBody : IsBody body)
      (pattern : Pattern.isPattern body = false) :
      Reads settings before ('/' :: body ++ '/' :: after)
        { token := .leaf .operator ['/']
          finding := some (.defect (.rejectedRegex (String.ofList body)) (body.length + 2))
          rest := body ++ '/' :: after }
  | division {rest} (noComment : OpensNoComment rest)
      (alone : allowsRegex before = true → meetsUnescaped '/' rest = false) :
      Reads settings before ('/' :: rest)
        { token := .leaf .operator ['/'], rest := rest }
  | name {c rest} (start : isNameStart c = true) :
      Reads settings before (c :: rest)
        { token := (readName settings.maxMemberDepth none c rest).1
          rest := (readName settings.maxMemberDepth none c rest).2 }
  | single {c tokenClass rest} (lead : Lead.of c = .single tokenClass) :
      Reads settings before (c :: rest) { token := .leaf tokenClass [c], rest := rest }

variable {settings : Settings} {before : Option Char}

theorem reads_string {q : Char} (hQuote : isQuote q = true) (rest : List Char) :
    Reads settings before (q :: rest) (string q rest) := by
  unfold string
  split
  · rename_i body after hSplit
    obtain ⟨hOpen, hClosed⟩ := meetsUnescaped_of_split hSplit
    rw [eq_of_splitUnescaped hSplit]
    exact .string hQuote hOpen hClosed
  · rename_i hSplit
    exact .unterminated hQuote (splitUnescaped_eq_none_iff.1 hSplit)

theorem reads_run {p : Char → Bool} {tokenClass : TokenClass} {c : Char} {rest : List Char}
    (h : ∀ {more after}, c :: rest = c :: more ++ after → (∀ d ∈ more, p d = true) →
      EndsRun p after → Reads settings before (c :: more ++ after)
        { token := .leaf tokenClass (c :: more), rest := after }) :
    Reads settings before (c :: rest) (run tokenClass p c rest) := by
  have hSplit : c :: rest = c :: rest.takeWhile p ++ rest.dropWhile p := by
    rw [List.cons_append, List.takeWhile_append_dropWhile]
  have hReads := h hSplit (List.all_eq_true.1 List.all_takeWhile) (endsRun_dropWhile p rest)
  rw [← hSplit] at hReads
  exact hReads

theorem reads_blockComment (rest : List Char) :
    Reads settings before ('/' :: '*' :: rest) (blockComment rest) := by
  unfold blockComment
  split
  · rename_i comment after hSplit
    obtain ⟨body, rfl, hFirst⟩ := commentEnd_of_split hSplit
    rw [eq_of_splitCommentEnd hSplit]
    exact .blockComment hFirst
  · rename_i hSplit
    exact .openComment (splitCommentEnd_eq_none_iff.1 hSplit)

theorem reads_regex {rest : List Char} (hNoComment : OpensNoComment rest)
    (hAllowed : allowsRegex before = true) :
    Reads settings before ('/' :: rest) (regex settings.maxRegexFlags rest) := by
  unfold regex
  split
  · rename_i hSplit
    exact .division hNoComment (fun _ => splitUnescaped_eq_none_iff.1 hSplit)
  · rename_i body after hSplit
    have hBody : IsBody body := meetsUnescaped_of_split hSplit
    rw [eq_of_splitUnescaped hSplit] at hNoComment ⊢
    split
    · rename_i hPattern
      obtain ⟨hRun, hFew, hEnds⟩ := cappedRun isRegexFlag settings.maxRegexFlags after rfl
      have hReads : Reads settings before _ _ := .regex (by
        rwa [List.take_append_drop]) hAllowed hBody hPattern hRun hFew hEnds
      rwa [List.take_append_drop] at hReads
    · rename_i hPattern
      exact .rejected hNoComment hAllowed hBody (Bool.eq_false_iff.2 hPattern)

theorem reads_slash (rest : List Char) :
    Reads settings before ('/' :: rest) (slash settings.maxRegexFlags before rest) := by
  unfold slash
  split
  · exact .lineComment
  · exact reads_blockComment _
  · rename_i hNotSlash hNotStar
    have hNoComment : OpensNoComment rest := by
      constructor
      · intro hHead
        obtain ⟨more, rfl⟩ := List.head?_eq_some_iff.1 hHead
        exact hNotSlash more rfl
      · intro hHead
        obtain ⟨more, rfl⟩ := List.head?_eq_some_iff.1 hHead
        exact hNotStar more rfl
    split
    · rename_i hAllowed
      exact reads_regex hNoComment hAllowed
    · rename_i hNotAllowed
      exact .division hNoComment (fun hAllowed => absurd hAllowed hNotAllowed)

/-- Every step is one of the listed ways to read a token. -/
theorem reads_read (settings : Settings) (before : Option Char) (c : Char) (rest : List Char) :
    Reads settings before (c :: rest) (read settings before c rest) := by
  unfold read
  split
  · rename_i hLead
    exact reads_string (by grind [Lead.of]) rest
  · rename_i hLead
    obtain rfl : c = ' ' := by grind [Lead.of]
    exact reads_run fun _ hRun hEnds => .whitespace (by simpa using hRun) hEnds
  · rename_i hLead
    have hDigit : c.isDigit = true := by grind [Lead.of]
    apply reads_run
    intro more after hSplit hRun hEnds
    obtain rfl : rest = more ++ after := List.cons.inj hSplit |>.2
    exact .number hDigit hRun hEnds
  · rename_i hLead
    rw [eq_slash_of_lead hLead]
    exact reads_slash rest
  · rename_i hLead
    exact .name (by grind [Lead.of])
  · rename_i hLead
    exact .single hLead

theorem Reads.rest_eq_nil {text : List Char} {step : Step} (h : Reads settings before text step)
    (hFinding : (∃ length, step.finding = some (.defect .unterminatedString length)) ∨
      step.finding = some .openComment) : step.rest = [] := by
  cases h with
  | unterminated => rfl
  | openComment => rfl
  | _ => rcases hFinding with ⟨_, hFinding⟩ | hFinding <;> cases hFinding

end Step

end CodeListing
