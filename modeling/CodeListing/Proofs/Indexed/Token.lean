import CodeListing.Line
import CodeListing.Proofs.Indexed.Neutral

/-! # Reading one token by index

A token can be read from a cursor on a line instead of from the front of what is left
of the line. The reader then says which character is the last of the token. It always
says so, for any cursor on the line: the token is the part of the line from the cursor
through that character, however a string, a comment or a regular expression breaks off.
-/

namespace CodeListing.Indexed

open Text (SourceLine)

/-- What is read from a cursor on. -/
structure Reading where
  token : Token
  warnings : List Warning := []
  /-- Offset of the block comment that the token opens and the line does not close. -/
  opened : Option Nat := none
  /-- The index of the last character of the token. -/
  last : Nat
  deriving Repr, DecidableEq

def leaf (tokenClass : TokenClass) (line : SourceLine) (start last : Nat) : Checked Token := do
  return .leaf tokenClass (← part line.text start (last + 1))

def readString (line : SourceLine) (start : Nat) : Checked Reading := do
  let quote ← charAt line.text start
  match ← findUnescaped quote line.text (start + 1) with
  | some close => return { token := ← leaf .string line start close, last := close }
  | none =>
    let last ← minus line.text.length 1
    let warning : Warning :=
      ⟨.unterminatedString, ⟨line.offset + start, line.offset + (last + 1)⟩⟩
    return { token := ← leaf .string line start last, warnings := [warning], last := last }

def readRun (tokenClass : TokenClass) (p : Char → Bool) (line : SourceLine) (start : Nat) :
    Checked Reading := do
  let last := runEnd p line.text start
  return { token := ← leaf tokenClass line start last, last := last }

def readNumber (line : SourceLine) (start : Nat) : Checked Reading := do
  let c ← charAt line.text start
  readRun .number (isNumberPart c line.text[start + 1]?.toList) line start

def readComment (line : SourceLine) (start : Nat) : Checked Reading := do
  match ← findCommentEnd line.text (start + 2) with
  | some star => return { token := ← leaf .comment line start (star + 1), last := star + 1 }
  | none =>
    let last ← minus line.text.length 1
    let opened := line.offset + start
    return { token := ← leaf .comment line start last, opened := some opened, last := last }

/-- Reads the regular expression of which the first slash stands at `start`, unless the slash
divides. -/
def readRegex (maxFlags : Nat) (line : SourceLine) (start : Nat) :
    Checked (Option Reading × List Warning) := do
  match ← findUnescaped '/' line.text (start + 1) with
  | none => return (none, [])
  | some close =>
    let body ← part line.text (start + 1) close
    if ← isPatternChecked body then
      let last := cappedRunEnd isRegexFlag line.text maxFlags close
      return (some { token := ← leaf .regex line start last, last := last }, [])
    else
      let defect := Defect.rejectedRegex (String.ofList body)
      return (none, [⟨defect, ⟨line.offset + start, line.offset + (close + 1)⟩⟩])

/-- The last character before `index` that is no space. -/
def inkBefore (text : List Char) (index : Nat) : Checked (Option Char) := do
  return (← part text 0 index).reverse.find? (· ≠ ' ')

/-- Reads what the slash at `start` begins. -/
def readSlash (maxFlags : Nat) (line : SourceLine) (start : Nat) : Checked Reading := do
  match line.text[start + 1]? with
  | some '/' =>
    let last ← minus line.text.length 1
    return { token := ← leaf .comment line start last, last := last }
  | some '*' => readComment line start
  | _ =>
    let (regex, warnings) ←
      if allowsRegex (← inkBefore line.text start) then readRegex maxFlags line start
      else pure (none, [])
    match regex with
    | some reading => return reading
    | none =>
      let token ← leaf .operator line start start
      return { token := token, warnings := warnings, last := start }

/-- Whether a parenthesis follows the character at `last`, with at most one space before it. -/
def opensCallAfter (text : List Char) (last : Nat) : Bool :=
  text[last + 1]? = some '(' || text[last + 1]? = some ' ' && text[last + 2]? = some '('

def classOfNameAt (text : List Char) (owner : Option Word) (name : String) (last : Nat) :
    TokenClass :=
  match owner.filter (·.hasMember name), Vocabulary.find? name with
  | some owner, _ => .keyword owner.category
  | none, some word =>
    if name = "function" && opensCallAfter text last then .keyword .reserved
    else .keyword word.category
  | none, none => .identifier

def readNameAt (maxDepth : Nat) (line : SourceLine) (start : Nat) (owner : Option Word)
    (depth : Nat) : Checked Reading := do
  let last := runEnd isNamePart line.text start
  let chars ← part line.text start (last + 1)
  let name := String.ofList chars
  let tokenClass := classOfNameAt line.text owner name last
  if _h : (line.text[last + 1]? = some '.' ∧ line.text[last + 2]?.any isNameStart) ∧
      depth < maxDepth then
    let _ ← part line.text (last + 1) (last + 2)
    let member ← readNameAt maxDepth line (last + 2) (Vocabulary.find? name) (depth + 1)
    return { member with token := .dotted tokenClass chars member.token }
  else return { token := .leaf tokenClass chars, last := last }
termination_by maxDepth - depth

def readToken (settings : Settings) (line : SourceLine) (start : Nat) : Checked Reading := do
  let single ← part line.text start (start + 1)
  let c ← charAt line.text start
  match Lead.of c with
  | .quote => readString line start
  | .space => readRun .whitespace (· = ' ') line start
  | .digit => readNumber line start
  | .slash => readSlash settings.maxRegexFlags line start
  | .name => readNameAt settings.maxMemberDepth line start none 0
  | .single tokenClass => return { token := .leaf tokenClass single, last := start }

/-- The reading of a token that was read from the front of the line from `start` on. -/
def Reading.ofStep (line : SourceLine) (start : Nat) (step : Step) : Reading where
  token := step.token
  warnings :=
    match step.finding with
    | some (.defect defect length) => [⟨defect, .ofLength (line.offset + start) length⟩]
    | _ => []
  opened := if step.finding = some .openComment then some (line.offset + start) else none
  last := start + step.token.text.length - 1

/-- A reading is found whose token is the part of the line from `start` through its last
character, which is on the line. -/
def Stays (line : SourceLine) (start : Nat) (result : Checked Reading) : Prop :=
  ∃ reading, result = .ok reading ∧ start ≤ reading.last ∧ reading.last < line.text.length ∧
    part line.text start (reading.last + 1) = .ok reading.token.text

section

variable {line : SourceLine} {start : Nat} {c : Char} {rest taken after : List Char}

theorem length_of_drop (h : line.text.drop start = c :: rest) :
    line.text.length = start + rest.length + 1 := by
  have hStart := lt_length_of_drop h
  have hLength := congrArg List.length h
  rw [List.length_drop, List.length_cons] at hLength
  omega

theorem leaf_of_drop (taken after : List Char) (h : line.text.drop start = c :: taken ++ after)
    {last : Nat} (hLast : last = start + taken.length) (tokenClass : TokenClass) :
    leaf tokenClass line start last = .ok (.leaf tokenClass (c :: taken)) := by
  have hPart := part_of_drop h (Nat.le_of_lt (lt_length_of_drop h))
  rw [List.length_cons, ← Nat.add_assoc, ← hLast] at hPart
  rw [leaf, hPart]
  rfl

theorem leaf_to_end (h : line.text.drop start = c :: rest) (tokenClass : TokenClass) :
    leaf tokenClass line start (line.text.length - 1) = .ok (.leaf tokenClass (c :: rest)) := by
  have hLength := length_of_drop h
  exact leaf_of_drop rest [] (by simpa using h) (by omega) tokenClass

theorem stays_of_drop {reading : Reading} (h : line.text.drop start = reading.token.text ++ after)
    (hText : reading.token.text.head? = some c)
    (hLast : reading.last + 1 = start + reading.token.text.length) :
    Stays line start (.ok reading) := by
  obtain ⟨more, hMore⟩ := List.head?_eq_some_iff.1 hText
  have hStart : start ≤ line.text.length := by
    rw [hMore] at h
    exact Nat.le_of_lt (lt_length_of_drop h)
  have hStop := add_le_length_of_drop h hStart
  have hPos : 0 < reading.token.text.length := by rw [hMore]; exact Nat.succ_pos _
  refine ⟨reading, rfl, by omega, by omega, ?_⟩
  rw [hLast]
  exact part_of_drop h hStart

theorem stays_leaf (taken after : List Char) (h : line.text.drop start = c :: taken ++ after)
    {last : Nat} (hLast : last = start + taken.length) (tokenClass : TokenClass)
    (warnings : List Warning) (opened : Option Nat) :
    Stays line start (.ok ⟨.leaf tokenClass (c :: taken), warnings, opened, last⟩) := by
  refine stays_of_drop h rfl ?_
  simp only [hLast, Token.text, List.length_cons]
  omega

theorem stays_ofStep {step : Step} (h : step.source = line.text.drop start)
    (hText : step.token.text.head? = some c) :
    Stays line start (.ok (.ofStep line start step)) := by
  refine stays_of_drop h.symm hText ?_
  obtain ⟨more, hMore⟩ := List.head?_eq_some_iff.1 hText
  simp only [Reading.ofStep, hMore, List.length_cons]
  omega

theorem ofStep_leaf (tokenClass : TokenClass) (c : Char) (taken after : List Char) :
    Reading.ofStep line start { token := .leaf tokenClass (c :: taken), rest := after } =
      ⟨.leaf tokenClass (c :: taken), [], none, start + taken.length⟩ := by
  simp [Reading.ofStep, Token.text, ← Nat.add_assoc]

theorem readString_of_drop (h : line.text.drop start = c :: rest) :
    readString line start = .ok (.ofStep line start (Step.string c rest)) := by
  have hNext := drop_succ_of_drop h
  have hLength := length_of_drop h
  rw [readString, charAt_of_drop h, ok_bind, findUnescaped_of_drop hNext, ok_bind]
  unfold Step.string
  cases hSplit : splitUnescaped c rest with
  | none =>
      simp only [Option.map_none, minus_of_le (show 1 ≤ line.text.length by omega), ok_bind,
        leaf_to_end h, pure_eq_ok]
      simp [Reading.ofStep, Token.text, Text.Span.ofLength]
      omega
  | some parts =>
      obtain ⟨body, after⟩ := parts
      have hRest := eq_of_splitUnescaped hSplit
      have hLeaf : leaf .string line start (start + 1 + body.length) =
          .ok (.leaf .string (c :: (body ++ [c]))) :=
        leaf_of_drop _ after (by simp [h, hRest]) (by simp; omega) _
      simp only [Option.map_some, hLeaf, ok_bind, pure_eq_ok]
      simp [Reading.ofStep, Token.text]
      omega

theorem readRun_of_drop (h : line.text.drop start = c :: rest) (tokenClass : TokenClass)
    (p : Char → Bool) :
    readRun tokenClass p line start = .ok (.ofStep line start (Step.run tokenClass p c rest)) := by
  have hLast := runEnd_of_drop (drop_succ_of_drop h) p
  have hLeaf : leaf tokenClass line start (runEnd p line.text start) =
      .ok (.leaf tokenClass (c :: rest.takeWhile p)) :=
    leaf_of_drop _ (rest.dropWhile p) (by simp [h]) hLast _
  rw [readRun, hLeaf, hLast, Step.run, ofStep_leaf]
  rfl

theorem readNumber_of_drop (h : line.text.drop start = c :: rest) :
    readNumber line start =
      .ok (.ofStep line start (Step.run .number (isNumberPart c rest) c rest)) := by
  have hPart : isNumberPart c rest.head?.toList = isNumberPart c rest := by
    funext d
    cases rest <;> rfl
  rw [readNumber, charAt_of_drop h, ok_bind, getElem?_of_drop (drop_succ_of_drop h), hPart]
  exact readRun_of_drop h _ _

theorem length_take_comment {comment : List Char}
    (h : splitCommentEnd rest.tail = some (comment, after)) :
    (rest.take (comment.length + 1)).length = comment.length + 1 := by
  have hTwo := two_le_length_of_splitCommentEnd h
  have hTail := congrArg List.length (eq_of_splitCommentEnd h)
  rw [List.length_tail, List.length_append] at hTail
  rw [List.length_take]
  omega

theorem length_take_flags (maxFlags : Nat) (after : List Char) :
    (after.take (min maxFlags (after.takeWhile isRegexFlag).length)).length =
      min maxFlags (after.takeWhile isRegexFlag).length := by
  have hRun := (List.takeWhile_prefix isRegexFlag (l := after)).length_le
  rw [List.length_take]
  omega

/-- A block comment is read wherever it is looked for. Its end does not overlap its beginning. -/
theorem readComment_of_drop (h : line.text.drop start = c :: rest) :
    readComment line start = .ok (
      match splitCommentEnd rest.tail with
      | none => ⟨.leaf .comment (c :: rest), [], some (line.offset + start), line.text.length - 1⟩
      | some (comment, _) =>
        ⟨.leaf .comment (c :: rest.take (comment.length + 1)), [], none,
          start + comment.length + 1⟩) := by
  have hLength := length_of_drop h
  have hNext : line.text.drop (start + 2) = rest.tail := by
    rw [← List.drop_drop, h]
    cases rest <;> rfl
  rw [readComment, findCommentEnd_of_drop hNext, ok_bind]
  cases hSplit : splitCommentEnd rest.tail with
  | none =>
      simp only [Option.map_none, minus_of_le (show 1 ≤ line.text.length by omega), ok_bind,
        leaf_to_end h, pure_eq_ok]
  | some parts =>
      obtain ⟨comment, after⟩ := parts
      have hTwo := two_le_length_of_splitCommentEnd hSplit
      have hTaken := length_take_comment hSplit
      have hLeaf : leaf .comment line start (start + comment.length + 1) =
          .ok (.leaf .comment (c :: rest.take (comment.length + 1))) :=
        leaf_of_drop _ (rest.drop (comment.length + 1)) (by simp [h]) (by omega) _
      have hStar : start + 2 + comment.length - 2 = start + comment.length := by omega
      simp only [Option.map_some, hStar, hLeaf, ok_bind, pure_eq_ok]

theorem readRegex_of_drop (h : line.text.drop start = c :: rest) (maxFlags : Nat) :
    readRegex maxFlags line start = .ok (
      match splitUnescaped '/' rest with
      | none => (none, [])
      | some (body, after) =>
        let flags := min maxFlags (after.takeWhile isRegexFlag).length
        if Pattern.isPattern body then
          (some ⟨.leaf .regex (c :: body ++ '/' :: after.take flags), [], none,
            start + 1 + body.length + flags⟩, [])
        else
          (none, [⟨.rejectedRegex (String.ofList body),
            .ofLength (line.offset + start) (body.length + 2)⟩])) := by
  have hNext := drop_succ_of_drop h
  have hInside := lt_length_of_drop h
  rw [readRegex, findUnescaped_of_drop hNext, ok_bind]
  cases hSplit : splitUnescaped '/' rest with
  | none => rfl
  | some parts =>
      obtain ⟨body, after⟩ := parts
      have hRest := eq_of_splitUnescaped hSplit
      have hBody : part line.text (start + 1) (start + 1 + body.length) = .ok body :=
        part_of_drop (hNext.trans hRest) hInside
      have hAfter : line.text.drop (start + 1 + body.length + 1) = after :=
        drop_succ_of_drop (drop_add_of_drop (hNext.trans hRest))
      simp only [Option.map_some, hBody, ok_bind, isPatternChecked_eq]
      split
      · have hFlags := cappedRunEnd_of_drop hAfter isRegexFlag maxFlags
        have hTake := length_take_flags maxFlags after
        generalize min maxFlags (after.takeWhile isRegexFlag).length = flags at hFlags hTake ⊢
        have hLeaf : leaf .regex line start (start + 1 + body.length + flags) =
            .ok (.leaf .regex (c :: (body ++ '/' :: after.take flags))) :=
          leaf_of_drop _ (after.drop flags) (by simp [h, hRest]) (by simp [hTake]; omega) _
        simp only [hFlags, hLeaf, ok_bind, pure_eq_ok, List.cons_append]
      · have hStop : line.offset + (start + 1 + body.length + 1) =
            line.offset + start + (body.length + 2) := by omega
        simp only [pure_eq_ok, Text.Span.ofLength, hStop]

theorem inkBefore_eq (h : start ≤ line.text.length) :
    inkBefore line.text start = .ok (lastInk none (line.text.take start)) := by
  simp [inkBefore, part_of_le (Nat.zero_le start) h, lastInk]

theorem readSlash_of_regex (h : line.text.drop start = c :: rest) (hSlash : rest.head? ≠ some '/')
    (hStar : rest.head? ≠ some '*') (maxFlags : Nat) :
    readSlash maxFlags line start = (do
      let (regex, warnings) ←
        if allowsRegex (lastInk none (line.text.take start)) then readRegex maxFlags line start
        else pure (none, [])
      match regex with
      | some reading => return reading
      | none => return ⟨.leaf .operator [c], warnings, none, start⟩) := by
  have hLeaf : leaf .operator line start start = .ok (.leaf .operator [c]) :=
    leaf_of_drop [] rest h rfl _
  rw [readSlash, getElem?_of_drop (drop_succ_of_drop h),
    inkBefore_eq (Nat.le_of_lt (lt_length_of_drop h)), ok_bind, hLeaf]
  split
  · exact absurd ‹_› hSlash
  · exact absurd ‹_› hStar
  · rfl

theorem readSlash_of_drop (h : line.text.drop start = '/' :: rest) (maxFlags : Nat) :
    readSlash maxFlags line start = .ok (.ofStep line start
      (Step.slash maxFlags (lastInk none (line.text.take start)) rest)) := by
  have hLength := length_of_drop h
  unfold Step.slash
  split
  · rw [readSlash, getElem?_of_drop (drop_succ_of_drop h), List.head?_cons]
    simp only [minus_of_le (show 1 ≤ line.text.length by omega), ok_bind, leaf_to_end h, pure_eq_ok]
    simp [Reading.ofStep, Token.text, hLength, Nat.add_assoc]
  · rename_i more
    rw [readSlash, getElem?_of_drop (drop_succ_of_drop h), List.head?_cons]
    simp only [readComment_of_drop h, Step.blockComment, List.tail_cons]
    cases hSplit : splitCommentEnd more with
    | none => simp [Reading.ofStep, Token.text, hLength, Nat.add_assoc]
    | some parts =>
        obtain ⟨comment, after⟩ := parts
        simp [Reading.ofStep, Token.text, eq_of_splitCommentEnd hSplit]
        omega
  · rename_i hSlash hStar
    have hNoSlash : rest.head? ≠ some '/' := fun hHead =>
      hSlash _ (List.head?_eq_some_iff.1 hHead).choose_spec
    have hNoStar : rest.head? ≠ some '*' := fun hHead =>
      hStar _ (List.head?_eq_some_iff.1 hHead).choose_spec
    rw [readSlash_of_regex h hNoSlash hNoStar, readRegex_of_drop h]
    split
    · unfold Step.regex
      cases hSplit : splitUnescaped '/' rest with
      | none => rfl
      | some parts =>
          obtain ⟨body, after⟩ := parts
          cases hPattern : Pattern.isPattern body with
          | false => simp [hPattern, Reading.ofStep, Step.division, Token.text]
          | true =>
              have hRun := (List.takeWhile_prefix isRegexFlag (l := after)).length_le
              simp [hPattern, Reading.ofStep, Token.text]
              omega
    · rfl

/-- The reading of a comment, an expression or a division stays on the line, whatever character
is taken for its slash. -/
theorem stays_readComment (h : line.text.drop start = c :: rest) :
    Stays line start (readComment line start) := by
  have hLength := length_of_drop h
  rw [readComment_of_drop h]
  split
  · exact stays_leaf _ [] (by simpa using h) (by omega) _ _ _
  · rename_i comment after hSplit
    have hTaken := length_take_comment hSplit
    exact stays_leaf _ (rest.drop (comment.length + 1)) (by simp [h]) (by omega) _ _ _

theorem stays_readRegex (h : line.text.drop start = c :: rest) (maxFlags : Nat) :
    ∃ regex warnings, readRegex maxFlags line start = .ok (regex, warnings) ∧
      ∀ reading ∈ regex, Stays line start (.ok reading) := by
  rw [readRegex_of_drop h]
  split
  · exact ⟨none, [], rfl, nofun⟩
  · rename_i body after hSplit
    dsimp only
    split
    · refine ⟨_, _, rfl, ?_⟩
      rintro _ ⟨⟩
      have hTake := length_take_flags maxFlags after
      generalize min maxFlags (after.takeWhile isRegexFlag).length = flags at hTake ⊢
      refine stays_leaf (body ++ '/' :: after.take flags) (after.drop flags)
        ?_ ?_ _ _ _
      · simp [h, eq_of_splitUnescaped hSplit]
      · simp [hTake]
        omega
    · exact ⟨none, _, rfl, nofun⟩

theorem stays_readSlash (h : line.text.drop start = c :: rest) (maxFlags : Nat) :
    Stays line start (readSlash maxFlags line start) := by
  have hLength := length_of_drop h
  by_cases hSlash : rest.head? = some '/'
  · rw [readSlash, getElem?_of_drop (drop_succ_of_drop h), hSlash]
    simp only [minus_of_le (show 1 ≤ line.text.length by omega), ok_bind, leaf_to_end h, pure_eq_ok]
    exact stays_leaf _ [] (by simpa using h) (by omega) _ _ _
  by_cases hStar : rest.head? = some '*'
  · rw [readSlash, getElem?_of_drop (drop_succ_of_drop h), hStar]
    exact stays_readComment h
  have hDivision (warnings : List Warning) :
      Stays line start (.ok ⟨.leaf .operator [c], warnings, none, start⟩) :=
    stays_leaf [] rest h rfl _ _ _
  rw [readSlash_of_regex h hSlash hStar]
  split
  · obtain ⟨regex, warnings, hRegex, hStays⟩ := stays_readRegex h maxFlags
    rw [hRegex, ok_bind]
    cases regex with
    | none => exact hDivision warnings
    | some reading => exact hStays reading rfl
  · exact hDivision []

theorem opensCallAfter_of_drop {last : Nat} (h : line.text.drop (last + 1) = rest) :
    opensCallAfter line.text last = opensCall rest := by
  unfold opensCallAfter
  rw [getElem?_of_drop h]
  cases rest with
  | nil => rfl
  | cons c rest =>
      rw [getElem?_of_drop (drop_succ_of_drop h)]
      by_cases hParen : c = '('
      · simp [hParen, opensCall]
      · by_cases hSpace : c = ' '
        · cases rest with
          | nil => simp [hSpace, opensCall]
          | cons d rest => by_cases hd : d = '(' <;> simp [hSpace, hd, opensCall]
        · simp [hParen, hSpace, opensCall]

theorem classOfNameAt_of_drop {last : Nat} (h : line.text.drop (last + 1) = rest)
    (owner : Option Word) (name : String) :
    classOfNameAt line.text owner name last = classOfName owner name rest := by
  rw [classOfNameAt, opensCallAfter_of_drop h]
  rfl

theorem name_of_drop (h : line.text.drop start = c :: rest) :
    ∃ last, runEnd isNamePart line.text start = last ∧
      last = start + (rest.takeWhile isNamePart).length ∧
      part line.text start (last + 1) = .ok (c :: rest.takeWhile isNamePart) ∧
      line.text.drop (last + 1) = rest.dropWhile isNamePart := by
  have hTaken : line.text.drop start =
      c :: rest.takeWhile isNamePart ++ rest.dropWhile isNamePart := by simp [h]
  have hLast : start + (c :: rest.takeWhile isNamePart).length =
      start + (rest.takeWhile isNamePart).length + 1 := by rw [List.length_cons, Nat.add_assoc]
  have hPart := part_of_drop hTaken (Nat.le_of_lt (lt_length_of_drop h))
  have hAfter := drop_add_of_drop hTaken
  rw [hLast] at hPart hAfter
  exact ⟨_, runEnd_of_drop (drop_succ_of_drop h) _, rfl, hPart, hAfter⟩

theorem readNameAt_leaf (h : line.text.drop start = c :: rest) {maxDepth depth : Nat}
    (hStop : depth < maxDepth →
      ∀ d more, rest.dropWhile isNamePart = '.' :: d :: more → isNameStart d = false)
    (owner : Option Word) :
    readNameAt maxDepth line start owner depth =
      .ok (.ofStep line start
        { token := .leaf (classOfName owner (String.ofList (c :: rest.takeWhile isNamePart))
            (rest.dropWhile isNamePart)) (c :: rest.takeWhile isNamePart)
          rest := rest.dropWhile isNamePart }) := by
  obtain ⟨last, hRun, hLast, hChars, hAfter⟩ := name_of_drop h
  rw [readNameAt, hRun, hChars, ok_bind]
  dsimp only
  rw [classOfNameAt_of_drop hAfter, dif_neg]
  · rw [hLast, ofStep_leaf]
    rfl
  · rintro ⟨⟨hPeriod, hStart⟩, hRoom⟩
    rw [getElem?_of_drop hAfter] at hPeriod
    obtain ⟨more, hMore⟩ := List.head?_eq_some_iff.1 hPeriod
    rw [hMore] at hAfter
    rw [getElem?_of_drop (drop_succ_of_drop hAfter)] at hStart
    cases more with
    | nil => cases hStart
    | cons d more => cases (hStop hRoom d more hMore).symm.trans hStart

theorem readNameAt_dotted (h : line.text.drop start = c :: rest) {maxDepth depth : Nat}
    (hRoom : depth < maxDepth) {d : Char} {more : List Char}
    (hMore : rest.dropWhile isNamePart = '.' :: d :: more) (hStart : isNameStart d = true)
    (owner : Option Word) :
    readNameAt maxDepth line start owner depth = (do
      let member ← readNameAt maxDepth line (start + (rest.takeWhile isNamePart).length + 2)
        (Vocabulary.find? (String.ofList (c :: rest.takeWhile isNamePart))) (depth + 1)
      return { member with
        token := .dotted (classOfName owner (String.ofList (c :: rest.takeWhile isNamePart))
          (rest.dropWhile isNamePart)) (c :: rest.takeWhile isNamePart) member.token }) := by
  obtain ⟨last, hRun, hLast, hChars, hAfter⟩ := name_of_drop h
  have hClass := classOfNameAt_of_drop hAfter owner
  rw [hMore] at hAfter
  have hNext := drop_succ_of_drop hAfter
  have hPeriod : part line.text (last + 1) (last + 2) = .ok ['.'] :=
    part_of_drop (show _ = ['.'] ++ _ from hAfter) (Nat.le_of_lt (lt_length_of_drop hAfter))
  rw [readNameAt, hRun, hChars, ok_bind]
  dsimp only
  rw [hClass, dif_pos, hPeriod, ok_bind, hLast]
  refine ⟨⟨?_, ?_⟩, hRoom⟩
  · rw [getElem?_of_drop hAfter, List.head?_cons]
  · rw [getElem?_of_drop hNext, List.head?_cons]
    exact hStart

theorem readNameAt_of_drop (h : line.text.drop start = c :: rest) (maxDepth : Nat)
    (owner : Option Word) (depth : Nat) :
    readNameAt maxDepth line start owner depth =
      .ok (.ofStep line start
        { token := (readName (maxDepth - depth) owner c rest).1
          rest := (readName (maxDepth - depth) owner c rest).2 }) := by
  -- the names that may still be nested are as many as the reader from the front is given
  induction hRoom : maxDepth - depth generalizing start owner depth c rest with
  | zero =>
      rw [readNameAt_leaf h fun hDepth => by omega]
      rfl
  | succ room ih =>
      unfold readName
      dsimp only
      split
      · rename_i d more hDepth hMore
        cases hDepth
        split
        · rename_i hStart
          obtain ⟨last, -, hLast, -, hAfter⟩ := name_of_drop h
          rw [hMore] at hAfter
          have hMember : line.text.drop (start + (rest.takeWhile isNamePart).length + 2) =
              d :: more := hLast ▸ drop_succ_of_drop hAfter
          rw [readNameAt_dotted h (by omega) hMore hStart, ih hMember _ _ (by omega), ok_bind]
          simp [Reading.ofStep, Token.text, hMore]
          omega
        · rename_i hStart
          rw [readNameAt_leaf h]
          rintro - e rest hRest
          rw [hMore] at hRest
          cases hRest
          exact Bool.eq_false_iff.2 hStart
      · rename_i hNone
        rw [readNameAt_leaf h]
        rintro - d more hMore
        cases hNone room d more rfl hMore

theorem readToken_of_drop (h : line.text.drop start = c :: rest) (settings : Settings) :
    readToken settings line start = .ok (.ofStep line start
      (Step.read settings (lastInk none (line.text.take start)) c rest)) := by
  have hSingle : part line.text start (start + 1) = .ok [c] :=
    part_of_drop (show _ = [c] ++ _ from h) (Nat.le_of_lt (lt_length_of_drop h))
  rw [readToken, hSingle, ok_bind, charAt_of_drop h, ok_bind]
  unfold Step.read
  cases hLead : Lead.of c with
  | quote => exact readString_of_drop h
  | space => exact readRun_of_drop h _ _
  | digit => exact readNumber_of_drop h
  | slash =>
      obtain rfl := Step.eq_slash_of_lead hLead
      exact readSlash_of_drop h settings.maxRegexFlags
  | name => exact readNameAt_of_drop h settings.maxMemberDepth none 0
  | single tokenClass => simp [Reading.ofStep, Token.text]

theorem stays_readString (h : line.text.drop start = c :: rest) :
    Stays line start (readString line start) := by
  have hHead : (Step.string c rest).token.text.head? = some c := by
    unfold Step.string
    split <;> rfl
  rw [readString_of_drop h]
  exact stays_ofStep ((Step.source_string c rest).trans h.symm) hHead

theorem stays_readRun (h : line.text.drop start = c :: rest) (tokenClass : TokenClass)
    (p : Char → Bool) : Stays line start (readRun tokenClass p line start) := by
  rw [readRun_of_drop h]
  exact stays_ofStep ((Step.source_run tokenClass p c rest).trans h.symm) rfl

theorem stays_readNumber (h : line.text.drop start = c :: rest) :
    Stays line start (readNumber line start) := by
  rw [readNumber_of_drop h]
  exact stays_ofStep ((Step.source_run _ _ c rest).trans h.symm) rfl

theorem stays_readNameAt (h : line.text.drop start = c :: rest) (maxDepth : Nat)
    (owner : Option Word) (depth : Nat) :
    Stays line start (readNameAt maxDepth line start owner depth) := by
  rw [readNameAt_of_drop h]
  exact stays_ofStep ((text_readName _ owner c rest).trans h.symm) (head?_text_readName ..)

theorem stays_readToken (h : line.text.drop start = c :: rest) (settings : Settings) :
    Stays line start (readToken settings line start) := by
  rw [readToken_of_drop h]
  exact stays_ofStep ((Step.source_read settings _ c rest).trans h.symm) (Step.head?_text_read ..)

end

end CodeListing.Indexed
