import CodeListing.Proofs.Indexed.Access
import CodeListing.Proofs.Regex.Balance

/-! # The neutral form by index

The neutral form can also be written while a cursor moves over the pattern. Each
construct moves the cursor, an escape sometimes by all that is left and sometimes not
past the character after its backslash. Every construct is the piece that is read from
the front of the rest, so the cursor always advances and never leaves the pattern.
-/

namespace CodeListing.Indexed

open Pattern
open Text (isHexDigit)

/-- A construct as it was written, and the cursor after it. -/
structure Rewritten where
  text : List Char
  /-- Whether the pattern stands inside a class after the construct. -/
  inClass : Bool
  /-- Whether the construct is a set escape inside a class. -/
  afterSet : Bool
  next : Nat
  deriving Repr, DecidableEq

/-- How an escape is written of which `rest` follows the backslash, and how many characters
of `rest` it takes. -/
def rewriteEscape (inClass : Bool) (rest : List Char) : Checked (List Char × Nat) := do
  let c ← charAt rest 0
  let more ← part rest 1 rest.length
  if c.isDigit then
    if inClass then return ("\\x00".toList, 1)
    else return ("(?:)".toList, 1 + (more.takeWhile Char.isDigit).length)
  else if c = 'k' && !inClass && rest[1]? = some '<' then
    match rest.findIdx? (· = '>') with
    | some close => return ("(?:)".toList, close + 1)
    | none => return ("(?:)".toList, rest.length)
  else if c = 'c' then
    match rest[1]? with
    | some letter =>
      if letter.isAlpha then return (controlEscape letter, 2) else return ("\\\\".toList, 0)
    | none => return ("\\\\".toList, 0)
  else if c = 'b' && inClass then return ("\\x08".toList, 1)
  else if c = 'x' && 2 ≤ (more.takeWhile isHexDigit).length then
    return ('\\' :: (← part rest 0 3), 3)
  else if c = 'u' && 4 ≤ (more.takeWhile isHexDigit).length then
    return ('\\' :: (← part rest 0 5), 5)
  else if isSetLetter c || (control? c).isSome then return (['\\', c], 1)
  else if (c = 'b' || c = 'B') && !inClass then return (['\\', c], 1)
  else if isMeta c then return (['\\', c], 1)
  else return ([c], 1)

/-- The length of the quantifier at the front of a text that begins with a brace. -/
def quantifierLength (text : List Char) : Checked (Option Nat) := do
  let least := ((← part text 1 text.length).takeWhile Char.isDigit).length
  if least = 0 then return none
  else
    let stop ←
      if text[1 + least]? = some ',' then do
        let most ← part text (1 + least + 1) text.length
        pure (1 + least + 1 + (most.takeWhile Char.isDigit).length)
      else pure (1 + least)
    if text[stop]? = some '}' then return some (stop + 1) else return none

def rewriteEscapeAt (body : List Char) (inClass : Bool) (i : Nat) : Checked Rewritten := do
  if i + 1 = body.length then return ⟨['\\'], inClass, false, i + 1⟩
  else
    let c ← charAt body (i + 1)
    let (text, count) ← rewriteEscape inClass (← part body (i + 1) body.length)
    return ⟨text, inClass, inClass && isSetLetter c, i + 1 + count⟩

/-- How the character `c` at `i`, which is no backslash, is written inside a class. -/
def rewriteInside (body : List Char) (afterSet : Bool) (c : Char) (i : Nat) : Rewritten :=
  let beforeSet := body[i + 1]? = some '\\' && body[i + 2]?.any isSetLetter
  if c = '[' || c = '&' || c = '~' then ⟨['\\', c], true, false, i + 1⟩
  else if c = ']' then ⟨[c], false, false, i + 1⟩
  else if c = '-' && (afterSet || beforeSet) then ⟨['\\', c], true, false, i + 1⟩
  else ⟨[c], true, false, i + 1⟩

def rewriteBracket (body : List Char) (i : Nat) : Rewritten :=
  if body[i + 1]? = some '^' && body[i + 2]? = some ']' then
    ⟨"[\\s\\S]".toList, false, false, i + 3⟩
  else if body[i + 1]? = some ']' then ⟨"[^\\s\\S]".toList, false, false, i + 2⟩
  else ⟨['['], true, false, i + 1⟩

def rewriteBrace (body : List Char) (i : Nat) : Checked Rewritten := do
  match ← quantifierLength (← part body i body.length) with
  | some length => return ⟨← part body i (i + length), false, false, i + length⟩
  | none => return ⟨['\\', '{'], false, false, i + 1⟩

/-- The length of the opening of a lookaround group with its parenthesis at `i`. -/
def lookaroundLength (body : List Char) (i : Nat) : Option Nat :=
  if body[i + 1]? = some '?' then
    if body[i + 2]? = some '=' ∨ body[i + 2]? = some '!' then some 3
    else if body[i + 2]? = some '<' ∧ (body[i + 3]? = some '=' ∨ body[i + 3]? = some '!') then
      some 4
    else none
  else none

def rewriteParenthesis (body : List Char) (i : Nat) : Rewritten :=
  match lookaroundLength body i with
  | some length => ⟨"(?:".toList, false, false, i + length⟩
  | none => ⟨['('], false, false, i + 1⟩

def rewriteAt (body : List Char) (inClass afterSet : Bool) (i : Nat) : Checked Rewritten := do
  let c ← charAt body i
  if c = '\\' then rewriteEscapeAt body inClass i
  else if inClass then return rewriteInside body afterSet c i
  else if c = '[' then return rewriteBracket body i
  else if c = '{' then rewriteBrace body i
  else if c = '(' then return rewriteParenthesis body i
  else if c = '}' || c = ']' then return ⟨['\\', c], false, false, i + 1⟩
  else return ⟨[c], false, false, i + 1⟩

def rewriteFrom (body : List Char) (inClass afterSet : Bool) (i : Nat) : Checked (List Char) :=
  if _h : i < body.length then
    match rewriteAt body inClass afterSet i with
    | .error fault => .error fault
    | .ok written =>
      if _h : i < written.next ∧ written.next ≤ body.length then do
        let later ← rewriteFrom body written.inClass written.afterSet written.next
        return written.text ++ later
      else .error (.astray written.next)
  else return []
termination_by body.length - i

def rewrite (body : List Char) : Checked (List Char) :=
  rewriteFrom body false false 0

def isPatternChecked (text : List Char) : Checked Bool := do
  if text.isEmpty then return false
  else return isWellFormed (← rewrite text)

/-- The construct at `i` is written as the piece, and the cursor goes on to what follows the
piece, which is further right and still in the pattern. -/
def Follows (body : List Char) (i : Nat) (piece : Piece) (written : Rewritten) : Prop :=
  written.text = piece.text ∧ written.inClass = piece.inClass ∧
    written.afterSet = piece.afterSet ∧ i < written.next ∧ written.next ≤ body.length ∧
    body.drop written.next = piece.rest

section

variable {body rest : List Char} {i : Nat} {c : Char}

theorem follows_taken (taken : List Char) (h : body.drop i = taken ++ rest)
    (hTaken : 0 < taken.length) (text : List Char) (inClass afterSet : Bool) :
    Follows body i ⟨text, inClass, afterSet, rest⟩
      ⟨text, inClass, afterSet, i + taken.length⟩ := by
  have hStart : i ≤ body.length := by
    refine Nat.le_of_lt (Nat.lt_of_not_le fun hOutside => ?_)
    rw [List.drop_eq_nil_of_le hOutside, eq_comm, List.append_eq_nil_iff] at h
    simp [h.1] at hTaken
  exact ⟨rfl, rfl, rfl, Nat.lt_add_of_pos_right hTaken, add_le_length_of_drop h hStart,
    drop_add_of_drop h⟩

theorem follows_single (h : body.drop i = c :: rest) (text : List Char) (inClass afterSet : Bool) :
    Follows body i ⟨text, inClass, afterSet, rest⟩ ⟨text, inClass, afterSet, i + 1⟩ :=
  follows_taken [c] h Nat.one_pos text inClass afterSet

theorem follows_inside (h : body.drop i = c :: rest) (afterSet : Bool) :
    Follows body i (Piece.inside afterSet c rest) (rewriteInside body afterSet c i) := by
  have hSet : (decide (body[i + 1]? = some '\\') && body[i + 2]?.any isSetLetter) =
      startsWithSet rest := by
    rw [getElem?_add_of_drop h 0, getElem?_add_of_drop h 1]
    rcases rest with _ | ⟨d, _ | ⟨e, rest⟩⟩
    · rfl
    · by_cases hd : d = '\\' <;> simp [startsWithSet, hd]
    · by_cases hd : d = '\\' <;> simp [startsWithSet, hd]
  unfold rewriteInside Piece.inside
  simp only [hSet]
  repeat' split
  all_goals exact follows_single h _ _ _

theorem follows_bracket (h : body.drop i = '[' :: rest) :
    Follows body i (Piece.bracket rest) (rewriteBracket body i) := by
  unfold rewriteBracket
  rw [getElem?_add_of_drop h 0, getElem?_add_of_drop h 1]
  unfold Piece.bracket
  split
  · exact follows_taken ['[', '^', ']'] h (by decide) _ _ _
  · exact follows_taken ['[', ']'] h (by decide) _ _ _
  · rename_i hEvery hNone
    have hNone : rest[0]? ≠ some ']' := fun hClose => hNone _ (eq_cons_of_getElem? hClose)
    have hEvery : ¬ (rest[0]? = some '^' ∧ rest[1]? = some ']') := by
      rintro ⟨hNot, hClose⟩
      rw [eq_cons_of_getElem? hNot] at hClose hEvery
      rw [List.getElem?_cons_succ] at hClose
      exact hEvery _ (congrArg _ (eq_cons_of_getElem? hClose))
    simp only [Bool.and_eq_true, decide_eq_true_eq, if_neg hEvery, if_neg hNone]
    exact follows_single h _ _ _

theorem lookaroundLength_of_drop (h : body.drop i = '(' :: rest) :
    match splitLookaround? rest with
    | none => lookaroundLength body i = none
    | some after => ∃ taken, '(' :: rest = '(' :: taken ++ after ∧
        lookaroundLength body i = some (taken.length + 1) := by
  unfold lookaroundLength
  rw [getElem?_add_of_drop h 0, getElem?_add_of_drop h 1, getElem?_add_of_drop h 2]
  split
  · rename_i hSplit
    rcases rest with _ | ⟨d, _ | ⟨e, _ | ⟨f, rest⟩⟩⟩
    · rfl
    · simp
    · grind [splitLookaround?]
    · grind [splitLookaround?]
  · rename_i after hSplit
    unfold splitLookaround? at hSplit
    split at hSplit
    · cases hSplit
      exact ⟨['?', '='], rfl, rfl⟩
    · cases hSplit
      exact ⟨['?', '!'], rfl, rfl⟩
    · cases hSplit
      exact ⟨['?', '<', '='], rfl, rfl⟩
    · cases hSplit
      exact ⟨['?', '<', '!'], rfl, rfl⟩
    · cases hSplit

theorem follows_parenthesis (h : body.drop i = '(' :: rest) :
    Follows body i (Piece.parenthesis rest) (rewriteParenthesis body i) := by
  have hLength := lookaroundLength_of_drop h
  unfold Piece.parenthesis rewriteParenthesis
  cases hSplit : splitLookaround? rest with
  | none =>
      rw [hSplit] at hLength
      rw [hLength]
      exact follows_single h _ _ _
  | some after =>
      rw [hSplit] at hLength
      obtain ⟨taken, hTaken, hLength⟩ := hLength
      rw [hLength]
      exact follows_taken _ (h.trans hTaken) (Nat.succ_pos _) _ _ _

end

theorem drop_digits {text rest : List Char} {i : Nat} (h : text.drop i = rest) :
    text.drop (i + (rest.takeWhile Char.isDigit).length) = rest.dropWhile Char.isDigit :=
  drop_add_of_drop (h.trans List.takeWhile_append_dropWhile.symm)

theorem quantifierLength_cons (c : Char) (rest : List Char) :
    quantifierLength (c :: rest) =
      .ok ((splitQuantifier? rest).map fun parts => parts.1.length + 1) := by
  have hRest : (c :: rest).drop 1 = rest := rfl
  have hLeast := drop_digits hRest
  rw [quantifierLength, part_to_end hRest (by simp), ok_bind]
  simp only [splitQuantifier?, List.isEmpty_iff, ← List.length_eq_zero_iff]
  split
  · rfl
  · cases hDrop : rest.dropWhile Char.isDigit with
    | nil =>
        rw [hDrop] at hLeast
        simp [getElem?_of_drop hLeast]
    | cons d more =>
        rw [hDrop] at hLeast
        by_cases hComma : d = ','
        · subst hComma
          have hMore := drop_succ_of_drop hLeast
          have hMost := drop_digits hMore
          simp only [getElem?_of_drop hLeast, List.head?_cons, if_true, ok_bind, pure_eq_ok,
            part_to_end hMore (lt_length_of_drop hLeast), getElem?_of_drop hMost]
          cases hEnd : more.dropWhile Char.isDigit with
          | nil => rfl
          | cons e after =>
              by_cases hBrace : e = '}'
              · subst hBrace
                simp
                omega
              · simp [hBrace]
        · simp only [getElem?_of_drop hLeast, List.head?_cons, Option.some.injEq, hComma, if_false,
            pure_eq_ok, ok_bind]
          by_cases hBrace : d = '}'
          · subst hBrace
            simp
            omega
          · simp [hComma, hBrace]

section

variable {body rest : List Char} {i : Nat} {c : Char}

theorem follows_brace (h : body.drop i = '{' :: rest) :
    ∃ written, rewriteBrace body i = .ok written ∧ Follows body i (Piece.brace rest) written := by
  have hStart : i ≤ body.length := Nat.le_of_lt (lt_length_of_drop h)
  unfold rewriteBrace Piece.brace
  simp only [part_to_end h hStart, ok_bind, quantifierLength_cons]
  cases hSplit : splitQuantifier? rest with
  | none => exact ⟨_, rfl, follows_single h _ _ _⟩
  | some parts =>
      obtain ⟨quantifier, after⟩ := parts
      have hTaken : body.drop i = '{' :: quantifier ++ after :=
        h.trans (congrArg _ (quantifier_of_split hSplit).1)
      have hPart := part_of_drop hTaken hStart
      rw [List.length_cons] at hPart
      simp only [Option.map_some, hPart]
      exact ⟨_, rfl, follows_taken _ hTaken (Nat.succ_pos _) _ _ _⟩

end

/-- An escape is written in the given form and takes what the form does not leave of the text. -/
def Takes (text : List Char) (form : List Char × List Char)
    (result : Checked (List Char × Nat)) : Prop :=
  ∃ count, result = .ok (form.1, count) ∧ count ≤ text.length ∧ text.drop count = form.2

section

variable {text : List Char}

theorem takes_count {count : Nat} (h : count ≤ text.length) (written : List Char) :
    Takes text (written, text.drop count) (.ok (written, count)) :=
  ⟨count, rfl, h, rfl⟩

theorem takes_ite {p : Prop} [Decidable p] {form form' : List Char × List Char}
    {result result' : Checked (List Char × Nat)} (h : p → Takes text form result)
    (h' : ¬ p → Takes text form' result') :
    Takes text (if p then form else form') (if p then result else result') := by
  split
  · exact h ‹_›
  · exact h' ‹_›

end

theorem takes_name (c : Char) (rest written : List Char) (hc : c ≠ '>') :
    Takes (c :: rest) (written, (rest.dropWhile (· ≠ '>')).drop 1)
      (match (c :: rest).findIdx? (· = '>') with
      | some close => .ok (written, close + 1)
      | none => .ok (written, (c :: rest).length)) := by
  have hDrop : (rest.dropWhile (· ≠ '>')).drop 1 =
      (c :: rest).drop ((c :: rest).findIdx (· = '>') + 1) := by
    rw [List.dropWhile_eq_drop_findIdx_not, List.drop_drop]
    simp [List.findIdx_cons, hc]
  rw [hDrop]
  split
  · rename_i close hClose
    obtain ⟨hLength, rfl⟩ := List.findIdx?_eq_some_iff_findIdx_eq.1 hClose
    exact takes_count hLength written
  · rename_i hNone
    rw [List.findIdx?_eq_none_iff_findIdx_eq.1 hNone]
    exact ⟨_, rfl, Nat.le_refl _, by simp⟩

theorem takes_digits {rest : List Char} {count : Nat} (c : Char)
    (h : count ≤ (rest.takeWhile isHexDigit).length) :
    Takes (c :: rest) ('\\' :: c :: rest.take count, rest.drop count) (do
      let digits ← part (c :: rest) 0 (count + 1)
      return ('\\' :: digits, count + 1)) := by
  have hCount : count + 1 ≤ (c :: rest).length :=
    Nat.succ_le_succ (Nat.le_trans h (List.takeWhile_prefix _).length_le)
  rw [part_of_le (Nat.zero_le _) hCount]
  exact takes_count hCount _

theorem takes_rewriteEscape (inClass : Bool) (c : Char) (rest : List Char) :
    Takes (c :: rest) (neutralEscape inClass c rest) (rewriteEscape inClass (c :: rest)) := by
  have hRest : (c :: rest).drop 1 = rest := rfl
  have hSecond : (c :: rest)[1]? = rest.head? := getElem?_of_drop hRest
  have hOne : 1 ≤ (c :: rest).length := Nat.le_add_left 1 _
  unfold rewriteEscape neutralEscape
  rw [charAt_of_drop (List.drop_zero (l := c :: rest)), ok_bind, part_to_end hRest hOne, ok_bind,
    hSecond]
  refine takes_ite (fun hDigit => takes_ite (fun _ => takes_count hOne _) fun _ => ?digits) fun _ =>
    takes_ite (fun hName => ?name) fun _ =>
    takes_ite (fun hControl => ?control) fun _ =>
    takes_ite (fun _ => takes_count hOne _) fun _ =>
    takes_ite (fun hHex => ?hex) fun _ =>
    takes_ite (fun hUnit => ?unit) fun _ =>
    takes_ite (fun _ => takes_count hOne _) fun _ =>
    takes_ite (fun _ => takes_count hOne _) fun _ =>
    takes_ite (fun _ => takes_count hOne _) fun _ => takes_count hOne _
  case digits =>
    have hCount : 1 + (rest.takeWhile Char.isDigit).length ≤ (c :: rest).length := by
      rw [Nat.add_comm, List.length_cons]
      exact Nat.succ_le_succ (List.takeWhile_prefix _).length_le
    rw [← drop_digits hRest]
    exact takes_count hCount _
  case name =>
    have hc : c ≠ '>' := by
      rintro rfl
      cases hName
    exact takes_name c rest _ hc
  case control =>
    subst hControl
    cases rest with
    | nil => exact takes_count (Nat.zero_le _) _
    | cons letter after =>
        exact takes_ite (fun _ => takes_count (show 2 ≤ ('c' :: letter :: after).length by simp) _)
          fun _ => takes_count (Nat.zero_le _) _
  case hex =>
    simp only [Bool.and_eq_true, decide_eq_true_eq] at hHex
    rw [← hHex.1]
    exact takes_digits c hHex.2
  case unit =>
    simp only [Bool.and_eq_true, decide_eq_true_eq] at hUnit
    rw [← hUnit.1]
    exact takes_digits c hUnit.2

section

variable {body rest : List Char} {i : Nat} {c : Char}

theorem follows_escape (h : body.drop i = '\\' :: rest) (inClass : Bool) :
    ∃ written, rewriteEscapeAt body inClass i = .ok written ∧
      Follows body i (Piece.escape inClass rest) written := by
  have hNext := drop_succ_of_drop h
  have hLength := lt_length_of_drop h
  unfold rewriteEscapeAt
  cases rest with
  | nil =>
      have hEnd : i + 1 = body.length := by
        have hOutside := List.drop_eq_nil_iff.1 hNext
        omega
      rw [if_pos hEnd]
      exact ⟨_, rfl, follows_single h _ _ _⟩
  | cons c rest =>
      have hInside : i + 1 ≠ body.length := Nat.ne_of_lt (lt_length_of_drop hNext)
      obtain ⟨count, hEscape, hCount, hLeft⟩ := takes_rewriteEscape inClass c rest
      have hAfter : body.drop (i + 1 + count) = (neutralEscape inClass c rest).2 := by
        rw [← List.drop_drop, hNext, hLeft]
      rw [if_neg hInside, charAt_of_drop hNext, ok_bind, part_to_end hNext hLength, ok_bind,
        hEscape, ok_bind]
      have hInside : i + 1 + count ≤ body.length := by
        have hAll := congrArg List.length hNext
        rw [List.length_drop] at hAll
        omega
      have hAdvance : i < i + 1 + count := by omega
      exact ⟨_, rfl, rfl, rfl, rfl, hAdvance, hInside, hAfter⟩

/-- Every construct is written as its piece. -/
theorem follows_rewriteAt (h : body.drop i = c :: rest) (inClass afterSet : Bool) :
    ∃ written, rewriteAt body inClass afterSet i = .ok written ∧
      Follows body i (Piece.read inClass afterSet c rest) written := by
  unfold rewriteAt Piece.read Piece.outside
  rw [charAt_of_drop h, ok_bind]
  split
  · rename_i hBackslash
    subst hBackslash
    exact follows_escape h inClass
  split
  · exact ⟨_, rfl, follows_inside h afterSet⟩
  split
  · rename_i hOpen
    subst hOpen
    exact ⟨_, rfl, follows_bracket h⟩
  split
  · rename_i hBrace
    subst hBrace
    exact follows_brace h
  split
  · rename_i hGroup
    subst hGroup
    exact ⟨_, rfl, follows_parenthesis h⟩
  split
  · exact ⟨_, rfl, follows_single h _ _ _⟩
  · exact ⟨_, rfl, follows_single h _ _ _⟩

end

theorem rewriteFrom_of_drop {body rest : List Char} {i : Nat} (h : body.drop i = rest)
    (inClass afterSet : Bool) :
    rewriteFrom body inClass afterSet i = .ok (neutralFrom inClass afterSet rest) := by
  fun_induction neutralFrom inClass afterSet rest generalizing i with
  | case1 =>
      rw [rewriteFrom, dif_neg]
      · rfl
      · exact Nat.not_lt.2 (List.drop_eq_nil_iff.1 h)
  | case2 inClass afterSet c rest piece =>
      rename_i ih
      obtain ⟨written, hWritten, hText, hClass, hSet, hAdvance, hInside, hRest⟩ :=
        follows_rewriteAt h inClass afterSet
      rw [rewriteFrom, dif_pos (lt_length_of_drop h), hWritten]
      simp only [dif_pos (And.intro hAdvance hInside), hText, hClass, hSet, piece, ih hRest,
        ok_bind, pure_eq_ok]

theorem rewrite_eq (body : List Char) : rewrite body = .ok (neutral body) :=
  rewriteFrom_of_drop List.drop_zero false false

theorem isPatternChecked_eq (text : List Char) : isPatternChecked text = .ok (isPattern text) := by
  unfold isPatternChecked isPattern
  cases text.isEmpty with
  | true => rfl
  | false =>
      rw [rewrite_eq]
      rfl

end CodeListing.Indexed
