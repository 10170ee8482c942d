import CodeListing.Pattern.Neutral
import CodeListing.Proofs.Regex.Tree

/-! # The neutral form of a tree

The neutral form of a pattern is made in one pass over its characters, which knows
of the grammar only whether it is in a class and whether a set escape came just
before. On trees the neutral form is what the parts of the tree are replaced by,
each on its own. The two agree, since the pass leaves every part of a tree where it
ends. Only a back reference takes more than its own part: all digits behind it.
-/

namespace CodeListing

namespace Pattern

@[simp] theorem neutralFrom_nil (inClass afterSet : Bool) :
    neutralFrom inClass afterSet [] = [] := by
  rw [neutralFrom]

/-- What the pass writes for one construct, and where it goes on. -/
theorem neutralFrom_of_read {inClass afterSet inClass' afterSet' : Bool} {c : Char}
    {rest text left : List Char}
    (h : Piece.read inClass afterSet c rest = ⟨text, inClass', afterSet', left⟩) :
    neutralFrom inClass afterSet (c :: rest) = text ++ neutralFrom inClass' afterSet' left := by
  rw [neutralFrom, h]

/-- What stands for a backslash and `c`, and what is left of the pattern behind them. -/
inductive Replaces (inClass : Bool) (c : Char) (rest : List Char) :
    List Char → List Char → Prop where
  | null (digit : c.isDigit = true) (inside : inClass = true) :
      Replaces inClass c rest "\\x00".toList rest
  | reference (digit : c.isDigit = true) (outside : inClass = false) :
      Replaces inClass c rest "(?:)".toList (rest.dropWhile Char.isDigit)
  | name (hc : c = 'k') (outside : inClass = false) :
      Replaces inClass c rest "(?:)".toList ((rest.dropWhile (· ≠ '>')).drop 1)
  | control {letter after} (hc : c = 'c') (isLetter : letter.isAlpha = true)
      (hRest : rest = letter :: after) : Replaces inClass c rest (controlEscape letter) after
  /-- A backslash that names no control character stands for itself. -/
  | alone (hc : c = 'c') : Replaces inClass c rest "\\\\".toList (c :: rest)
  | backspace : Replaces inClass c rest "\\x08".toList rest
  | byte (hc : c = 'x') (digits : 2 ≤ (rest.takeWhile Text.isHexDigit).length) :
      Replaces inClass c rest ('\\' :: 'x' :: rest.take 2) (rest.drop 2)
  | unit (hc : c = 'u') (digits : 4 ≤ (rest.takeWhile Text.isHexDigit).length) :
      Replaces inClass c rest ('\\' :: 'u' :: rest.take 4) (rest.drop 4)
  | set (isSet : isSetLetter c = true) : Replaces inClass c rest ['\\', c] rest
  | letter (isControl : (control? c).isSome = true) : Replaces inClass c rest ['\\', c] rest
  | boundary (hc : c = 'b' ∨ c = 'B') (outside : inClass = false) :
      Replaces inClass c rest ['\\', c] rest
  | symbol (isMeta : isMeta c = true) : Replaces inClass c rest ['\\', c] rest
  | plain (notMeta : isMeta c = false) : Replaces inClass c rest [c] rest

theorem replaces_neutralEscape (inClass : Bool) (c : Char) (rest : List Char) :
    Replaces inClass c rest (neutralEscape inClass c rest).1 (neutralEscape inClass c rest).2 := by
  unfold neutralEscape
  split
  · rename_i hDigit
    cases inClass with
    | true => exact .null hDigit rfl
    | false => exact .reference hDigit rfl
  split
  · rename_i hName
    simp only [Bool.and_eq_true, decide_eq_true_eq, Bool.not_eq_true'] at hName
    exact .name hName.1.1 hName.1.2
  split
  · rename_i hControl
    cases rest with
    | nil => exact .alone hControl
    | cons letter after =>
        by_cases hLetter : letter.isAlpha = true
        · simpa only [if_pos hLetter] using .control hControl hLetter rfl
        · simpa only [if_neg hLetter] using .alone hControl
  split
  · exact .backspace
  split
  · rename_i hByte
    simp only [Bool.and_eq_true, decide_eq_true_eq] at hByte
    exact .byte hByte.1 hByte.2
  split
  · rename_i hUnit
    simp only [Bool.and_eq_true, decide_eq_true_eq] at hUnit
    exact .unit hUnit.1 hUnit.2
  split
  · rename_i hLetter
    rcases Bool.or_eq_true_iff.1 hLetter with hSet | hControl
    · exact .set hSet
    · exact .letter hControl
  split
  · rename_i hPlace
    simp only [Bool.and_eq_true, Bool.or_eq_true, decide_eq_true_eq, Bool.not_eq_true'] at hPlace
    exact .boundary hPlace.1 hPlace.2
  split
  · rename_i hMeta
    exact .symbol hMeta
  · rename_i hMeta
    exact .plain (Bool.eq_false_iff.2 hMeta)

def isReplaced (c : Char) : Bool :=
  c = '\\' || c = '[' || c = '{' || c = '(' || c = '}' || c = ']'

theorem neutralFrom_unchanged {c : Char} (h : isReplaced c = false) (rest : List Char) :
    neutralFrom false false (c :: rest) = c :: neutralFrom false false rest := by
  have hRead : Piece.read false false c rest = ⟨[c], false, false, rest⟩ := by
    simp only [isReplaced, Bool.or_eq_false_iff, decide_eq_false_iff_not] at h
    simp [Piece.read, Piece.outside, h]
  exact neutralFrom_of_read hRead

end Pattern

namespace Regex

open Pattern

theorem isDigit_of_isAlphanum {c : Char} (h : c.isAlphanum = false) : c.isDigit = false :=
  (Bool.or_eq_false_iff.1 h).2

theorem isSetLetter_of_isAlphanum {c : Char} (h : c.isAlphanum = false) :
    isSetLetter c = false := by
  simp [isSetLetter, ne_of_test h]

theorem control?_of_isAlphanum {c : Char} (h : c.isAlphanum = false) : control? c = none := by
  simp [control?, ne_of_test h]

theorem isSetLetter_iff {c : Char} :
    isSetLetter c = true ↔ c = 'd' ∨ c = 'D' ∨ c = 'w' ∨ c = 'W' ∨ c = 's' ∨ c = 'S' := by
  simp [isSetLetter, or_assoc]

theorem isSome_control? {c : Char} :
    (control? c).isSome = true ↔ c = 'n' ∨ c = 'r' ∨ c = 't' ∨ c = 'v' ∨ c = 'f' := by
  unfold control?
  repeat' split
  all_goals simp [*]

namespace Escape

def neutral : Escape → List Char
  | .letter name _ => controlEscape name
  | .identity c _ => if isMeta c then ['\\', c] else [c]
  | other => other.write

theorem exists_body (escape : Escape) : ∃ c more, escape.body = c :: more ∧
    isSetLetter c = escape.char?.isNone ∧
    ∀ inClass rest, neutralEscape inClass c (more ++ rest) = (escape.neutral, rest) := by
  cases escape with
  | set name hSet =>
      refine ⟨name, [], rfl, hSet, fun inClass rest => ?_⟩
      rcases isSetLetter_iff.1 hSet with rfl | rfl | rfl | rfl | rfl | rfl <;> rfl
  | control name c hControl =>
      have hName := isSome_control?.1 (Option.isSome_of_eq_some hControl)
      rcases hName with rfl | rfl | rfl | rfl | rfl
      all_goals exact ⟨_, [], rfl, rfl, fun inClass rest => rfl⟩
  | letter name hLetter =>
      refine ⟨'c', [name], rfl, rfl, fun inClass rest => ?_⟩
      simp [neutralEscape, hLetter, neutral]
  | byte high low =>
      refine ⟨'x', [high.char, low.char], rfl, rfl, fun inClass rest => ?_⟩
      simp [neutralEscape, high.isHex, low.isHex, neutral, write, body]
  | unit a b c d hScalar =>
      refine ⟨'u', [a.char, b.char, c.char, d.char], rfl, rfl, fun inClass rest => ?_⟩
      simp [neutralEscape, a.isHex, b.isHex, c.isHex, d.isHex, neutral, write, body]
  | identity c hSymbol =>
      refine ⟨c, [], rfl, isSetLetter_of_isAlphanum hSymbol, fun inClass rest => ?_⟩
      by_cases hMeta : isMeta c = true
      · simp [neutralEscape, neutral, ne_of_test hSymbol, isDigit_of_isAlphanum hSymbol,
          isSetLetter_of_isAlphanum hSymbol, control?_of_isAlphanum hSymbol, hMeta]
      · simp [neutralEscape, neutral, ne_of_test hSymbol, isDigit_of_isAlphanum hSymbol,
          isSetLetter_of_isAlphanum hSymbol, control?_of_isAlphanum hSymbol, hMeta]

theorem neutralFrom_write (escape : Escape) (inClass afterSet : Bool) (rest : List Char) :
    neutralFrom inClass afterSet (escape.write ++ rest) =
      escape.neutral ++ neutralFrom inClass (inClass && escape.char?.isNone) rest := by
  obtain ⟨c, more, hBody, hSet, hPass⟩ := escape.exists_body
  apply neutralFrom_of_read
  simp [Piece.read, hBody, Piece.escape, hPass, hSet]

theorem startsWithSet_write (escape : Escape) (rest : List Char) :
    startsWithSet (escape.write ++ rest) = escape.char?.isNone := by
  obtain ⟨c, more, hBody, hSet, _⟩ := escape.exists_body
  rw [write, hBody]
  exact hSet

end Escape

namespace ClassAtom

def neutral : ClassAtom → List Char
  | .plain c _ => if c = '[' || c = '&' || c = '~' then ['\\', c] else [c]
  | .escape inner _ _ => inner.neutral
  | .backspace => "\\x08".toList
  | .null => "\\x00".toList

theorem neutralFrom_write (atom : ClassAtom) (afterSet : Bool) (rest : List Char) :
    neutralFrom true afterSet (atom.write ++ rest) =
      atom.neutral ++ neutralFrom true false rest := by
  cases atom with
  | plain c hPlain =>
      have hRead : Piece.read true afterSet c rest =
          ⟨(plain c hPlain).neutral, true, false, rest⟩ := by
        obtain ⟨hBackslash, hBracket, hDash⟩ := hPlain
        by_cases hOperator : (c = '[' || c = '&' || c = '~') = true
        · simp [Piece.read, Piece.inside, neutral, hBackslash, hOperator]
        · simp [Piece.read, Piece.inside, neutral, hBackslash, hBracket, hDash, hOperator]
      exact neutralFrom_of_read hRead
  | escape inner c hChar =>
      have hEscape := inner.neutralFrom_write true afterSet rest
      rwa [hChar] at hEscape
  | backspace => exact neutralFrom_of_read rfl
  | null => exact neutralFrom_of_read rfl

theorem startsWithSet_write (atom : ClassAtom) (rest : List Char) :
    startsWithSet (atom.write ++ rest) = false := by
  cases atom with
  | plain c hPlain =>
      unfold startsWithSet
      split
      · rename_i hText
        exact absurd (List.cons.inj hText).1 hPlain.1
      · rfl
  | escape inner c hChar => simp [write, inner.startsWithSet_write, hChar]
  | backspace => rfl
  | null => rfl

theorem exists_write (atom : ClassAtom) : ∃ c more, atom.write = c :: more ∧ c ≠ ']' := by
  cases atom with
  | plain c hPlain => exact ⟨c, [], rfl, hPlain.2.1⟩
  | escape inner c hChar => exact ⟨'\\', inner.body, rfl, by decide⟩
  | backspace => exact ⟨'\\', ['b'], rfl, by decide⟩
  | null => exact ⟨'\\', ['0'], rfl, by decide⟩

end ClassAtom

namespace ClassItem

@[simp] theorem writeAll_cons (item : ClassItem) (items : List ClassItem) :
    writeAll (item :: items) = item.write ++ writeAll items := rfl

/-- What stands for the item. A dash keeps its place beside a set only as an escape. -/
def neutral (afterSet beforeSet : Bool) : ClassItem → List Char
  | .set letter _ => ['\\', letter]
  | .single atom => atom.neutral
  | .range low high _ => low.neutral ++ '-' :: high.neutral
  | .dash => if afterSet || beforeSet then ['\\', '-'] else ['-']

def neutralAll (afterSet : Bool) : List ClassItem → List Char
  | [] => []
  | item :: items =>
    item.neutral afterSet (items.head?.any isSet) ++ neutralAll item.isSet items

theorem startsWithSet_writeAll (items : List ClassItem) (rest : List Char) :
    startsWithSet (writeAll items ++ ']' :: rest) = items.head?.any isSet := by
  cases items with
  | nil => rfl
  | cons item items =>
      rw [writeAll_cons, List.append_assoc]
      cases item with
      | set letter hSet => exact hSet
      | single atom => exact atom.startsWithSet_write _
      | range low high _ =>
          rw [write, List.append_assoc]
          exact low.startsWithSet_write _
      | dash => rfl

theorem neutralFrom_writeAll (items : List ClassItem) (afterSet : Bool) (rest : List Char) :
    neutralFrom true afterSet (writeAll items ++ ']' :: rest) =
      neutralAll afterSet items ++ ']' :: neutralFrom false false rest := by
  induction items generalizing afterSet with
  | nil => exact neutralFrom_of_read rfl
  | cons item items ih =>
      rw [writeAll_cons, neutralAll, List.append_assoc, List.append_assoc]
      cases item with
      | set letter hSet =>
          rw [← ih]
          exact (Escape.set letter hSet).neutralFrom_write true afterSet _
      | single atom => rw [write, atom.neutralFrom_write, ih]; rfl
      | range low high _ =>
          have hDash : Piece.read true false '-' (high.write ++ (writeAll items ++ ']' :: rest)) =
              ⟨['-'], true, false, high.write ++ (writeAll items ++ ']' :: rest)⟩ := by
            simp [Piece.read, Piece.inside, high.startsWithSet_write]
          rw [write, List.append_assoc, low.neutralFrom_write, List.cons_append,
            neutralFrom_of_read hDash, high.neutralFrom_write, ih]
          simp [neutral, isSet]
      | dash =>
          have hDash : Piece.read true afterSet '-' (writeAll items ++ ']' :: rest) =
              ⟨dash.neutral afterSet (items.head?.any isSet), true, false,
                writeAll items ++ ']' :: rest⟩ := by
            by_cases hEscaped : (afterSet || items.head?.any isSet) = true
            · simp [Piece.read, Piece.inside, startsWithSet_writeAll, neutral, hEscaped]
            · simp [Piece.read, Piece.inside, startsWithSet_writeAll, neutral, hEscaped]
          rw [← ih]
          exact neutralFrom_of_read hDash

theorem exists_writeAll (item : ClassItem) (items : List ClassItem) :
    ∃ c more, writeAll (item :: items) = c :: more ∧ c ≠ ']' := by
  rw [writeAll_cons]
  cases item with
  | set letter hSet => exact ⟨'\\', _, rfl, by decide⟩
  | single atom =>
      obtain ⟨c, more, hWrite, hc⟩ := atom.exists_write
      exact ⟨c, _, by rw [write, hWrite, List.cons_append], hc⟩
  | range low high _ =>
      obtain ⟨c, more, hWrite, hc⟩ := low.exists_write
      exact ⟨c, _, by rw [write, hWrite, List.cons_append, List.cons_append], hc⟩
  | dash => exact ⟨'-', _, rfl, by decide⟩

end ClassItem

namespace Class

/-- What stands for the class. The notation has none without items, so two sets take their
place. -/
def neutral (class_ : Class) : List Char :=
  match class_.items with
  | [] => if class_.negated then "[\\s\\S]".toList else "[^\\s\\S]".toList
  | items =>
    '[' :: ((if class_.negated then ['^'] else []) ++ (ClassItem.neutralAll false items ++ [']']))

theorem read_bracket {rest : List Char} (hEnd : ∀ after, rest ≠ ']' :: after)
    (hCaret : ∀ after, rest ≠ '^' :: ']' :: after) :
    Piece.read false false '[' rest = ⟨['['], true, false, rest⟩ := by
  show Piece.bracket rest = _
  unfold Piece.bracket
  split
  · exact absurd rfl (hCaret _)
  · exact absurd rfl (hEnd _)
  · rfl

theorem neutralFrom_bracket (negated : Bool) {c : Char} (hEnd : c ≠ ']')
    (hCaret : negated = false → c ≠ '^') (text : List Char) :
    neutralFrom false false ('[' :: ((if negated then ['^'] else []) ++ c :: text)) =
      '[' :: ((if negated then ['^'] else []) ++ neutralFrom true false (c :: text)) := by
  cases negated with
  | false =>
      have hRead : Piece.read false false '[' (c :: text) = ⟨['['], true, false, c :: text⟩ :=
        read_bracket (fun _ h => hEnd (List.cons.inj h).1)
          (fun _ h => hCaret rfl (List.cons.inj h).1)
      exact neutralFrom_of_read hRead
  | true =>
      have hRead : Piece.read false false '[' ('^' :: c :: text) =
          ⟨['['], true, false, '^' :: c :: text⟩ :=
        read_bracket nofun (fun _ h => hEnd (List.cons.inj (List.cons.inj h).2).1)
      have hNext : Piece.read true false '^' (c :: text) = ⟨['^'], true, false, c :: text⟩ := rfl
      exact (neutralFrom_of_read hRead).trans (congrArg _ (neutralFrom_of_read hNext))

theorem neutralFrom_write (class_ : Class) (rest : List Char) :
    neutralFrom false false (class_.write ++ rest) =
      class_.neutral ++ neutralFrom false false rest := by
  obtain ⟨negated, items, hCaret, hDashes⟩ := class_
  cases items with
  | nil => cases negated <;> exact neutralFrom_of_read rfl
  | cons item items =>
      obtain ⟨c, more, hWrite, hc⟩ := ClassItem.exists_writeAll item items
      have hItems := ClassItem.neutralFrom_writeAll (item :: items) false rest
      have hFirst : negated = false → c ≠ '^' := by
        intro hNegated
        simpa [hWrite] using hCaret hNegated
      have hOpen := neutralFrom_bracket negated hc hFirst (more ++ ']' :: rest)
      rw [hWrite, List.cons_append] at hItems
      rw [hItems] at hOpen
      simpa [write, hWrite, neutral] using hOpen

end Class

namespace Digits

theorem exists_chars (digits : Digits) :
    ∃ c more, digits.chars = c :: more ∧ c.isDigit = true := by
  obtain ⟨chars, hNil, hDigits⟩ := digits
  cases chars with
  | nil => exact absurd rfl hNil
  | cons c more => exact ⟨c, more, rfl, hDigits c List.mem_cons_self⟩

section

variable (digits : Digits) (rest : List Char) (hRest : rest.head?.any Char.isDigit = false)

include hRest

theorem takeWhile_append : (digits.chars ++ rest).takeWhile Char.isDigit = digits.chars := by
  rw [List.takeWhile_append_of_pos digits.isDigit]
  cases rest with
  | nil => simp
  | cons c rest => simp [List.takeWhile, show c.isDigit = false from hRest]

theorem dropWhile_append : (digits.chars ++ rest).dropWhile Char.isDigit = rest := by
  rw [List.dropWhile_append_of_pos digits.isDigit]
  cases rest with
  | nil => rfl
  | cons c rest => simp [List.dropWhile, show c.isDigit = false from hRest]

end

end Digits

namespace Operator

theorem splitQuantifier?_exactly (count : Digits) (rest : List Char) :
    splitQuantifier? (count.chars ++ '}' :: rest) = some (count.chars ++ ['}'], rest) := by
  have hTake := count.takeWhile_append ('}' :: rest) rfl
  have hDrop := count.dropWhile_append ('}' :: rest) rfl
  simp [splitQuantifier?, hTake, hDrop, count.ne_nil]

theorem splitQuantifier?_atLeast (least : Digits) (rest : List Char) :
    splitQuantifier? (least.chars ++ ',' :: '}' :: rest) =
      some (least.chars ++ [',', '}'], rest) := by
  have hTake := least.takeWhile_append (',' :: '}' :: rest) rfl
  have hDrop := least.dropWhile_append (',' :: '}' :: rest) rfl
  have hBrace : ('}' :: rest).takeWhile Char.isDigit = [] := rfl
  have hBrace' : ('}' :: rest).dropWhile Char.isDigit = '}' :: rest := rfl
  simp [splitQuantifier?, hTake, hDrop, hBrace, hBrace', least.ne_nil]

theorem splitQuantifier?_between (least most : Digits) (rest : List Char) :
    splitQuantifier? (least.chars ++ ',' :: (most.chars ++ '}' :: rest)) =
      some (least.chars ++ ',' :: (most.chars ++ ['}']), rest) := by
  have hTake := least.takeWhile_append (',' :: (most.chars ++ '}' :: rest)) rfl
  have hDrop := least.dropWhile_append (',' :: (most.chars ++ '}' :: rest)) rfl
  have hTake' := most.takeWhile_append ('}' :: rest) rfl
  have hDrop' := most.dropWhile_append ('}' :: rest) rfl
  simp [splitQuantifier?, hTake, hDrop, hTake', hDrop', least.ne_nil]

theorem neutralFrom_brace {text piece rest : List Char}
    (h : splitQuantifier? text = some (piece, rest)) :
    neutralFrom false false ('{' :: text) = '{' :: piece ++ neutralFrom false false rest := by
  have hRead : Piece.read false false '{' text = ⟨'{' :: piece, false, false, rest⟩ := by
    simp [Piece.read, Piece.outside, Piece.brace, h]
  exact neutralFrom_of_read hRead

theorem neutralFrom_write (operator : Operator) (rest : List Char) :
    neutralFrom false false (operator.write ++ rest) =
      operator.write ++ neutralFrom false false rest := by
  cases operator with
  | star => exact neutralFrom_unchanged rfl rest
  | plus => exact neutralFrom_unchanged rfl rest
  | question => exact neutralFrom_unchanged rfl rest
  | exactly count _ =>
      have hBrace := neutralFrom_brace (splitQuantifier?_exactly count rest)
      simpa [write] using hBrace
  | atLeast least _ =>
      have hBrace := neutralFrom_brace (splitQuantifier?_atLeast least rest)
      simpa [write] using hBrace
  | between least most _ _ =>
      have hBrace := neutralFrom_brace (splitQuantifier?_between least most rest)
      simpa [write] using hBrace

end Operator

namespace Quantifier

theorem neutralFrom_write (quantifier : Option Quantifier) (rest : List Char) :
    neutralFrom false false (write quantifier ++ rest) =
      write quantifier ++ neutralFrom false false rest := by
  cases quantifier with
  | none => rfl
  | some quantifier =>
      rw [write, List.append_assoc, quantifier.operator.neutralFrom_write, List.append_assoc]
      congr 1
      split
      · exact neutralFrom_unchanged rfl rest
      · rfl

end Quantifier

theorem Assertion.neutralFrom_write (place : Assertion) (rest : List Char) :
    neutralFrom false false (place.write ++ rest) =
      place.write ++ neutralFrom false false rest := by
  cases place with
  | start => exact neutralFrom_unchanged rfl rest
  | stop => exact neutralFrom_unchanged rfl rest
  | boundary => exact neutralFrom_of_read rfl
  | interior => exact neutralFrom_of_read rfl

namespace Single

def neutral : Single → List Char
  | .dot => ['.']
  | .literal c _ => if c = '}' || c = ']' then ['\\', c] else [c]
  | .escape inner => inner.neutral
  | .backReference _ => "(?:)".toList
  | .charClass class_ => class_.neutral

/-- Whether digits that follow would belong to the construct. -/
def takesDigits : Single → Bool
  | .backReference _ => true
  | _ => false

theorem neutralFrom_write (first : Single) (rest : List Char)
    (h : first.takesDigits = true → rest.head?.any Char.isDigit = false) :
    neutralFrom false false (first.write ++ rest) =
      first.neutral ++ neutralFrom false false rest := by
  cases first with
  | dot => exact neutralFrom_unchanged rfl rest
  | literal c hLiteral =>
      have hRead : Piece.read false false c rest =
          ⟨(literal c hLiteral).neutral, false, false, rest⟩ := by
        have hBackslash : c ≠ '\\' := (ne_of_test (p := isLiteral) rfl hLiteral).symm
        have hParenthesis : c ≠ '(' := (ne_of_test (p := isLiteral) rfl hLiteral).symm
        have hBracket : c ≠ '[' := (ne_of_test (p := isLiteral) rfl hLiteral).symm
        have hBrace : c ≠ '{' := (ne_of_test (p := isLiteral) rfl hLiteral).symm
        by_cases hClosing : (c = '}' || c = ']') = true
        · simp [Piece.read, Piece.outside, neutral, hBackslash, hParenthesis, hBracket, hBrace,
            hClosing]
        · simp [Piece.read, Piece.outside, neutral, hBackslash, hParenthesis, hBracket, hBrace,
            hClosing]
      exact neutralFrom_of_read hRead
  | escape inner => exact inner.neutralFrom_write false false rest
  | backReference digits =>
      have hDrop := digits.dropWhile_append rest (h rfl)
      obtain ⟨c, more, hChars, hc⟩ := digits.exists_chars
      have hDrop' : (more ++ rest).dropWhile Char.isDigit = rest := by
        simpa [hChars, hc] using hDrop
      have hRead : Piece.read false false '\\' (digits.chars ++ rest) =
          ⟨"(?:)".toList, false, false, rest⟩ := by
        simp [Piece.read, hChars, Piece.escape, neutralEscape, hc, hDrop']
      exact neutralFrom_of_read hRead
  | charClass class_ => exact class_.neutralFrom_write rest

end Single

namespace Opener

def neutral : Opener → List Char
  | .capture => ['(']
  | _ => "(?:".toList

/-- All groups but those that capture open in the same way, whatever stands in them. -/
theorem neutralFrom_of_ne_capture (opener : Opener) (h : opener ≠ .capture) (afterSet : Bool)
    (rest : List Char) :
    neutralFrom false afterSet (opener.write ++ rest) =
      "(?:".toList ++ neutralFrom false false rest := by
  cases opener with
  | capture => exact absurd rfl h
  | plain =>
      have hRead : Piece.read false afterSet '(' ('?' :: ':' :: rest) =
          ⟨['('], false, false, '?' :: ':' :: rest⟩ := rfl
      calc
        _ = ['('] ++ neutralFrom false false ('?' :: ':' :: rest) := neutralFrom_of_read hRead
        _ = '(' :: '?' :: neutralFrom false false (':' :: rest) := by
          rw [neutralFrom_unchanged rfl]; rfl
        _ = '(' :: '?' :: ':' :: neutralFrom false false rest := by
          rw [neutralFrom_unchanged rfl]
  | ahead => exact neutralFrom_of_read rfl
  | notAhead => exact neutralFrom_of_read rfl
  | behind => exact neutralFrom_of_read rfl
  | notBehind => exact neutralFrom_of_read rfl

theorem neutralFrom_write (opener : Opener) (rest : List Char) (h : rest.head? ≠ some '?') :
    neutralFrom false false (opener.write ++ rest) =
      opener.neutral ++ neutralFrom false false rest := by
  cases opener with
  | capture =>
      have hRead : Piece.read false false '(' rest = ⟨['('], false, false, rest⟩ := by
        cases rest with
        | nil => rfl
        | cons c rest =>
            have hc : c ≠ '?' := by simpa using h
            simp [Piece.read, Piece.outside, Piece.parenthesis, splitLookaround?, hc]
      exact neutralFrom_of_read hRead
  | plain => exact neutralFrom_of_ne_capture .plain nofun false rest
  | ahead => exact neutralFrom_of_ne_capture .ahead nofun false rest
  | notAhead => exact neutralFrom_of_ne_capture .notAhead nofun false rest
  | behind => exact neutralFrom_of_ne_capture .behind nofun false rest
  | notBehind => exact neutralFrom_of_ne_capture .notBehind nofun false rest

end Opener

def neutral : Regex → List Char
  | .done => []
  | .bar rest => '|' :: rest.neutral
  | .assertion place rest => place.write ++ rest.neutral
  | .single first quantifier rest =>
    first.neutral ++ (Quantifier.write quantifier ++ rest.neutral)
  | .group opener body quantifier rest =>
    opener.neutral ++ (body.neutral ++ ')' :: (Quantifier.write quantifier ++ rest.neutral))

/-- No digits follow a back reference that is not repeated. -/
def IsTidy : Regex → Prop
  | .done => True
  | .bar rest => rest.IsTidy
  | .assertion _ rest => rest.IsTidy
  | .single first quantifier rest =>
    (first.takesDigits = true → quantifier = none →
      rest.write.head?.any Char.isDigit = false) ∧ rest.IsTidy
  | .group _ body _ rest => body.IsTidy ∧ rest.IsTidy

/-- The text can follow a regular expression: the end, or that of a group. -/
def Closes (tail : List Char) : Prop :=
  ∀ c ∈ tail.head?, c = ')'

theorem Closes.head?_append {text tail : List Char} (hTail : Closes tail)
    (h : text.head?.any Char.isDigit = false) : (text ++ tail).head?.any Char.isDigit = false := by
  cases text with
  | cons c text => exact h
  | nil =>
      cases tail with
      | nil => rfl
      | cons c tail =>
          rw [hTail c rfl]
          rfl

theorem closes_nil : Closes [] :=
  nofun

theorem closes_parenthesis (rest : List Char) : Closes (')' :: rest) := by
  simp [Closes]

theorem head?_write {tail : List Char} (r : Regex) (hTail : Closes tail) :
    (r.write ++ tail).head? ≠ some '?' := by
  cases r with
  | done =>
      intro h
      exact absurd (hTail '?' h) (by decide)
  | bar rest => simp [write]
  | assertion place rest => cases place <;> simp [write, Assertion.write]
  | single first quantifier rest =>
      cases first with
      | literal c hLiteral =>
          have hc : c ≠ '?' := (ne_of_test (p := isLiteral) rfl hLiteral).symm
          simp [write, Single.write, hc]
      | _ => simp [write, Single.write, Escape.write, Class.write]
  | group opener body quantifier rest => cases opener <;> simp [write, Opener.write]

theorem Quantifier.head?_write (quantifier : Quantifier) (rest : List Char) :
    (Quantifier.write (some quantifier) ++ rest).head?.any Char.isDigit = false := by
  obtain ⟨operator, isLazy⟩ := quantifier
  cases operator <;> rfl

theorem neutralFrom_write {tail : List Char} (r : Regex) (hTidy : r.IsTidy) (hTail : Closes tail) :
    neutralFrom false false (r.write ++ tail) = r.neutral ++ neutralFrom false false tail := by
  induction r generalizing tail with
  | done => rfl
  | bar rest ih =>
      rw [write, List.cons_append, neutralFrom_unchanged rfl, ih hTidy hTail, neutral,
        List.cons_append]
  | assertion place rest ih =>
      rw [write, List.append_assoc, place.neutralFrom_write, ih hTidy hTail, neutral,
        List.append_assoc]
  | single first quantifier rest ih =>
      obtain ⟨hDigits, hRest⟩ := hTidy
      -- the pass gives a back reference all digits behind it, so none may follow
      have hNext : first.takesDigits = true →
          (Quantifier.write quantifier ++ (rest.write ++ tail)).head?.any Char.isDigit = false := by
        intro hTakes
        cases quantifier with
        | none => exact hTail.head?_append (hDigits hTakes rfl)
        | some quantifier => exact quantifier.head?_write _
      rw [write, List.append_assoc, List.append_assoc, first.neutralFrom_write _ hNext,
        Quantifier.neutralFrom_write, ih hRest hTail, neutral, List.append_assoc,
        List.append_assoc]
  | group opener body quantifier rest ihBody ihRest =>
      obtain ⟨hBody, hRest⟩ := hTidy
      have hClose := closes_parenthesis (Quantifier.write quantifier ++ (rest.write ++ tail))
      rw [write]
      simp only [List.append_assoc, List.cons_append]
      rw [opener.neutralFrom_write _ (body.head?_write hClose), ihBody hBody hClose,
        neutralFrom_unchanged rfl, Quantifier.neutralFrom_write, ihRest hRest hTail, neutral]
      simp only [List.append_assoc, List.cons_append]

theorem write_refer (digits : Digits) (r : Regex) :
    (refer digits r).write = '\\' :: (digits.chars ++ r.write) := by
  fun_induction refer digits r with
  | case1 digits c hc rest hDigit ih =>
      rw [ih]
      simp [Digits.push, write, Single.write, Quantifier.write]
  | case2 digits c hc rest hDigit quantifier => simp [Digits.push, write, Single.write]
  | case3 digits c hc quantifier rest hDigit => simp [write, Single.write, Quantifier.write]
  | case4 digits rest hOther => simp [write, Single.write, Quantifier.write]

theorem isDigit_head?_write {r : Regex}
    (h : ∀ c hc quantifier rest, r = .single (.literal c hc) quantifier rest → c.isDigit = false) :
    r.write.head?.any Char.isDigit = false := by
  cases r with
  | done => rfl
  | bar rest => rfl
  | assertion place rest => cases place <;> rfl
  | single first quantifier rest =>
      cases first with
      | literal c hc => exact h c hc quantifier rest rfl
      | _ => rfl
  | group opener body quantifier rest => cases opener <;> rfl

theorem isTidy_refer (digits : Digits) {r : Regex} (h : r.IsTidy) : (refer digits r).IsTidy := by
  fun_induction refer digits r with
  | case1 digits c hc rest hDigit ih => exact ih h.2
  | case2 digits c hc rest hDigit quantifier => exact ⟨nofun, h.2⟩
  | case3 digits c hc quantifier rest hDigit =>
      refine ⟨fun _ _ => ?_, h⟩
      simpa [write, Single.write] using hDigit
  | case4 digits rest hOther =>
      refine ⟨fun _ _ => isDigit_head?_write ?_, h⟩
      rintro c hc quantifier rest rfl
      exact absurd rfl (hOther c hc quantifier rest)

theorem write_tidy (r : Regex) : r.tidy.write = r.write := by
  fun_induction tidy r with
  | case1 => rfl
  | case2 rest ih => rw [write, write, ih]
  | case3 place rest ih => rw [write, write, ih]
  | case4 digits rest ih =>
      rw [write_refer, ih]
      rfl
  | case5 first quantifier rest _ ih => rw [write, write, ih]
  | case6 opener body quantifier rest ihBody ihRest => rw [write, write, ihBody, ihRest]

theorem isTidy_tidy (r : Regex) : r.tidy.IsTidy := by
  fun_induction tidy r with
  | case1 => trivial
  | case2 rest ih => exact ih
  | case3 place rest ih => exact ih
  | case4 digits rest ih => exact isTidy_refer digits ih
  | case5 first quantifier rest hOther ih =>
      refine ⟨fun hTakes hNone => ?_, ih⟩
      cases first with
      | backReference digits => exact absurd hNone (hOther digits rfl)
      | _ => cases hTakes
  | case6 opener body quantifier rest ihBody ihRest => exact ⟨ihBody, ihRest⟩

/-- The neutral form of what a tree writes. -/
theorem neutral_write (r : Regex) : Pattern.neutral r.write = r.tidy.neutral := by
  have hPass := neutralFrom_write r.tidy r.isTidy_tidy closes_nil
  rwa [write_tidy, List.append_nil, neutralFrom_nil, List.append_nil] at hPass

end Regex

end CodeListing
