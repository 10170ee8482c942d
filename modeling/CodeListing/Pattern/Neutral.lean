import CodeListing.Pattern.Atom
import CodeListing.Text.Hexadecimal

/-! # The neutral form of a pattern

Regular expressions of JavaScript have constructs that a common core of the
notation lacks: lookaround, back references, `[]` and `[^]`, control escapes,
braces and brackets that stand for themselves. The neutral form of a pattern
replaces each by a construct of the core that is well formed in the same
places. It is made in one pass that remembers two things: whether the pattern
stands inside a class, and whether a set escape came just before, since a dash
beside one is no range.
-/

namespace CodeListing.Pattern

open Text (isHexDigit)

/-- A construct of a pattern, replaced. -/
structure Piece where
  /-- What stands for the construct in the neutral form. -/
  text : List Char
  /-- Whether the pattern stands inside a class after the construct. -/
  inClass : Bool
  /-- Whether the construct is a set escape inside a class. -/
  afterSet : Bool
  /-- The pattern after the construct. -/
  rest : List Char
  deriving Repr, DecidableEq

def startsWithSet : List Char → Bool
  | '\\' :: c :: _ => isSetLetter c
  | _ => false

/-- The rest of a quantifier `{n}`, `{n,}` or `{n,m}` after its brace, and what
follows it. -/
def splitQuantifier? (text : List Char) : Option (List Char × List Char) :=
  let least := text.takeWhile Char.isDigit
  if least.isEmpty then none
  else
    match text.dropWhile Char.isDigit with
    | '}' :: after => some (least ++ ['}'], after)
    | ',' :: more =>
      match more.dropWhile Char.isDigit with
      | '}' :: after => some (least ++ ',' :: more.takeWhile Char.isDigit ++ ['}'], after)
      | _ => none
    | _ => none

/-- What follows the opening of a lookaround group after its parenthesis. -/
def splitLookaround? : List Char → Option (List Char)
  | '?' :: '=' :: after => some after
  | '?' :: '!' :: after => some after
  | '?' :: '<' :: '=' :: after => some after
  | '?' :: '<' :: '!' :: after => some after
  | _ => none

/-- The hexadecimal escape of the control character that a letter names. -/
def controlEscape (letter : Char) : List Char :=
  let code := letter.toNat % 32
  ['\\', 'x', Nat.digitChar (code / 16), (Nat.digitChar (code % 16)).toUpper]

/-- The neutral form of a backslash and `c`, and what of `c` and `rest` follows it. A
back reference becomes an empty group and a backslash before a character that
needs none is dropped. -/
def neutralEscape (inClass : Bool) (c : Char) (rest : List Char) : List Char × List Char :=
  if c.isDigit then
    if inClass then ("\\x00".toList, rest) else ("(?:)".toList, rest.dropWhile Char.isDigit)
  else if c = 'k' && !inClass && rest.head? = some '<' then
    ("(?:)".toList, (rest.dropWhile (· ≠ '>')).drop 1)
  else if c = 'c' then
    match rest with
    | letter :: after =>
      if letter.isAlpha then (controlEscape letter, after) else ("\\\\".toList, c :: rest)
    | [] => ("\\\\".toList, c :: rest)
  else if c = 'b' && inClass then ("\\x08".toList, rest)
  else if c = 'x' && 2 ≤ (rest.takeWhile isHexDigit).length then
    ('\\' :: 'x' :: rest.take 2, rest.drop 2)
  else if c = 'u' && 4 ≤ (rest.takeWhile isHexDigit).length then
    ('\\' :: 'u' :: rest.take 4, rest.drop 4)
  else if isSetLetter c || (control? c).isSome then (['\\', c], rest)
  else if (c = 'b' || c = 'B') && !inClass then (['\\', c], rest)
  else if isMeta c then (['\\', c], rest)
  else ([c], rest)

namespace Piece

def escape (inClass : Bool) (rest : List Char) : Piece :=
  match rest with
  | [] => ⟨['\\'], inClass, false, []⟩
  | c :: after =>
    let (text, left) := neutralEscape inClass c after
    ⟨text, inClass, inClass && isSetLetter c, left⟩

/-- The construct inside a class that `c` begins, which is no backslash. A bracket and the
characters of operators on classes stand for themselves. -/
def inside (afterSet : Bool) (c : Char) (rest : List Char) : Piece :=
  if c = '[' || c = '&' || c = '~' then ⟨['\\', c], true, false, rest⟩
  else if c = ']' then ⟨[c], false, false, rest⟩
  else if c = '-' && (afterSet || startsWithSet rest) then ⟨['\\', c], true, false, rest⟩
  else ⟨[c], true, false, rest⟩

/-- The construct that opens a class, or a class that holds no character or every one. -/
def bracket (rest : List Char) : Piece :=
  match rest with
  | '^' :: ']' :: after => ⟨"[\\s\\S]".toList, false, false, after⟩
  | ']' :: after => ⟨"[^\\s\\S]".toList, false, false, after⟩
  | _ => ⟨['['], true, false, rest⟩

/-- A quantifier in braces, or an opening brace that stands for itself. -/
def brace (rest : List Char) : Piece :=
  match splitQuantifier? rest with
  | some (text, after) => ⟨'{' :: text, false, false, after⟩
  | none => ⟨['\\', '{'], false, false, rest⟩

/-- The opening of a group; lookaround becomes a group without a name. -/
def parenthesis (rest : List Char) : Piece :=
  match splitLookaround? rest with
  | some after => ⟨"(?:".toList, false, false, after⟩
  | none => ⟨['('], false, false, rest⟩

/-- The construct outside of classes that `c` begins, which is no backslash. -/
def outside (c : Char) (rest : List Char) : Piece :=
  if c = '[' then bracket rest
  else if c = '{' then brace rest
  else if c = '(' then parenthesis rest
  else if c = '}' || c = ']' then ⟨['\\', c], false, false, rest⟩
  else ⟨[c], false, false, rest⟩

/-- The construct that `c` begins, with `rest` after it. -/
def read (inClass afterSet : Bool) (c : Char) (rest : List Char) : Piece :=
  if c = '\\' then escape inClass rest
  else if inClass then inside afterSet c rest
  else outside c rest

end Piece

theorem length_splitQuantifier? {text piece after : List Char}
    (h : splitQuantifier? text = some (piece, after)) : after.length ≤ text.length := by
  have drop_le (l : List Char) : (l.dropWhile Char.isDigit).length ≤ l.length :=
    (List.dropWhile_suffix _).length_le
  have hText := drop_le text
  simp only [splitQuantifier?] at h
  split at h
  · cases h
  · split at h
    · rename_i hDrop
      cases h
      simp only [hDrop, List.length_cons] at hText
      omega
    · rename_i more hDrop
      have hMore := drop_le more
      split at h
      · rename_i hDrop'
        cases h
        simp only [hDrop, hDrop', List.length_cons] at hText hMore
        omega
      · cases h
    · cases h

theorem length_splitLookaround? {text after : List Char}
    (h : splitLookaround? text = some after) : after.length ≤ text.length := by
  unfold splitLookaround? at h
  split at h <;> cases h <;> simp only [List.length_cons] <;> omega

/-- An escape leaves at most the character after the backslash to be read again. -/
theorem length_neutralEscape (inClass : Bool) (c : Char) (rest : List Char) :
    (neutralEscape inClass c rest).2.length ≤ rest.length + 1 := by
  have drop_le (p : Char → Bool) : (rest.dropWhile p).length ≤ rest.length :=
    (List.dropWhile_suffix _).length_le
  have hDigits := drop_le Char.isDigit
  have hName := drop_le (· ≠ '>')
  unfold neutralEscape
  repeat' split
  all_goals simp only [List.length_drop, List.length_cons]
  all_goals omega

namespace Piece

theorem length_escape (inClass : Bool) (rest : List Char) :
    (escape inClass rest).rest.length ≤ rest.length := by
  cases rest with
  | nil => simp [escape]
  | cons c after => exact length_neutralEscape inClass c after

theorem length_inside (afterSet : Bool) (c : Char) (rest : List Char) :
    (inside afterSet c rest).rest.length ≤ rest.length := by
  unfold inside
  repeat' split
  all_goals exact Nat.le_refl _

theorem length_bracket (rest : List Char) : (bracket rest).rest.length ≤ rest.length := by
  unfold bracket
  split
  · exact Nat.le_succ_of_le (Nat.le_succ _)
  · exact Nat.le_succ _
  · exact Nat.le_refl _

theorem length_brace (rest : List Char) : (brace rest).rest.length ≤ rest.length := by
  unfold brace
  split
  · rename_i hSplit
    exact length_splitQuantifier? hSplit
  · exact Nat.le_refl _

theorem length_parenthesis (rest : List Char) :
    (parenthesis rest).rest.length ≤ rest.length := by
  unfold parenthesis
  split
  · rename_i hSplit
    exact length_splitLookaround? hSplit
  · exact Nat.le_refl _

theorem length_outside (c : Char) (rest : List Char) :
    (outside c rest).rest.length ≤ rest.length := by
  unfold outside
  split
  · exact length_bracket rest
  · split
    · exact length_brace rest
    · split
      · exact length_parenthesis rest
      · split <;> exact Nat.le_refl _

/-- Reading a construct consumes at least its first character. -/
theorem length_read (inClass afterSet : Bool) (c : Char) (rest : List Char) :
    (read inClass afterSet c rest).rest.length ≤ rest.length := by
  unfold read
  split
  · exact length_escape inClass rest
  · split
    · exact length_inside afterSet c rest
    · exact length_outside c rest

end Piece

/-- The neutral form of the rest of a pattern. -/
def neutralFrom (inClass afterSet : Bool) : List Char → List Char
  | [] => []
  | c :: rest =>
    let piece := Piece.read inClass afterSet c rest
    piece.text ++ neutralFrom piece.inClass piece.afterSet piece.rest
termination_by text => text.length
decreasing_by
  have := Piece.length_read inClass afterSet c rest
  simp only [List.length_cons]
  omega

def neutral (pattern : List Char) : List Char :=
  neutralFrom false false pattern

end CodeListing.Pattern
